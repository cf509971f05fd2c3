/-
Numerals: the written form of numbers, and the number that each stands for.

The form is the one of the JSON grammar: an optional minus, digits without
a needless zero in front, and optionally a fraction and an exponent with at
least one digit each. A text that ends where a digit has to follow is
faulty in the way that the reader's caller names: unfinished where the
number is wanted, malformed where it is only skipped.

The value of a numeral with a fraction, an exponent or too many digits is
not the nearest magnitude. The digits are taken into a 64-bit significand
as long as it can hold them, the others count as zeros of the whole part or
not at all, and the significand is then scaled by a power of ten. Each step
rounds once, and a product beyond the largest magnitude is no number.
-/
import Dossier.Json.Reader

namespace Dossier.Json

-- ============================================================== reading

/-- The digits at the front of a text. -/
def leadingDigits (text : List Char) : List Char := text.takeWhile Char.isDigit

/-- The text behind the digits at its front. -/
def afterDigits (text : List Char) : List Char := text.dropWhile Char.isDigit

theorem length_afterDigits_le (text : List Char) :
    (afterDigits text).length ≤ text.length :=
  (List.dropWhile_suffix Char.isDigit).length_le

/-- The written form of a number, its digits as they stand. -/
structure Numeral where
  negative : Bool
  whole : List Char
  /-- The digits behind the point, none if there is no point. -/
  fraction : List Char
  exponent : Option Int
  deriving DecidableEq, Repr

/-- The value of a run of decimal digits. -/
def digitsValue (digits : List Char) : Nat :=
  digits.foldl (fun n d => 10 * n + (d.toNat - '0'.toNat)) 0

/-- Takes the digits that stand here, of which there has to be at least one. -/
def takeDigits (cut : Fault) (text : List Char) : Outcome (List Char) :=
  match leadingDigits text with
  | [] => .error (if text.isEmpty then cut else .malformed)
  | digits => .ok (digits, afterDigits text)

/-- Takes the whole part, whose first character was `c`. -/
def takeWhole (c : Char) (text : List Char) : Outcome (List Char) :=
  if c = '0' then
    if (leadingDigits text).isEmpty then .ok (['0'], text) else .error .malformed
  else if c.isDigit then .ok (c :: leadingDigits text, afterDigits text)
  else .error .malformed

/-- Takes a fraction if one stands here. -/
def takeFraction (cut : Fault) : List Char → Outcome (List Char)
  | '.' :: text => takeDigits cut text
  | text => .ok ([], text)

/-- Takes the sign of an exponent if one stands here; `true` for a minus. -/
def takeSign : List Char → Bool × List Char
  | '-' :: text => (true, text)
  | '+' :: text => (false, text)
  | text => (false, text)

/-- Takes an exponent if one stands here. -/
def takeExponent (cut : Fault) (text : List Char) : Outcome (Option Int) :=
  match text with
  | [] => .ok (none, [])
  | c :: rest =>
      if c = 'e' ∨ c = 'E' then
        match takeDigits cut (takeSign rest).2 with
        | .ok (digits, rest') =>
            let value : Int := digitsValue digits
            .ok (some (if (takeSign rest).1 then -value else value), rest')
        | .error fault => .error fault
      else .ok (none, text)

theorem length_takeDigits_le {cut : Fault} {text rest digits : List Char}
    (h : takeDigits cut text = .ok (digits, rest)) : rest.length ≤ text.length := by
  unfold takeDigits at h
  split at h
  · cases h
  · cases h; exact length_afterDigits_le text

theorem length_takeWhole_le {c : Char} {text rest digits : List Char}
    (h : takeWhole c text = .ok (digits, rest)) : rest.length ≤ text.length := by
  unfold takeWhole at h
  split at h
  · split at h
    · cases h; exact Nat.le_refl _
    · cases h
  · split at h
    · cases h; exact length_afterDigits_le text
    · cases h

theorem length_takeFraction_le {cut : Fault} {text rest digits : List Char}
    (h : takeFraction cut text = .ok (digits, rest)) : rest.length ≤ text.length := by
  unfold takeFraction at h
  split at h
  · have := length_takeDigits_le h
    simp only [List.length_cons]
    omega
  · cases h; exact Nat.le_refl _

theorem length_takeSign_le (text : List Char) : (takeSign text).2.length ≤ text.length := by
  unfold takeSign
  split <;> simp

theorem length_takeExponent_le {cut : Fault} {text rest : List Char} {e : Option Int}
    (h : takeExponent cut text = .ok (e, rest)) : rest.length ≤ text.length := by
  cases text with
  | nil => cases h; exact Nat.le_refl _
  | cons c tail =>
      rw [takeExponent] at h
      split at h
      · split at h
        · next hdigits =>
            have hle := length_takeDigits_le hdigits
            have hsign := length_takeSign_le tail
            simp only [Except.ok.injEq, Prod.mk.injEq] at h
            simp only [List.length_cons, ← h.2]
            omega
        · cases h
      · cases h; exact Nat.le_refl _

/-- Takes the first character of the whole part behind a minus. -/
def takeLead (cut : Fault) : List Char → Outcome Char
  | [] => .error cut
  | c :: text => .ok (c, text)

theorem length_takeLead_le {cut : Fault} {text rest : List Char} {c : Char}
    (h : takeLead cut text = .ok (c, rest)) : rest.length ≤ text.length := by
  cases text with
  | nil => cases h
  | cons => cases h; simp

/-- Takes the rest of a numeral whose first character was `c`. -/
def restOfNumeral (cut : Fault) (c : Char) : Reader Numeral := do
  let lead ← if c = '-' then (⟨takeLead cut, length_takeLead_le⟩ : Reader Char) else pure c
  let whole ← (⟨takeWhole lead, length_takeWhole_le⟩ : Reader (List Char))
  let fraction ← (⟨takeFraction cut, length_takeFraction_le⟩ : Reader (List Char))
  let exponent ← (⟨takeExponent cut, length_takeExponent_le⟩ : Reader (Option Int))
  return ⟨c == '-', whole, fraction, exponent⟩

-- ================================================================ value

/-- Significands and integers without a sign are below this. -/
def wordLimit : Nat := 1 <<< 64

/-- Takes digits into a significand as long as it can hold them: the
significand and the digits that are left. -/
def absorb (significand : Nat) : List Char → Nat × List Char
  | [] => (significand, [])
  | d :: digits =>
      let next := 10 * significand + (d.toNat - '0'.toNat)
      if next < wordLimit then absorb next digits else (significand, d :: digits)

namespace Numeral

/-- The number that stands for a significand without fraction or exponent. The
integers with a sign go from -2^63 to -1. -/
def ofWhole (negative : Bool) (significand : Nat) : Option Number :=
  if !negative then some (.integer significand)
  else if 0 < significand ∧ significand ≤ 1 <<< 63 then some (.integer (-significand))
  else (Double.ofNat significand).map (.float true)

/-- The number that the numeral stands for, if its magnitude is not beyond the
largest one. -/
def number? (n : Numeral) : Option Number :=
  let (significand, skipped) := absorb 0 n.whole
  if n.fraction.isEmpty && n.exponent.isNone && skipped.isEmpty then
    ofWhole n.negative significand
  else
    let (significand, unread) := absorb significand n.fraction
    let power : Int := skipped.length - (n.fraction.length - unread.length : Nat)
      + n.exponent.getD 0
    ((Double.ofNat significand).bind (·.scale power)).map (.float n.negative)

end Numeral

/-- Takes the rest of a number whose first character was `c`. -/
def restOfNumber (c : Char) : Reader Number := do
  let numeral ← restOfNumeral .unfinished c
  match numeral.number? with
  | some n => return n
  | none => Reader.fail .malformed

end Dossier.Json
