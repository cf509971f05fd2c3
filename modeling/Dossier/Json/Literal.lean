/-
String literals, written and read.

Written, a literal escapes the quote, the backslash and the control
characters and nothing else. Read, it may escape any character; the escape
of a surrogate counts only together with its partner. A literal that is
only skipped is held to the same form, but its surrogates are not paired.

The four digits of an escape are asked for at once, so an escape with fewer
than four octets of text after it is unfinished, whatever these are.
-/
import Dossier.Json.Reader

namespace Dossier.Json

-- ============================================================= writing

/-- One character inside a literal. -/
def escape (c : Char) : List Char :=
  if c = '"' then ['\\', '"']
  else if c = '\\' then ['\\', '\\']
  else if c = '\x08' then ['\\', 'b']
  else if c = '\x0c' then ['\\', 'f']
  else if c = '\n' then ['\\', 'n']
  else if c = '\r' then ['\\', 'r']
  else if c = '\t' then ['\\', 't']
  else if c.toNat < 0x20 then
    ['\\', 'u', '0', '0', Nat.digitChar (c.toNat / 16), Nat.digitChar (c.toNat % 16)]
  else [c]

/-- The literal of a text. -/
def literal (s : String) : List Char := '"' :: s.toList.flatMap escape ++ ['"']

-- ============================================================== escapes

/-- The value of a hexadecimal digit. -/
def hexValue? (c : Char) : Option Nat :=
  if c.isDigit then some (c.toNat - '0'.toNat)
  else if 'a' ≤ c ∧ c ≤ 'f' then some (c.toNat - 'a'.toNat + 10)
  else if 'A' ≤ c ∧ c ≤ 'F' then some (c.toNat - 'A'.toNat + 10)
  else none

/-- The value of four hexadecimal digits. -/
def hexValue4? (a b c d : Char) : Option Nat := do
  return ((← hexValue? a) * 16 + (← hexValue? b)) * 256 + (← hexValue? c) * 16 + (← hexValue? d)

/-- The number of octets that encode the text. -/
def octetCount (text : List Char) : Nat := (text.flatMap String.utf8EncodeChar).length

/-- Takes the four digits of an escape. -/
def takeCode (text : List Char) : Outcome Nat :=
  match text with
  | a :: b :: c :: d :: rest =>
      match hexValue4? a b c d with
      | some code => .ok (code, rest)
      | none => .error .malformed
  | short => .error (if octetCount short < 4 then .unfinished else .malformed)

/-- A code of the first half of a surrogate pair. -/
def isHighSurrogate (code : Nat) : Bool := 0xD800 ≤ code && code ≤ 0xDBFF

/-- A code of the second half of a surrogate pair. -/
def isLowSurrogate (code : Nat) : Bool := 0xDC00 ≤ code && code ≤ 0xDFFF

/-- The code that a surrogate pair stands for. -/
def pairCode (high low : Nat) : Nat := 0x10000 + (high - 0xD800) * 0x400 + (low - 0xDC00)

/-- Takes the second half of a surrogate pair with its own escape. -/
def takePartner : List Char → Outcome Nat
  | [] => .error .unfinished
  | '\\' :: [] => .error .unfinished
  | '\\' :: 'u' :: rest =>
      match takeCode rest with
      | .ok (code, rest) => if isLowSurrogate code then .ok (code, rest) else .error .malformed
      | .error fault => .error fault
  | _ => .error .malformed

/-- The character of an escape with one letter. -/
def simpleEscape? (c : Char) : Option Char :=
  if c = '"' then some '"'
  else if c = '\\' then some '\\'
  else if c = '/' then some '/'
  else if c = 'b' then some '\x08'
  else if c = 'f' then some '\x0c'
  else if c = 'n' then some '\n'
  else if c = 'r' then some '\r'
  else if c = 't' then some '\t'
  else none

/-- Takes the escape after a backslash and gives the character it stands for. -/
def takeEscape : List Char → Outcome Char
  | [] => .error .unfinished
  | c :: rest =>
      match simpleEscape? c with
      | some value => .ok (value, rest)
      | none =>
          if c ≠ 'u' then .error .malformed
          else match takeCode rest with
            | .error fault => .error fault
            | .ok (code, rest) =>
                if isLowSurrogate code then .error .malformed
                else if isHighSurrogate code then
                  match takePartner rest with
                  | .ok (low, rest) => .ok (Char.ofNat (pairCode code low), rest)
                  | .error fault => .error fault
                else .ok (Char.ofNat code, rest)

/-- Takes the escape after a backslash without looking at what it stands for. -/
def skipEscape : List Char → Outcome Unit
  | [] => .error .unfinished
  | c :: rest =>
      if (simpleEscape? c).isSome then .ok ((), rest)
      else if c ≠ 'u' then .error .malformed
      else match takeCode rest with
        | .ok (_, rest) => .ok ((), rest)
        | .error fault => .error fault

theorem length_takeCode_lt {text rest : List Char} {code : Nat}
    (h : takeCode text = .ok (code, rest)) : rest.length < text.length := by
  unfold takeCode at h
  split at h
  · split at h
    · cases h; simp only [List.length_cons]; omega
    · cases h
  · cases h

theorem length_takePartner_lt {text rest : List Char} {code : Nat}
    (h : takePartner text = .ok (code, rest)) : rest.length < text.length := by
  unfold takePartner at h
  split at h
  · cases h
  · cases h
  · split at h
    · next hcode =>
        have hlt := length_takeCode_lt hcode
        split at h
        · cases h; simp only [List.length_cons]; omega
        · cases h
    · cases h
  · cases h

theorem length_takeEscape_lt {text rest : List Char} {c : Char}
    (h : takeEscape text = .ok (c, rest)) : rest.length < text.length := by
  unfold takeEscape at h
  split at h
  · cases h
  · split at h
    · cases h; simp
    · split at h
      · cases h
      · split at h
        · cases h
        · next hcode =>
            have hlt := length_takeCode_lt hcode
            split at h
            · cases h
            · split at h
              · split at h
                · next hpartner =>
                    have hlt' := length_takePartner_lt hpartner
                    simp only [Except.ok.injEq, Prod.mk.injEq] at h
                    simp only [List.length_cons, ← h.2]
                    omega
                · cases h
              · simp only [Except.ok.injEq, Prod.mk.injEq] at h
                simp only [List.length_cons, ← h.2]
                omega

theorem length_skipEscape_lt {text rest : List Char} {u : Unit}
    (h : skipEscape text = .ok (u, rest)) : rest.length < text.length := by
  unfold skipEscape at h
  split at h
  · cases h
  · split at h
    · cases h; simp
    · split at h
      · cases h
      · split at h
        · next hcode =>
            have hlt := length_takeCode_lt hcode
            cases h; simp only [List.length_cons]; omega
        · cases h

-- ============================================================= reading

/-- Takes the rest of a literal behind its opening quote; `done` holds the
characters read so far, last first. -/
def takeLiteral (done : List Char) (text : List Char) : Outcome (List Char) :=
  match text with
  | [] => .error .unfinished
  | c :: rest =>
      if c = '"' then .ok (done.reverse, rest)
      else if c = '\\' then
        match h : takeEscape rest with
        | .ok (value, rest') =>
            have := length_takeEscape_lt h
            takeLiteral (value :: done) rest'
        | .error fault => .error fault
      else if c.toNat < 0x20 then .error .malformed
      else takeLiteral (c :: done) rest
termination_by text.length
decreasing_by
  all_goals simp only [List.length_cons]; omega

theorem length_takeLiteral_le {done text rest value : List Char}
    (h : takeLiteral done text = .ok (value, rest)) : rest.length ≤ text.length := by
  fun_induction takeLiteral done text with
  | case1 => cases h
  | case2 => cases h; simp
  | case3 =>
      rename_i hlt ih
      have := ih h
      simp only [List.length_cons]
      omega
  | case4 => cases h
  | case5 => cases h
  | case6 done c rest' _ _ _ ih =>
      have := ih h
      simp only [List.length_cons]
      omega

/-- Takes the rest of a literal behind its opening quote and gives its text. -/
def restOfLiteral : Reader String where
  run text := match takeLiteral [] text with
    | .ok (value, rest) => .ok (String.ofList value, rest)
    | .error fault => .error fault
  length_le := by
    intro text value rest h
    split at h
    · next hliteral => cases h; exact length_takeLiteral_le hliteral
    · cases h

/-- Takes the rest of a literal behind its opening quote, by its form alone. -/
def skipLiteral (text : List Char) : Outcome Unit :=
  match text with
  | [] => .error .unfinished
  | c :: rest =>
      if c = '"' then .ok ((), rest)
      else if c = '\\' then
        match h : skipEscape rest with
        | .ok ((), rest') =>
            have := length_skipEscape_lt h
            skipLiteral rest'
        | .error fault => .error fault
      else if c.toNat < 0x20 then .error .malformed
      else skipLiteral rest
termination_by text.length
decreasing_by
  all_goals simp only [List.length_cons]; omega

theorem length_skipLiteral_le {text rest : List Char} {u : Unit}
    (h : skipLiteral text = .ok (u, rest)) : rest.length ≤ text.length := by
  fun_induction skipLiteral text with
  | case1 => cases h
  | case2 => cases h; simp
  | case3 =>
      rename_i hlt ih
      have := ih h
      simp only [List.length_cons]
      omega
  | case4 => cases h
  | case5 => cases h
  | case6 c rest' _ _ _ ih =>
      have := ih h
      simp only [List.length_cons]
      omega

/-- Takes the rest of a literal behind its opening quote, by its form alone. -/
def restOfSkippedLiteral : Reader Unit := ⟨skipLiteral, length_skipLiteral_le⟩

end Dossier.Json
