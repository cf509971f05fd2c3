/-
Readers: functions that take a value off the front of a text.

A reader never gives back more text than it was given, and says so in its
type; that is what makes the loops over elements and members end. The steps
of a reader are put together with `do`: the first fault that is met from
left to right is the fault of the whole.
-/
import Dossier.Fault

namespace Dossier.Json

/-- What a reader makes of a text: a value and the text after it, or a fault. -/
abbrev Outcome (α : Type) := Except Fault (α × List Char)

/-- A function that takes a value off the front of a text. -/
structure Reader (α : Type) where
  run : List Char → Outcome α
  length_le : ∀ {text value rest}, run text = .ok (value, rest) → rest.length ≤ text.length

namespace Reader

variable {α β : Type}

/-- Takes nothing. -/
protected def pure (value : α) : Reader α :=
  ⟨fun text => .ok (value, text), fun h => by cases h; exact Nat.le_refl _⟩

/-- Reads on behind the first reader. -/
protected def bind (first : Reader α) (next : α → Reader β) : Reader β where
  run text := match first.run text with
    | .ok (value, rest) => (next value).run rest
    | .error fault => .error fault
  length_le := by
    intro text value rest h
    split at h
    · next first_value middle hfirst =>
        exact Nat.le_trans ((next first_value).length_le h) (first.length_le hfirst)
    · cases h

/-- Refuses every text. -/
def fail (fault : Fault) : Reader α := ⟨fun _ => .error fault, fun h => by cases h⟩

instance : Monad Reader where
  pure := Reader.pure
  bind := Reader.bind

/-- Takes nothing, and fails if the shape does not fit. -/
def ofShape : Except Mismatch α → Reader α
  | .ok value => Reader.pure value
  | .error cause => fail (.mismatch cause)

@[simp] theorem run_pure (value : α) (text : List Char) :
    (pure value : Reader α).run text = .ok (value, text) := rfl

@[simp] theorem run_fail (fault : Fault) (text : List Char) :
    (fail fault : Reader α).run text = .error fault := rfl

/-- A reader after another one runs on what the first has left. -/
theorem run_bind (first : Reader α) (next : α → Reader β) (text : List Char) :
    (first >>= next).run text = match first.run text with
      | .ok (value, rest) => (next value).run rest
      | .error fault => .error fault := rfl

end Reader

-- ============================================================== blanks

/-- Space, tab, line feed and carriage return may stand between the parts of a
document; no other character is blank. -/
def isBlank (c : Char) : Bool := c == ' ' || c == '\t' || c == '\n' || c == '\r'

/-- The text from its first character on that is not blank. -/
def skipBlanks (text : List Char) : List Char := text.dropWhile isBlank

theorem length_skipBlanks_le (text : List Char) : (skipBlanks text).length ≤ text.length :=
  (List.dropWhile_suffix isBlank).length_le

/-- Takes the first character that is not blank. -/
def firstOf (text : List Char) : Outcome Char :=
  match skipBlanks text with
  | [] => .error .unfinished
  | c :: rest => .ok (c, rest)

theorem length_lt_of_firstOf {text rest : List Char} {c : Char}
    (h : firstOf text = .ok (c, rest)) : rest.length < text.length := by
  have hle := length_skipBlanks_le text
  rw [firstOf] at h
  split at h
  · cases h
  · next hs =>
      cases h
      rw [hs] at hle
      exact hle

/-- Takes the first character that is not blank. -/
def first : Reader Char := ⟨firstOf, fun h => Nat.le_of_lt (length_lt_of_firstOf h)⟩

-- =============================================================== words

/-- Takes the given characters. A text that ends among them is unfinished. -/
def takeWord : List Char → List Char → Outcome Unit
  | [], text => .ok ((), text)
  | _ :: _, [] => .error .unfinished
  | w :: word, c :: text => if c = w then takeWord word text else .error .malformed

theorem length_takeWord_le {word text rest : List Char} {u : Unit}
    (h : takeWord word text = .ok (u, rest)) : rest.length ≤ text.length := by
  induction word generalizing text with
  | nil => cases h; exact Nat.le_refl _
  | cons w word ih =>
      cases text with
      | nil => cases h
      | cons c text =>
          rw [takeWord] at h
          split at h
          · exact Nat.le_trans (ih h) (Nat.le_succ _)
          · cases h

/-- Takes the given characters. -/
def word (w : List Char) : Reader Unit := ⟨takeWord w, length_takeWord_le⟩

/-- Takes the colon between a key and its value. -/
def colon : Reader Unit := do
  let c ← first
  if c = ':' then return () else Reader.fail .malformed

-- ============================================================ openings

/-- What the first character of a value says about its kind. -/
inductive Opening where
  | null
  | boolean (value : Bool)
  | number
  | text
  | array
  | object
  deriving DecidableEq, Repr

/-- The kind of value that a character opens. -/
def Opening.of? (c : Char) : Option Opening :=
  if c = 'n' then some .null
  else if c = 't' then some (.boolean true)
  else if c = 'f' then some (.boolean false)
  else if c = '-' || c.isDigit then some .number
  else if c = '"' then some .text
  else if c = '[' then some .array
  else if c = '\x7b' then some .object
  else none

/-- What follows the first character of the word for null. -/
def restOfNull : Reader Unit := word ['u', 'l', 'l']

/-- What follows the first character of the word for a truth value. -/
def restOfBoolean : Bool → Reader Unit
  | true => word ['r', 'u', 'e']
  | false => word ['a', 'l', 's', 'e']

end Dossier.Json
