/-
Going past a value without making anything of it.

A value that nobody asked for is held to the grammar and no more: a numeral
may stand for a number beyond all magnitudes, an escape for half a surrogate
pair, and brackets may be nested to any depth. The brackets that are open
are kept in a list, so no depth is too much for the reader either. Every
step takes at least one character, and so the skip ends with the text.
-/
import Dossier.Json.Literal
import Dossier.Json.Numeral

namespace Dossier.Json

/-- A kind of bracket. -/
inductive Bracket where
  | array
  | object
  deriving DecidableEq, Repr

/-- The character that closes a bracket. -/
def Bracket.close : Bracket → Char
  | .array => ']'
  | .object => '\x7d'

/-- Where a skip stands, with the brackets that are open, innermost first. -/
inductive Skip where
  | beforeValue (around : List Bracket)
  /-- Behind a bracket that opens, inside of others. -/
  | opened (bracket : Bracket) (around : List Bracket)
  | behindValue (around : List Bracket)
  deriving DecidableEq, Repr

namespace Skip

/-- Goes past what begins with `c`, a value without content or a bracket. -/
def restOfValue (around : List Bracket) (c : Char) : Reader Skip :=
  match Opening.of? c with
  | none => Reader.fail .malformed
  | some .null => do
      restOfNull
      return .behindValue around
  | some (.boolean value) => do
      restOfBoolean value
      return .behindValue around
  | some .number => do
      let _ ← restOfNumeral .malformed c
      return .behindValue around
  | some .text => do
      restOfSkippedLiteral
      return .behindValue around
  | some .array => return .opened .array around
  | some .object => return .opened .object around

/-- Goes past a key that begins with `c`, and the colon behind it. -/
def restOfKey (around : List Bracket) (c : Char) : Reader Skip := do
  if c = '"' then
    restOfSkippedLiteral
    colon
    return .beforeValue (.object :: around)
  else Reader.fail .malformed

/-- Goes on by what begins with the character `c`. -/
def advance (c : Char) : Skip → Reader Skip
  | .beforeValue around => restOfValue around c
  | .opened bracket around =>
      if c = bracket.close then return .behindValue around
      else match bracket with
        | .array => restOfValue (.array :: around) c
        | .object => restOfKey around c
  | .behindValue [] => Reader.fail .malformed
  | .behindValue (bracket :: around) =>
      if c = bracket.close then return .behindValue around
      else if c ≠ ',' then Reader.fail .malformed
      else match bracket with
        | .array => return .beforeValue (.array :: around)
        | .object => do restOfKey around (← first)

/-- Goes on by at least one character. -/
def step (s : Skip) : Reader Skip := do s.advance (← first)

theorem length_step_lt {s s' : Skip} {text rest : List Char}
    (h : s.step.run text = .ok (s', rest)) : rest.length < text.length := by
  rw [step, Reader.run_bind] at h
  split at h
  · next c tail hfirst =>
      exact Nat.lt_of_le_of_lt ((s.advance c).length_le h) (length_lt_of_firstOf hfirst)
  · cases h

/-- Goes on until the skip stands behind a value with no bracket open. -/
def finish (s : Skip) (text : List Char) : Outcome Unit :=
  if s = .behindValue [] then .ok ((), text)
  else match h : s.step.run text with
    | .error fault => .error fault
    | .ok (s', rest) =>
        have := length_step_lt h
        finish s' rest
termination_by text.length

theorem length_finish_le {s : Skip} {text rest : List Char} {u : Unit}
    (h : s.finish text = .ok (u, rest)) : rest.length ≤ text.length := by
  fun_induction finish s text with
  | case1 => cases h; exact Nat.le_refl _
  | case2 => cases h
  | case3 =>
      rename_i hlt ih
      exact Nat.le_trans (ih h) (Nat.le_of_lt hlt)

end Skip

/-- Goes past one value. -/
def skipped : Reader Unit := ⟨(Skip.beforeValue []).finish, Skip.length_finish_le⟩

end Dossier.Json
