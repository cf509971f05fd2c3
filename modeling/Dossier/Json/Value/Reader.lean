/-
Reading the values of a document.

A value is told by its first character. Arrays and objects may be nested up
to a depth that the caller gives, one bracket more is malformed as soon as
it is opened. Of a field that cannot be an array or an object, `glimpse`
reads no more than is needed to say what stands there: a bracket that opens
decides its kind, and what it holds is left unread.
-/
import Dossier.Json.Numeral
import Dossier.Json.Sequence
import Dossier.Json.Value

namespace Dossier.Json

-- ============================================================== values

/-- Takes a member's value behind its key and keeps both, last first. -/
def memberStep (value : Reader Value) (done : List (String × Value)) (key : String) :
    Reader (List (String × Value)) := do
  colon
  let v ← value
  return (key, v) :: done

/-- Takes the rest of a value whose first character was `c`. Elements and
members are read by `nested`; without it no bracket may be opened. -/
def restOfValue (nested : Option (Reader Value)) (c : Char) : Reader Value :=
  match Opening.of? c, nested with
  | none, _ => Reader.fail .malformed
  | some .null, _ => do
      restOfNull
      return .null
  | some (.boolean value), _ => do
      restOfBoolean value
      return .boolean value
  | some .number, _ => do return .number (← restOfNumber c)
  | some .text, _ => do return .text (← restOfLiteral)
  | some .array, some nested => do return .array (← elements nested true)
  | some .object, some nested => do return .object (← members (memberStep nested) []).reverse
  | some .array, none | some .object, none => Reader.fail .malformed

/-- Takes a value whose brackets are nested no deeper than `depth`. -/
def value : (depth : Nat) → Reader Value
  | 0 => do restOfValue none (← first)
  | depth + 1 => do restOfValue (some (value depth)) (← first)

-- ============================================================== fields

/-- Takes the rest of a value without content, whose first character was `c`.
An array or an object counts as empty and stays unread. -/
def restOfGlimpse (c : Char) : Reader Value :=
  match Opening.of? c with
  | some .array => return .array []
  | some .object => return .object []
  | _ => restOfValue none c

/-- Takes a field that holds a value without content, as `shape` understands it. -/
def field {α : Type} (shape : Value → Except Mismatch α) : Reader α := do
  let v ← restOfGlimpse (← first)
  Reader.ofShape (shape v)

-- ================================================================ texts

/-- Reads a text that holds one value and nothing behind it but blanks. What is
wrong with the value counts before what stands behind it. -/
def readWhole {α : Type} (reader : Reader α) (text : List Char) : Except Fault α :=
  match reader.run text with
  | .error fault => .error fault
  | .ok (v, rest) => if (skipBlanks rest).isEmpty then .ok v else .error .malformed

end Dossier.Json
