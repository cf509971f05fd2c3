/-
Why a text is refused, and the words for it.

A text can fail to be JSON, it can end too early, or it can be JSON of the
wrong shape. The last comes with its cause, and `message` is the one place
where causes are put into words.
-/
import Dossier.Json.Number
import Dossier.Text.Quoted

namespace Dossier

/-- What stands where something else was expected. -/
inductive Found where
  | null
  | boolean (value : Bool)
  | number (value : Json.Number)
  | text (value : String)
  | sequence
  | map
  deriving DecidableEq, Repr

/-- What was expected. -/
inductive Expected where
  | boolean
  | size
  | count
  | text
  | results
  | record
  | report
  | status
  deriving DecidableEq, Repr

/-- What can be written as an array of its fields. -/
inductive Form where
  | record
  | success
  | failure
  deriving DecidableEq, Repr

/-- A shape that does not fit. -/
inductive Mismatch where
  | wrongKind (found : Found) (expected : Expected)
  | negative (value : Int) (expected : Expected)
  /-- An array ends after this many fields. -/
  | tooFew (length : Nat) (form : Form)
  /-- An array has this many fields. -/
  | tooMany (length : Nat) (form : Form)
  | missing (field : String)
  | repeated (field : String)
  | unknownStatus (word : String)
  deriving DecidableEq, Repr

/-- Why a text is refused. -/
inductive Fault where
  /-- The text is not JSON, whatever may follow. -/
  | malformed
  /-- The text ends before the value does. -/
  | unfinished
  /-- The text is JSON so far, of the wrong shape. -/
  | mismatch (cause : Mismatch)
  deriving DecidableEq, Repr

instance {α : Type} [DecidableEq α] : DecidableEq (Except Fault α)
  | .ok a, .ok b => decidable_of_iff (a = b) (by simp)
  | .error a, .error b => decidable_of_iff (a = b) (by simp)
  | .ok _, .error _ => isFalse (by simp)
  | .error _, .ok _ => isFalse (by simp)

namespace Found

/-- The words for what was found. -/
def words : Found → String
  | .null => "null"
  | .boolean value => "boolean `" ++ toString value ++ "`"
  | .number (.integer n) => "integer `" ++ String.ofList (Json.Number.integerText n) ++ "`"
  | .number n => "floating point `" ++ String.ofList n.text ++ "`"
  | .text value => "string " ++ Text.quoted value
  | .sequence => "sequence"
  | .map => "map"

end Found

namespace Expected

/-- The words for what was expected. -/
def words : Expected → String
  | .boolean => "a boolean"
  | .size => "u64"
  | .count => "usize"
  | .text => "a string"
  | .results => "a map"
  | .record => "struct FileReport"
  | .report => "internally tagged enum RunResult"
  | .status => "variant identifier"

end Expected

namespace Form

/-- The number of fields. -/
def arity : Form → Nat
  | .record => 3
  | .success => 3
  | .failure => 1

/-- The words for a form with the number of its fields. -/
def words : Form → String
  | .record => "struct FileReport with 3 elements"
  | .success => "struct variant RunResult::Success with 3 elements"
  | .failure => "struct variant RunResult::Error with 1 element"

/-- The words for the number of fields alone. -/
def lengthWords (form : Form) : String :=
  toString form.arity ++ (if form.arity = 1 then " element" else " elements") ++ " in sequence"

end Form

/-- The words for a shape that does not fit. -/
def Mismatch.message : Mismatch → String
  | .wrongKind found expected =>
      "invalid type: " ++ found.words ++ ", expected " ++ expected.words
  | .negative value expected =>
      "invalid value: " ++ (Found.number (.integer value)).words ++ ", expected " ++ expected.words
  | .tooFew length form =>
      "invalid length " ++ toString length ++ ", expected " ++ form.words
  | .tooMany length form =>
      "invalid length " ++ toString length ++ ", expected " ++ form.lengthWords
  | .missing field => "missing field `" ++ field ++ "`"
  | .repeated field => "duplicate field `" ++ field ++ "`"
  | .unknownStatus word => "unknown variant `" ++ word ++ "`, expected `success` or `error`"

end Dossier
