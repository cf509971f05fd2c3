/-
Events of a run and the lines that tell of them.

An event has a level, a target that says which part of the program it comes
from, a message and named fields. In its line the message cannot reach for
the terminal: the control characters that start or end a terminal's escape
sequences are spelled out. Fields are written as they are.
-/
import Dossier.Text.Quoted

namespace Dossier.Log

/-- How much an event matters, from most to least. -/
inductive Level where
  | error
  | warn
  | info
  | debug
  | trace
  deriving DecidableEq, Repr

namespace Level

/-- The place of the level, the most important first. -/
def rank : Level → Nat
  | .error => 1
  | .warn => 2
  | .info => 3
  | .debug => 4
  | .trace => 5

/-- The word for the level, five characters wide. -/
def label : Level → String
  | .error => "ERROR"
  | .warn => " WARN"
  | .info => " INFO"
  | .debug => "DEBUG"
  | .trace => "TRACE"

end Level

/-- Something that happened in a run. -/
structure Event where
  level : Level
  target : String
  message : String
  fields : List (String × String) := []
  deriving DecidableEq, Repr

/-- The two hexadecimal digits of a code below 256. -/
def hexPair (n : Nat) : List Char := [Nat.digitChar (n / 16), Nat.digitChar (n % 16)]

/-- The control characters of seven bits that a terminal may act on: bell,
backspace, form feed, escape and delete. -/
def actsOnTerminal (c : Char) : Bool :=
  c == '\x07' || c == '\x08' || c == '\x0c' || c == '\x1b' || c == '\x7f'

/-- One character of a message. -/
def messageChar (c : Char) : List Char :=
  if actsOnTerminal c then '\\' :: 'x' :: hexPair c.toNat
  else if 0x80 ≤ c.toNat ∧ c.toNat ≤ 0x9F then
    '\\' :: 'u' :: '\x7b' :: Text.hexDigits c.toNat ++ ['\x7d']
  else [c]

namespace Event

/-- The message as it stands in a line. -/
def shownMessage (e : Event) : String := String.ofList (e.message.toList.flatMap messageChar)

/-- The names of its fields, of which the message is one. -/
def names (e : Event) : List String := "message" :: e.fields.map (·.1)

/-- The line that tells of the event, without its end. -/
def line (e : Event) : String :=
  e.level.label ++ " " ++ e.target ++ ": " ++ e.shownMessage
    ++ String.join (e.fields.map fun (name, value) => " " ++ name ++ "=" ++ value)

end Event

end Dossier.Log
