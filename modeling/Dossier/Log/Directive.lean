/-
Log directives and their text form.

A directive sets a limit for the events of some targets, those that begin
with its own. It may be for the inside of a span, and it may ask for a field
that an event must have. The program opens no spans, so a directive that
names one covers no event, and neither does one that asks for the value of a
field, since values are looked at in spans only.

The text form is a target, in square brackets a span and in braces inside of
them a field, and behind `=` a limit. All but one of the parts can be left
out; without a limit everything is admitted. A text without brackets that
names a limit is a limit for all targets.

The parts are found in the text without the blanks at its ends, but they are
taken out of the whole text by their places, in octets from its beginning.
So a blank in front of a directive shifts all its parts. A place that is
shifted into the midst of a character is nowhere to cut, and the whole run
ends there.

Whether the value of a field is a pattern is for another library to say, and
so are the words about a run that ends in the midst. Both stand in `Host`.
-/
import Dossier.Log.Event
import Dossier.Text.Alphanumeric
import Dossier.Text.Blank
import Dossier.Text.Cut
import Dossier.Text.Utf8

namespace Dossier.Log

-- =============================================================== host

/-- What the directives ask of others. -/
structure Host where
  /-- Why a text is no pattern, if it is none. -/
  patternFault? : List Char → Option String
  /-- The words about a text that was to be cut inside of a character. -/
  crashWords : List Char → String

/-- A host that takes every text for a pattern. -/
def Host.lenient : Host :=
  ⟨fun _ => none, fun text => "a cut inside of a character of `" ++ String.ofList text ++ "`\n"⟩

-- ============================================================= limits

/-- The least important level that is admitted, `none` to admit nothing. -/
abbrev Limit := Option Level

/-- The level is within the limit. -/
def Limit.admits (limit : Limit) (level : Level) : Bool :=
  limit.any fun last => level.rank ≤ last.rank

/-- The limits with a number, from 0. -/
def Limit.numbered : List Limit :=
  [none, some .error, some .warn, some .info, some .debug, some .trace]

/-- The limits with a word. -/
def Limit.worded : List (String × Limit) :=
  [("off", none), ("error", some .error), ("warn", some .warn), ("info", some .info),
    ("debug", some .debug), ("trace", some .trace)]

/-- The number that a text names: digits, with a plus in front or without. -/
def numberOf? (text : List Char) : Option Nat :=
  let digits := if text.head? = some '+' then text.tail else text
  if digits ≠ [] ∧ digits.all Char.isDigit then some (Nat.ofDigitChars 10 digits 0) else none

/-- The limit that a text names, by its number or by its word in letters of
either case. -/
def Limit.ofText? (text : List Char) : Option Limit :=
  match numberOf? text with
  | some n => Limit.numbered[n]?
  | none => Limit.worded.lookup (String.ofList (text.map Char.toLower))

-- ========================================================= directives

/-- What is asked of a field. -/
structure Condition where
  name : String
  /-- The value that it must have, if any is asked for. -/
  value : Option String
  deriving DecidableEq, Repr

/-- A limit for the events of some targets. -/
structure Directive where
  target : String
  /-- The span inside of which it counts, if it names one. -/
  span : Option String := none
  /-- What it asks of a field, if it asks for one. -/
  condition : Option Condition := none
  limit : Limit
  deriving DecidableEq, Repr

/-- Why a text is no directive. -/
inductive DirectiveError where
  /-- It does not have the form of one. -/
  | form
  /-- What stands for a limit is none. -/
  | limit
  /-- What stands for the value of a field is no pattern, and why. -/
  | pattern (cause : String)
  deriving DecidableEq, Repr

/-- The words for the error. -/
def DirectiveError.message : DirectiveError → String
  | .form => "invalid filter directive"
  | .limit =>
      "error parsing level filter: expected one of \"off\", \"error\", \"warn\", "
        ++ "\"info\", \"debug\", \"trace\", or a number 0-5"
  | .pattern cause => "invalid field filter: " ++ cause

/-- What can come of a text that is to be read as a directive and is none. -/
inductive Mishap where
  /-- It is passed over. -/
  | refused (cause : DirectiveError)
  /-- It was to be cut inside of a character, and the run ends. -/
  | crash
  deriving DecidableEq, Repr

namespace Directive

/-- The directive is for all targets that begin with this text. -/
def ofTarget (target : String) (limit : Limit) : Directive := { target, limit }

/-- The name of the field that is asked for, empty if none is. -/
def asked (d : Directive) : String := (d.condition.map (·.name)).getD ""

/-- The directive is for this event. -/
def covers (d : Directive) (e : Event) : Bool :=
  d.target.toList.isPrefixOf e.target.toList && d.span.isNone
    && d.condition.all fun c => c.value.isNone && e.names.contains c.name

/-- Of two directives that cover an event the second one is at least as close
to it: its target is longer, or the targets are the same and the field that it
asks for does not come first in the order of names, where no field is first. -/
def closer (b d : Directive) : Bool :=
  b.target.length < d.target.length
    || b.target.length = d.target.length && decide (b.asked ≤ d.asked)

-- ============================================================ cutting

/-- The number of octets that a text takes. -/
def width (text : List Char) : Nat := (Utf8.encode text).length

/-- The text in two at a place, in octets from its beginning. There is no such
place inside of a character nor behind the end. -/
def cutAt : List Char → Nat → Option (List Char × List Char)
  | text, 0 => some ([], text)
  | [], _ + 1 => none
  | c :: text, place + 1 =>
      if place + 1 < width [c] then none
      else (cutAt text (place + 1 - width [c])).map fun halves => (c :: halves.1, halves.2)

/-- The part of the text between two places. -/
def part (text : List Char) (start stop : Nat) : Except Mishap (List Char) :=
  match (cutAt text stop).bind fun halves => cutAt halves.1 start with
  | some halves => .ok halves.2
  | none => .error .crash

-- ============================================================ numbers

/-- Digits, at least one. -/
def isDigits (text : List Char) : Bool := !text.isEmpty && text.all Char.isDigit

/-- The text without a sign in front. -/
def unsigned : List Char → List Char
  | '+' :: text | '-' :: text => text
  | text => text

/-- The text of a number: digits with at most one point among them, and an
exponent or none, or a word for a number that is not finite. -/
def isNumber (text : List Char) : Bool :=
  let size := (unsigned text).map Char.toLower
  let mantissa := size.takeWhile (· ≠ 'e')
  let exponent := size.dropWhile (· ≠ 'e')
  let whole := mantissa.takeWhile (· ≠ '.')
  let fraction := (mantissa.dropWhile (· ≠ '.')).drop 1
  isDigits (whole ++ fraction) && (exponent.isEmpty || isDigits (unsigned exponent.tail))
    || ["inf", "infinity", "nan"].contains (String.ofList size)

-- ============================================================ reading

variable (host : Host)

/-- The limit behind an equals sign, where nothing at all admits everything. -/
def limitOf (text : List Char) : Except Mishap Limit :=
  if text = [] then .ok (some .trace)
  else match Limit.ofText? text with
    | some limit => .ok limit
    | none => .error (.refused .limit)

/-- The limit from a place to the end. -/
def limitAt (text : List Char) (place : Nat) : Except Mishap Limit := do
  limitOf (← part text place (width text))

/-- The limit behind the brackets, which end at the place. -/
def limitBehind (text : List Char) (place : Nat) : List Char → Except Mishap Limit
  | [] => .ok (some .trace)
  | '=' :: _ => limitAt text (place + 1)
  | _ :: _ => .error (.refused .form)

/-- What a text in braces asks of a field: its name alone, or a value behind
the first `=` that goes on to the next. The value is a number or a pattern. -/
def conditionOf (text : List Char) : Except Mishap Condition :=
  match Text.cut '=' text with
  | name :: value :: _ =>
      match if isNumber value then none else host.patternFault? value with
      | some cause => .error (.refused (.pattern cause))
      | none => .ok ⟨String.ofList name, some (String.ofList value)⟩
  | _ =>
      if text = [] then .error (.refused .form)
      else .ok ⟨String.ofList text, none⟩

/-- The directive for a target and a span that asks for a field, of which the
text inside the braces and behind them is left. That text begins at the place. -/
def asking (text target span : List Char) (place : Nat) (inner : List Char) :
    Except Mishap Directive := do
  let asked := inner.takeWhile (· ≠ '\x7d')
  let stop := place + width asked
  match inner.drop asked.length with
  | '\x7d' :: behind =>
      let condition ← conditionOf host (← part text place stop)
      match behind with
      | ']' :: behind =>
          let limit ← limitBehind text (stop + 2) behind
          return ⟨String.ofList target, (some (String.ofList span)).filter (· ≠ ""),
            some condition, limit⟩
      | _ => .error (.refused .form)
  | _ => .error (.refused .form)

/-- The directive for a target, of which the text behind `[` is left. That text
begins at the place. -/
def bracketed (text target : List Char) (place : Nat) (inner : List Char) :
    Except Mishap Directive := do
  let name := inner.takeWhile fun c => c ≠ ']' && c ≠ '\x7b'
  let stop := place + width name
  match inner.drop name.length with
  | ']' :: behind =>
      let span ← part text place stop
      let limit ← limitBehind text (stop + 1) behind
      return { target := String.ofList target, span := some (String.ofList span), limit }
  | '\x7b' :: inner => do asking host text target (← part text place stop) (stop + 1) inner
  | _ => .error (.refused .form)

/-- A target begins with a letter or a digit of any script, or with one of
three marks. -/
def begins (c : Char) : Bool := Text.isAlphanumeric c || c == '-' || c == ':' || c == '_'

/-- The directive that a text stands for. -/
def ofText (text : List Char) : Except Mishap Directive :=
  match Text.trim text with
  | [] => .error (.refused .form)
  | '[' :: inner => bracketed host text [] 1 inner
  | c :: rest =>
      let word := (c :: rest).takeWhile fun c => c ≠ '=' && c ≠ '['
      let place := width word
      if !begins c then .error (.refused .form)
      else match (c :: rest).drop word.length with
        | [] =>
            match Limit.ofText? text with
            | some limit => .ok (ofTarget "" limit)
            | none => .ok (ofTarget (String.ofList text) (some .trace))
        | '[' :: inner => do bracketed host text (← part text 0 place) (place + 1) inner
        | '=' :: _ => do
            let target ← part text 0 place
            let limit ← limitAt text (place + 1)
            return ofTarget (String.ofList target) limit
        | _ => .error (.refused .form)

/-- The reading of the text ends the run. -/
def crashes (text : List Char) : Bool :=
  match ofText host text with
  | .error .crash => true
  | _ => false

/-- The complaint about a text that is passed over. -/
def complaint? (text : List Char) : Option String :=
  match ofText host text with
  | .error (.refused cause) =>
      some ("ignoring `" ++ String.ofList text ++ "`: " ++ cause.message)
  | _ => none

end Directive

end Dossier.Log
