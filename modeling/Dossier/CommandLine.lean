/-
The command line: arguments in, a document, a log and a status out.

Every argument is a path, whatever it begins with; only a `--` in front of
all others is a mark of its own and is dropped. Arguments that are not text
are refused before anything else is done. The first of them is looked at as
an option before it is taken as a path, so one that has the form of an option
and a name that is not text is refused as an option that nobody knows. A
document that cannot be written ends the run with a status of its own,
whatever the report says. A standard output that is not open for writing is no
such case: what is written there is lost without a word.

The log is set up before the arguments are looked at. If the log directives
cannot be read to their end, the run is over.
-/
import Dossier.Log.Filter
import Dossier.Log.Trace
import Dossier.Report.Document
import Dossier.Text.Plain

namespace Dossier

/-- What the program is started with. -/
structure Invocation where
  arguments : List Bytes
  /-- The log directives, if any are given. Ones that are not text count as none. -/
  directives : Option String := none
  deriving DecidableEq, Repr

/-- What a run leaves behind. -/
structure Run where
  status : Nat
  output : String
  log : String
  deriving DecidableEq, Repr

/-- Why the arguments cannot be taken. -/
inductive ArgumentError where
  /-- The first argument is an option with a name that is not text. -/
  | unknownOption (name : Bytes)
  /-- Some argument is not text. -/
  | notText
  deriving DecidableEq, Repr

/-- The words for the error, with the form of a right call below them. -/
def ArgumentError.message (e : ArgumentError) : String :=
  let complaint := match e with
    | .unknownOption name =>
        let option := "--" ++ Text.plain (Utf8.display name)
        "unexpected argument '" ++ option ++ "' found\n\n  tip: to pass '" ++ option
          ++ "' as a value, use '-- " ++ option ++ "'"
    | .notText => "invalid UTF-8 was detected in one or more arguments"
  "error: " ++ complaint ++ "\n\nUsage: read_agent_docs [FILES]...\n"

namespace Invocation

/-- The status of a run that could not do its work. -/
def brokenStatus : Nat := 2

/-- The status of a run that ended in the midst. -/
def crashedStatus : Nat := 101

/-- The name of an option, if the argument has the form of one: two dashes and
more behind them. A value stands behind the first equals sign. -/
def optionName? : Bytes → Option Bytes
  | 0x2D :: 0x2D :: b :: rest => some ((b :: rest).takeWhile (· ≠ 0x3D))
  | _ => none

/-- The name of the option that stands first, if it is one and its name is not
text. -/
def strangeOption? (i : Invocation) : Option Bytes :=
  (i.arguments.head?.bind optionName?).filter fun name => (Utf8.toString? name).isNone

/-- The arguments without a `--` in front of them all. -/
def dropMark : List String → List String
  | "--" :: raws => raws
  | raws => raws

/-- The paths that are asked for. -/
def paths (i : Invocation) : Except ArgumentError (List String) :=
  match i.strangeOption? with
  | some name => .error (.unknownOption name)
  | none =>
      match i.arguments.mapM Utf8.toString? with
      | some raws => .ok (dropMark raws)
      | none => .error .notText

/-- The log directives as one text. -/
def directiveText (i : Invocation) : String := i.directives.getD ""

/-- Text of which every line is ended. -/
def ended (lines : List String) : String := String.join (lines.map (· ++ "\n"))

variable (host : Log.Host)

/-- What the log admits. -/
def filter (i : Invocation) : Log.Filter := Log.Filter.ofText host i.directiveText

/-- The complaints about the log directives. They are made when the log is set
up, so they stand in front of all else. -/
def complaints (i : Invocation) : String :=
  ended (Log.Filter.complaints host i.directiveText)

/-- The lines of the events that the log admits. -/
def log (i : Invocation) (events : List Log.Event) : String :=
  ended ((events.filter (i.filter host).admits).map (·.line))

/-- The run with a log. `refusal` is what the system says of standard output, if
that takes nothing. -/
def runLogged (i : Invocation) (w : World) (refusal : Option Failure) : Run :=
  match i.paths with
  | .error e => ⟨brokenStatus, "", i.complaints host ++ e.message⟩
  | .ok raws =>
      let report := Report.ofPaths w raws
      let reported := refusal.bind Failure.reported?
      { status := if reported.isSome then brokenStatus else report.exitCode
        output := if refusal.isSome then "" else report.toJson ++ "\n"
        log := i.complaints host ++ i.log host (trace w raws reported) }

/-- The run in a world. It is over at once if the log cannot be set up. -/
def run (i : Invocation) (w : World) (refusal : Option Failure) : Run :=
  match Log.Filter.crashing? host i.directiveText with
  | some piece => ⟨crashedStatus, "", i.complaints host ++ host.crashWords piece⟩
  | none => i.runLogged host w refusal

end Invocation

end Dossier
