/-
Which events are written to the log.

A filter is a list of directives. Of those that cover an event the one with
the longest target decides, of several with the same target one that asks
for a field before one that does not, and of equal ones the last. An event is
admitted when its level is within the limit that was decided on, and is
dropped when no directive covers it.

The text form separates directives by commas. What is no directive is passed
over, and a complaint says why. What cannot be cut where it should be ends the
run, so there is no complaint about anything behind it. The default stands
behind all others, so it takes the place of a limit for all targets that the
text may give.
-/
import Dossier.Log.Directive

namespace Dossier.Log

/-- A list of directives. -/
structure Filter where
  directives : List Directive
  deriving DecidableEq, Repr

namespace Filter

/-- Without another word, warnings and errors are admitted. -/
def default : Directive := .ofTarget "" (some .warn)

/-- What stands between the commas of a text, the empty pieces left out. -/
def pieces (text : String) : List (List Char) :=
  (Text.cut ',' text.toList).filter (!·.isEmpty)

variable (host : Host)

/-- The filter that a text stands for, with the default behind its directives. -/
def ofText (text : String) : Filter :=
  ⟨(pieces text).filterMap (Directive.ofText host · |>.toOption) ++ [default]⟩

/-- The piece at which the reading of a text ends the run, if it does. -/
def crashing? (text : String) : Option (List Char) :=
  (pieces text).find? (Directive.crashes host)

/-- The complaints about a text, a line for each piece that is passed over. -/
def complaints (text : String) : List String :=
  ((pieces text).takeWhile (!Directive.crashes host ·)).filterMap (Directive.complaint? host)

/-- The closer one of a directive found so far and another one, which comes
later and wins a tie. -/
def nearest (best : Option Directive) (d : Directive) : Option Directive :=
  match best with
  | none => some d
  | some b => if b.closer d then some d else some b

/-- The directive that decides on an event. -/
def deciding? (f : Filter) (e : Event) : Option Directive :=
  (f.directives.filter (·.covers e)).foldl nearest none

/-- The event is written to the log. -/
def admits (f : Filter) (e : Event) : Bool :=
  (f.deciding? e).any (·.limit.admits e.level)

end Filter

end Dossier.Log
