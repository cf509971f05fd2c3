/-
The events of a run, in the order in which they happen.

Each path that is added leaves one event for what was found, at once
followed by another one if its key had a record before. Writing the
document leaves the last event of the run.
-/
import Dossier.Collector
import Dossier.Log.Event

namespace Dossier

open Log

/-- The target of events about single paths. -/
def recordTarget : String := "agent_docs::report"

/-- The target of events about the whole run. -/
def runTarget : String := "read_agent_docs"

/-- The event of a finding. A file that cannot be read is worth a warning. -/
def Finding.event (p : Path) : Finding → Event
  | .absent => ⟨.debug, recordTarget, "not found", [("path", p.display)]⟩
  | .text size _ =>
      ⟨.debug, recordTarget, "read", [("path", p.display), ("size", toString size)]⟩
  | .unreadable _ error => ⟨.warn, recordTarget, error.message, []⟩

namespace Collector

/-- The event of a record that takes the place of an earlier one. -/
def replacedEvent (p : Path) : Event :=
  ⟨.debug, recordTarget, "duplicate path, replacing earlier record", [("path", p.display)]⟩

/-- The events of adding one path. -/
def addEvents (c : Collector) (w : World) (raw : String) : List Event :=
  (w.finding (w.resolve raw)).event (w.resolve raw)
    :: if c.results.contains (key w raw) then [replacedEvent (w.resolve raw)] else []

/-- The events of adding several paths. -/
def extendEvents (c : Collector) (w : World) : List String → List Event
  | [] => []
  | raw :: raws => c.addEvents w raw ++ (c.add w raw).extendEvents w raws

end Collector

/-- The event of writing the document: what the program heard of a failure to
write it, or how many paths were asked for. The report of a failure that could
be written leaves no event. -/
def writeEvents (asked : Nat) (report : Report) (refusal : Option Failure) : List Event :=
  match refusal, report with
  | some failure, _ => [⟨.error, runTarget, "writing report to stdout: " ++ failure.message, []⟩]
  | none, .success .. =>
      [⟨.debug, runTarget, "report written", [("files", toString asked)]⟩]
  | none, .failure _ => []

/-- The events of a run over the given paths. -/
def trace (w : World) (raws : List String) (refusal : Option Failure) : List Event :=
  Collector.empty.extendEvents w raws
    ++ writeEvents raws.length (Report.ofPaths w raws) refusal

end Dossier
