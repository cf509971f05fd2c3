/-
Collecting the records of a run.

Paths are added one by one, each in the world as it is at that moment. A
path is recorded under the text of what it stands for; when it comes again,
its record is taken anew and stays in the place of the first.
-/
import Dossier.Report

namespace Dossier

/-- The records that have been collected. -/
structure Collector where
  results : Catalog Record

namespace Collector

/-- Nothing has been collected. -/
def empty : Collector := ⟨Catalog.empty⟩

/-- The key under which a path is recorded in a world. -/
def key (w : World) (raw : String) : String := (w.resolve raw).display

/-- Records one path. -/
def add (c : Collector) (w : World) (raw : String) : Collector :=
  ⟨c.results.insert (key w raw) (w.probe (w.resolve raw))⟩

/-- Records several paths, one after the other. -/
def extend (c : Collector) (w : World) (raws : List String) : Collector :=
  raws.foldl (·.add w) c

/-- The number of paths that have a record. -/
def size (c : Collector) : Nat := c.results.size

/-- There is no record. -/
def isEmpty (c : Collector) : Bool := c.results.isEmpty

/-- The report of the records. -/
def report (c : Collector) : Report := Report.ofResults c.results

end Collector

/-- The report of the given paths. A run without a path looks at nothing. -/
def Report.ofPaths (w : World) (raws : List String) : Report :=
  if raws.isEmpty then Report.usage else (Collector.empty.extend w raws).report

end Dossier
