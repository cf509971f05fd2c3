/-
The report of one run.

A successful report holds the records of all paths that were asked for,
each under the text of its path, in the order of their arrival, with the
number of paths. A missing or broken file is a record like any other, so
the only failure is a run without a path. Two reports agree when they
differ in nothing but the order of their records.
-/
import Dossier.Catalog
import Dossier.Record

namespace Dossier

/-- What a run reports. -/
inductive Report where
  | success (agent : String) (count : Nat) (results : Catalog Record)
  | failure (message : String)

namespace Report

instance : DecidableEq Report
  | .success a n r, .success b m s =>
      decidable_of_iff (a = b ∧ n = m ∧ r = s) (by simp)
  | .failure a, .failure b => decidable_of_iff (a = b) (by simp)
  | .success .., .failure _ => isFalse (by simp)
  | .failure _, .success .. => isFalse (by simp)

/-- The name under which the reader of documents reports. -/
def agentName : String := "read_agent_docs"

/-- The message for a run without a path. -/
def usageMessage : String := "Usage: read_agent_docs.py <file1> [file2] ..."

/-- The report of a run without a path. -/
def usage : Report := .failure usageMessage

/-- The report of the records that were collected. -/
def ofResults (results : Catalog Record) : Report := .success agentName results.size results

/-- The run had a path to report. -/
def isSuccess : Report → Bool
  | .success .. => true
  | .failure _ => false

/-- The status with which the program ends after writing the report. -/
def exitCode : Report → Nat
  | .success .. => 0
  | .failure _ => 1

/-- The reports differ in nothing but the order of their records. -/
def agrees : Report → Report → Bool
  | .success a n r, .success b m s => a == b && n == m && r.agrees s
  | .failure a, .failure b => a == b
  | _, _ => false

end Report

end Dossier
