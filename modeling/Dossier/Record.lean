/-
What is recorded for one requested path.

A look at the path has one of three findings: nothing is there, there is a
text, or there is something that cannot be read as text. A record writes
each of them in the same three fields, so that a missing or broken file
never fails a batch.
-/
import Dossier.Failure
import Dossier.Home

namespace Dossier

/-- The world that paths are read in: what expansion depends on, and what a
look at each path meets. -/
structure World where
  environment : Environment
  look : Path → Sighting

/-- A failed read of an existing file. -/
structure ReadFailure where
  path : Path
  cause : Failure
  deriving DecidableEq, Repr

/-- The words that a report has for a failed read. -/
def ReadFailure.message (e : ReadFailure) : String :=
  "ERROR reading " ++ e.path.display ++ ": " ++ e.cause.message

/-- The record of one path, under which it stands in a report. -/
structure Record where
  /-- Something is there. -/
  present : Bool
  /-- Its size in octets, 0 when nothing is there. -/
  size : Nat
  /-- Its text, or words that say why there is none. -/
  content : String
  deriving DecidableEq, Repr

namespace Record

/-- The content recorded for a path at which nothing is there. -/
def absentContent : String := "File not found"

/-- The record of a path at which nothing is there. -/
def absent : Record := ⟨false, 0, absentContent⟩

/-- The record of something whose read failed. -/
def unreadable (size : Nat) (e : ReadFailure) : Record := ⟨true, size, e.message⟩

end Record

/-- What the look at one path found. -/
inductive Finding where
  | absent
  | text (size : Nat) (content : String)
  | unreadable (size : Nat) (error : ReadFailure)
  deriving DecidableEq, Repr

namespace Finding

/-- Reads what a look met as text. -/
def ofSighting (p : Path) : Sighting → Finding
  | .missing => .absent
  | .unreadable size cause => .unreadable size ⟨p, cause⟩
  | .data bytes => match Utf8.toString? bytes with
    | some content => .text bytes.length content
    | none => .unreadable bytes.length ⟨p, .notText⟩

/-- The record of a finding. -/
def record : Finding → Record
  | .absent => Record.absent
  | .text size content => ⟨true, size, content⟩
  | .unreadable size error => Record.unreadable size error

end Finding

namespace World

/-- What is found at a path. -/
def finding (w : World) (p : Path) : Finding := Finding.ofSighting p (w.look p)

/-- The record of what is found at a path, which is used as it is. -/
def probe (w : World) (p : Path) : Record := (w.finding p).record

/-- The path that `raw` stands for in this world. -/
def resolve (w : World) (raw : String) : Path := w.environment.expand raw

end World

end Dossier
