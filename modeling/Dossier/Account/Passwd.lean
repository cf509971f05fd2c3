/-
The account database as a file.

Each line is one record of seven fields with colons between them, the
name first and the home directory sixth. A line with another number of
fields is no record. Of several records for a name or a user the first one
counts, which is what a lookup in the list gives.
-/
import Dossier.Account
import Dossier.Text.Cut

namespace Dossier.Passwd

/-- The octet of `:`, which separates fields. -/
def colon : UInt8 := 0x3A

/-- The octet that ends a line. -/
def lineEnd : UInt8 := 0x0A

/-- A record as it stands in the file. -/
structure Line where
  name : Bytes
  user : Bytes
  home : Bytes
  /-- The length of the line. -/
  length : Nat
  deriving DecidableEq, Repr

/-- The record in a line, if it holds one. -/
def Line.ofBytes? (line : Bytes) : Option Line :=
  match Text.cut colon line with
  | [name, _, user, _, _, home, _] => some ⟨name, user, home, line.length⟩
  | _ => none

/-- The records of the file. -/
def lines (file : Bytes) : List Line := (Text.cut lineEnd file).filterMap Line.ofBytes?

/-- The account that a record stands for; a lookup copies the whole line. -/
def Line.account (l : Line) : Account := ⟨some l.home, l.length + 1, 0⟩

/-- The database that the file holds. -/
def accounts (file : Bytes) : Accounts := ⟨(lines file).map fun l => (l.name, l.account)⟩

/-- The account of the user with the given number, in digits. -/
def ofUser? (file : Bytes) (user : Bytes) : Option Account :=
  ((lines file).find? (·.user == user)).map Line.account

end Dossier.Passwd
