/-
Paths as a system call takes them: octets, cut into names by `/`.

A path has many spellings. What a spelling names, as long as no link is
followed, is its `segments`: the pieces between the separators without the
empty ones and without `.`, together with whether it starts at the root.
`..` is a segment like any other, since only a look at the file tree can
say where it leads. `tidy` writes the shortest spelling of its class.
-/
import Dossier.Text.Cut
import Dossier.Text.Utf8

namespace Dossier

/-- A name between two separators. -/
abbrev Name := Bytes

/-- The octet of `/`, which separates names and starts absolute paths. -/
def slash : UInt8 := 0x2F

/-- The octet of `.`: alone it is the name of the directory itself. -/
def dot : UInt8 := 0x2E

/-- The octet of `~`, which stands for a home directory at the start of a path. -/
def tilde : UInt8 := 0x7E

/-- A path in the spelling that was given. -/
structure Path where
  bytes : Bytes
  deriving DecidableEq, Repr

namespace Path

/-- The pieces of the path between its separators, the empty ones included. -/
def pieces (p : Path) : List Name := Text.cut slash p.bytes

/-- The path starts at the root. -/
def isAbsolute (p : Path) : Bool := p.bytes.head? == some slash

/-- A piece that moves nowhere: the empty one or `.`. -/
def isIdle (name : Name) : Bool := name == [] || name == [dot]

/-- The names that the path walks through. -/
def segments (p : Path) : List Name := p.pieces.filter (!isIdle ·)

/-- The shortest path with the given names: `/` before the first iff it starts
at the root, one `/` between two, and `.` where nothing else is left. -/
def ofSegments (absolute : Bool) (names : List Name) : Path :=
  if absolute then ⟨slash :: [slash].intercalate names⟩
  else if names.isEmpty then ⟨[dot]⟩
  else ⟨[slash].intercalate names⟩

/-- The shortest spelling with the same start and the same segments. -/
def tidy (p : Path) : Path := ofSegments p.isAbsolute p.segments

/-- A path below another one. An absolute tail takes the place of the base.
Otherwise a separator is put between the two unless the first is empty or ends
in one. -/
def join (base : Path) (tail : Bytes) : Path :=
  if tail.head? = some slash then ⟨tail⟩
  else if base.bytes.isEmpty || base.bytes.getLast? == some slash then
    ⟨base.bytes ++ tail⟩
  else ⟨base.bytes ++ slash :: tail⟩

/-- The path as text, for people and for report keys. -/
def display (p : Path) : String := Utf8.display p.bytes

end Path

end Dossier
