/-
A file tree and the lookup of a path in it.

A node stands at a location, the names that lead to it from the root, here
kept innermost first so that the parent of a location is its tail. Links
hold a text and not a location, so a tree may have dangling and circular
ones. The lookup goes through a path name by name, follows every link it
meets, the last one included, and takes `..` as the parent of the place
that it has reached, wherever the links led.

`walk` keeps a stack of names still to be gone through. An empty piece and
`.` stay where they are, but only in a directory, and so a trailing `/`
after a file makes the lookup fail, whether it stands in the path or at
the end of a link.
-/
import Dossier.Failure
import Dossier.Path

namespace Dossier

/-- What stands at one place of a file tree. -/
inductive Node where
  | file (data : Bytes)
  | directory
  /-- A symbolic link, with the text of its target. -/
  | link (target : Bytes)
  deriving DecidableEq, Repr

/-- A place in a file tree: its names up to the root, innermost first. -/
abbrev Location := List Name

/-- A file tree: the nodes below the root, which is always a directory. -/
structure Tree where
  nodes : List (Location × Node)
  deriving DecidableEq, Repr

namespace Tree

/-- The node at a place. -/
def node? (t : Tree) (place : Location) : Option Node :=
  if place.isEmpty then some .directory else t.nodes.lookup place

/-- A directory stands at the place. -/
def isDirectory (t : Tree) (place : Location) : Bool := t.node? place == some .directory

-- ============================================================== lookup

/-- A path that is this long cannot be looked up. -/
def pathLimit : Nat := 4096

/-- No name may be longer. -/
def nameLimit : Nat := 255

/-- A lookup follows no more links than this. -/
def linkLimit : Nat := 40

/-- Where a path starts that is met in a directory. -/
def start (here : Location) (p : Path) : Location := if p.isAbsolute then [] else here

/-- Goes through the names from `here`, handing what is left to `follow` at the
first link, from where that link points. -/
def walkTo (t : Tree) (follow : Location → List Name → Option Location) :
    Location → List Name → Option Location
  | here, [] => some here
  | here, name :: rest =>
      if !t.isDirectory here then none
      else if Path.isIdle name then walkTo t follow here rest
      else if name == [dot, dot] then walkTo t follow here.tail rest
      else if nameLimit < name.length then none
      else match t.node? (name :: here) with
        | none => none
        | some (.link []) => none
        | some (.link target) => follow (start here ⟨target⟩) (Path.pieces ⟨target⟩ ++ rest)
        | some _ => walkTo t follow (name :: here) rest

/-- Goes through the names from `here` and follows at most `links` links. -/
def walk (t : Tree) : (links : Nat) → Location → List Name → Option Location
  | 0 => t.walkTo fun _ _ => none
  | links + 1 => t.walkTo (t.walk links)

/-- The place that a lookup of the path reaches from the given directory. A
path that is empty, too long or holds a zero octet reaches nothing. -/
def find? (t : Tree) (here : Location) (p : Path) : Option Location :=
  if p.bytes.isEmpty || pathLimit ≤ p.bytes.length || p.bytes.contains 0 then none
  else t.walk linkLimit (start here p) p.pieces

/-- What a look at the path meets. How much room a directory takes is not part
of the tree; it counts as 0. -/
def look (t : Tree) (here : Location) (p : Path) : Sighting :=
  match (t.find? here p).bind t.node? with
  | some (.file data) => .data data
  | some .directory => .unreadable 0 (.system .isADirectory)
  | some (.link _) | none => .missing

end Tree

end Dossier
