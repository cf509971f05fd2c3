/-
The world of a file tree: every look at a path is a lookup in the tree,
relative paths from one directory of it.
-/
import Dossier.Record
import Dossier.Tree

namespace Dossier

/-- The world in which paths are looked up in a tree from the given directory. -/
def World.ofTree (environment : Environment) (t : Tree) (here : Location) : World :=
  ⟨environment, t.look here⟩

end Dossier
