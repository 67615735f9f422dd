import CodeIntel.Files.Tree
import CodeIntel.Path.Normal

namespace CodeIntel.Rehearsal

/-- What a workspace holds before anything happens in it. Relative paths are taken from its root. -/
structure Workspace where
  root : Path
  directories : List Path
  files : List (Path × List UInt8)
  links : List (Path × Path)
  modes : List (Path × Nat)

/-- The place of a path, its dots resolved by its text. -/
def placeOf (p : Path) : Place :=
  p.normal.components.filterMap fun
    | .name bytes => some bytes
    | _ => none

/-- Puts a node at a place, below the directories that lead there. -/
def putBelow (t : Tree) (place : Place) (node : Node) : Tree :=
  (t.makeDirectories place.dropLast).put place node

namespace Workspace

def place (w : Workspace) (p : Path) : Place := placeOf (w.root.join p)

/-- The files of a machine that holds this workspace besides what is there already. -/
def addTo (w : Workspace) (t : Tree) : Tree :=
  let t := t.makeDirectories (placeOf w.root)
  let t := w.directories.foldl (fun t p => t.makeDirectories (w.place p)) t
  let t := w.files.foldl (fun t f => putBelow t (w.place f.1) (.file f.2 Tree.defaultMode)) t
  let t := w.links.foldl (fun t l => putBelow t (w.place l.1) (.link l.2)) t
  w.modes.foldl (fun t m => ((t.setMode (w.root.join m.1) m.2).toOption).getD t) t

end Workspace

end CodeIntel.Rehearsal
