import CodeIntel.Path.Normal

namespace CodeIntel

/-- Why a file operation fails. -/
inductive FileError
  | notFound
  | badFormat
  | accessDenied
  | alreadyExists
  | notDirectory
  | isDirectory
  | invalidArgument
  | nameTooLong
  | linkLoop
  | nulInName
  | notText
deriving DecidableEq, Repr, Inhabited

def FileError.message : FileError → String
  | notFound => "No such file or directory (os error 2)"
  | badFormat => "Exec format error (os error 8)"
  | accessDenied => "Permission denied (os error 13)"
  | alreadyExists => "File exists (os error 17)"
  | notDirectory => "Not a directory (os error 20)"
  | isDirectory => "Is a directory (os error 21)"
  | invalidArgument => "Invalid argument (os error 22)"
  | nameTooLong => "File name too long (os error 36)"
  | linkLoop => "Too many levels of symbolic links (os error 40)"
  | nulInName => "file name contained an unexpected NUL byte"
  | notText => "stream did not contain valid UTF-8"

/-- The names that lead from the root to a place. -/
abbrev Place := List (List UInt8)

/-- What stands at a place. -/
inductive Node
  | file (content : List UInt8) (mode : Nat)
  | directory (mode : Nat)
  | link (target : Path)
deriving Repr, DecidableEq, Inhabited

/-- The files, directories and links of a machine. The root is always a directory. -/
structure Tree where
  entries : List (Place × Node)
deriving DecidableEq, Inhabited

namespace Tree

/-- The permissions of directories that are made anew. -/
def directoryMode : Nat := 0o755

def node? (t : Tree) (place : Place) : Option Node :=
  if place = [] then some (.directory directoryMode)
  else (t.entries.find? fun e => e.1 = place).map (·.2)

def isDirectory (t : Tree) (place : Place) : Bool :=
  match t.node? place with
  | some (.directory _) => true
  | _ => false

/-- Puts a node at a place, in the stead of what stands there. -/
def put (t : Tree) (place : Place) (node : Node) : Tree :=
  ⟨(place, node) :: t.entries.filter fun e => e.1 ≠ place⟩

def delete (t : Tree) (place : Place) : Tree := ⟨t.entries.filter fun e => e.1 ≠ place⟩

/-- Where a path leads: to something that exists, or to a free name in a directory. -/
inductive Target
  | found (place : Place)
  | free (place : Place)
deriving Repr, DecidableEq

def greatestName : Nat := 255

def greatestPath : Nat := 4095

/-- Links are followed at most this often. -/
def greatestLinks : Nat := 40

/-- The steps of a path; one that ends in a slash or a dot has to lead to a directory. -/
def stepsOf (p : Path) : List Component :=
  let steps := if p.isAbsolute then p.components.drop 1 else p.components
  match (Path.pieces p.bytes).getLast? with
  | some piece => if piece = [] ∨ piece = [0x2E] then steps ++ [.current] else steps
  | none => steps

/-- Walks from a directory step by step; `follow` goes on behind a link, and a link that stands
last is followed only if `last` says so. -/
def walkSteps (t : Tree) (last : Bool) (follow : Place → List Component → Except FileError Target) :
    Place → List Component → Except FileError Target
  | place, [] => .ok (.found place)
  | _, .root :: rest => walkSteps t last follow [] rest
  | place, .current :: rest =>
    if t.isDirectory place then walkSteps t last follow place rest else .error .notDirectory
  | place, .parent :: rest =>
    if t.isDirectory place then walkSteps t last follow place.dropLast rest else .error .notDirectory
  | place, .name bytes :: rest =>
    if !t.isDirectory place then .error .notDirectory
    else if greatestName < bytes.length then .error .nameTooLong
    else
      let next := place ++ [bytes]
      match t.node? next with
      | none => if rest = [] then .ok (.free next) else .error .notFound
      | some (.link target) =>
        if rest = [] ∧ ¬ last then .ok (.found next)
        else if target.isAbsolute then follow [] (stepsOf target ++ rest)
        else follow place (stepsOf target ++ rest)
      | some _ => walkSteps t last follow next rest

/-- Walks with a number of links left to follow. -/
def walk (t : Tree) (last : Bool) : Nat → Place → List Component → Except FileError Target
  | 0, _, _ => .error .linkLoop
  | links + 1, place, steps => walkSteps t last (walk t last links) place steps

/-- Where an absolute path of any length leads. -/
def longTarget (t : Tree) (p : Path) (last : Bool) : Except FileError Target :=
  if p.bytes = [] then .error .notFound
  else if p.bytes.contains 0 then .error .nulInName
  else t.walk last (greatestLinks + 1) [] (stepsOf p)

/-- Where an absolute path leads. -/
def target (t : Tree) (p : Path) (last : Bool) : Except FileError Target :=
  if greatestPath < p.bytes.length ∧ !p.bytes.contains 0 then .error .nameTooLong
  else t.longTarget p last

/-- What stands where a path leads. -/
def nodeAt (t : Tree) : Target → Except FileError (Place × Node)
  | .free _ => .error .notFound
  | .found place =>
    match t.node? place with
    | some node => .ok (place, node)
    | none => .error .notFound

/-- What a path leads to and where it stands. -/
def find (t : Tree) (p : Path) (last : Bool) : Except FileError (Place × Node) :=
  (t.target p last).bind t.nodeAt

def contains (t : Tree) (p : Path) : Bool := (t.find p true).isOk

def pathOf (place : Place) : Path := Path.ofComponents (.root :: place.map .name)

/-- The path without links that leads to the same place. It is found name by name, so a long path
is no error of its own. -/
def realPath (t : Tree) (p : Path) : Except FileError Path := do
  let (place, _) ← t.nodeAt (← t.longTarget p true)
  pure (pathOf place)

def read (t : Tree) (p : Path) : Except FileError (List UInt8) := do
  match (← t.find p true).2 with
  | .file content _ => pure content
  | .directory _ => throw .isDirectory
  | .link _ => throw .linkLoop

def readText (t : Tree) (p : Path) : Except FileError String := do
  let bytes ← t.read p
  match ofUtf8? bytes with
  | some text => pure text
  | none => throw .notText

/-- The permissions of files that are made anew. -/
def defaultMode : Nat := 0o644

/-- Whether a path ends in a name with a slash behind it, which no file can have. -/
def namesDirectory (p : Path) : Bool := p.bytes.getLast? = some Path.slash && p.fileName?.isSome

/-- Where a file is made or opened. -/
def fileTarget (t : Tree) (p : Path) : Except FileError Target := do
  if namesDirectory p then
    match (← t.find ((p.parent?).getD p) true).2 with
    | .directory _ => throw .isDirectory
    | _ => throw .notDirectory
  else t.target p true

/-- Fills a file, which is made if there is none. -/
def write (t : Tree) (p : Path) (content : List UInt8) : Except FileError Tree := do
  match ← t.fileTarget p with
  | .free place => pure (t.put place (.file content defaultMode))
  | .found place =>
    match t.node? place with
    | some (.file _ mode) => pure (t.put place (.file content mode))
    | _ => throw .isDirectory

def mode (t : Tree) (p : Path) : Except FileError Nat := do
  match (← t.find p true).2 with
  | .file _ mode | .directory mode => pure mode
  | .link _ => throw .linkLoop

def setMode (t : Tree) (p : Path) (mode : Nat) : Except FileError Tree := do
  match ← t.find p true with
  | (place, .file content _) => pure (t.put place (.file content mode))
  | (place, .directory _) => pure (t.put place (.directory mode))
  | _ => pure t

/-- Removes a file or a link. -/
def remove (t : Tree) (p : Path) : Except FileError Tree := do
  match ← t.find p false with
  | (_, .directory _) => throw .isDirectory
  | (place, _) => pure (t.delete place)

/-- Moves a file to another name in the stead of what stands there. -/
def rename (t : Tree) (source destination : Path) : Except FileError Tree := do
  let (place, node) ← t.find source false
  match ← t.target destination false with
  | .free next => pure ((t.delete place).put next node)
  | .found next =>
    if t.isDirectory next then throw .isDirectory else pure ((t.delete place).put next node)

/-- Makes the directories at and above a place where there are none. -/
def makeDirectories (t : Tree) (place : Place) : Tree :=
  (List.range place.length).foldl (fun t n =>
    let above := place.take (n + 1)
    match t.node? above with
    | some _ => t
    | none => t.put above (.directory directoryMode)) t

/-- Makes a directory where nothing stands yet. -/
def makeDirectory (t : Tree) (p : Path) : Except FileError Tree := do
  match ← t.target p false with
  | .free place => pure (t.put place (.directory directoryMode))
  | .found _ => throw .alreadyExists

/-- Makes a directory; there may be one already, but nothing else. -/
def ensureDirectory (t : Tree) (p : Path) : Except FileError Tree :=
  match t.makeDirectory p with
  | .error .alreadyExists =>
    match t.find p true with
    | .ok (_, .directory _) => .ok t
    | _ => .error .alreadyExists
  | made => made

/-- Makes a directory and at most `depth` of those that it lies in. -/
def makeDirectoriesUp (t : Tree) : Nat → Path → Except FileError Tree
  | 0, p => t.ensureDirectory p
  | depth + 1, p =>
    match t.ensureDirectory p, p.parent? with
    | .error .notFound, some above => do
      let t ← t.makeDirectoriesUp depth above
      t.ensureDirectory p
    | made, _ => made

/-- Makes the directories on a path; what stands in their place must be directories too. -/
def makeDirectoriesOn (t : Tree) (p : Path) : Except FileError Tree :=
  t.makeDirectoriesUp p.components.length p

/-- The names in a directory in ascending order. -/
def names (t : Tree) (place : Place) : List (List UInt8) :=
  let found := t.entries.filterMap fun e =>
    if e.1.length = place.length + 1 ∧ place.isPrefixOf e.1 then e.1.getLast? else none
  found.mergeSort fun a b => a ≤ b

end Tree

end CodeIntel
