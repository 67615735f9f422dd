import CodeIntel.Text.Utf8

namespace CodeIntel

/-- A file path as it is written: any bytes, with slashes between the names. -/
structure Path where
  bytes : List UInt8
deriving DecidableEq, Repr, Inhabited

/-- A step of a path. -/
inductive Component
  | root
  | current
  | parent
  | name (bytes : List UInt8)
deriving DecidableEq, Repr, Inhabited

namespace Component

def bytes : Component → List UInt8
  | root => [0x2F]
  | current => [0x2E]
  | parent => [0x2E, 0x2E]
  | name bytes => bytes

def rank : Component → Nat
  | root => 0
  | current => 1
  | parent => 2
  | name _ => 3

/-- The root first, then the two dots, then names by their bytes. -/
def lt (a b : Component) : Bool := a.rank < b.rank || (a.rank = b.rank && a.bytes < b.bytes)

end Component

namespace Path

def slash : UInt8 := 0x2F

def ofString (s : String) : Path := ⟨utf8Bytes s⟩

/-- The path as it is shown: bytes that are no text become replacement signs. -/
def text (p : Path) : String := lossyText p.bytes

def isAbsolute (p : Path) : Bool := p.bytes.head? = some slash

/-- The pieces between slashes, empty ones included. -/
def pieces (bytes : List UInt8) : List (List UInt8) := bytes.splitOn slash

/-- A piece that is a step of its own; empty pieces and single dots are not. -/
def pieceComponent? (piece : List UInt8) : Option Component :=
  if piece = [] ∨ piece = [0x2E] then none
  else if piece = [0x2E, 0x2E] then some .parent
  else some (.name piece)

/-- The steps of a path. A single dot counts only at the start of a relative path. -/
def components (p : Path) : List Component :=
  if p.isAbsolute then .root :: (pieces p.bytes).filterMap pieceComponent?
  else
    match pieces p.bytes with
    | first :: rest =>
      if first = [0x2E] then .current :: rest.filterMap pieceComponent?
      else (first :: rest).filterMap pieceComponent?
    | [] => []

/-- Two paths name the same place if their steps are the same. -/
def same (a b : Path) : Bool := a.components = b.components

/-- Step by step; a path comes before the paths below it. -/
def componentsLe : List Component → List Component → Bool
  | [], _ => true
  | _ :: _, [] => false
  | x :: xs, y :: ys => x.lt y || (x = y && componentsLe xs ys)

def le (a b : Path) : Bool := componentsLe a.components b.components

/-- The path `p` taken from the directory `base`. -/
def join (base p : Path) : Path :=
  if p.isAbsolute then p
  else if base.bytes = [] then p
  else if base.bytes.getLast? = some slash then ⟨base.bytes ++ p.bytes⟩
  else ⟨base.bytes ++ slash :: p.bytes⟩

/-- The path with the given steps; a root counts only as the first. -/
def ofComponents : List Component → Path
  | .root :: steps => ⟨slash :: [slash].intercalate (steps.map Component.bytes)⟩
  | steps => ⟨[slash].intercalate (steps.map Component.bytes)⟩

end Path

/-- Values under paths. Two spellings of one path are one key. -/
structure PathTable (α : Type) where
  entries : List (Path × α)
deriving Inhabited

namespace PathTable

variable {α : Type}

def empty : PathTable α := ⟨[]⟩

def get? (t : PathTable α) (p : Path) : Option α :=
  (t.entries.find? fun e => e.1.same p).map (·.2)

/-- Puts a value under a path in the stead of an earlier one. -/
def set (t : PathTable α) (p : Path) (value : α) : PathTable α :=
  ⟨(p, value) :: t.entries.filter fun e => !e.1.same p⟩

theorem same_iff {a b : Path} : a.same b = true ↔ a.components = b.components := by
  simp [Path.same]

theorem get?_set_of_same (t : PathTable α) {p q : Path} (h : p.same q = true) (value : α) :
    (t.set p value).get? q = some value := by simp [set, get?, h]

theorem get?_set_of_not_same (t : PathTable α) {p q : Path} (h : p.same q = false) (value : α) :
    (t.set p value).get? q = t.get? q := by
  simp only [set, get?, List.find?_cons, h]
  congr 1
  rw [List.find?_filter]
  congr 1
  funext e
  by_cases eq : e.1.same q = true
  · have : e.1.same p = false := by
      refine Bool.eq_false_iff.mpr fun other => Bool.eq_false_iff.mp h ?_
      exact same_iff.mpr ((same_iff.mp other).symm.trans (same_iff.mp eq))
    simp [eq, this]
  · simp [eq]

end PathTable

end CodeIntel
