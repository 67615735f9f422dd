import CodeIntel.Path.Basic

namespace CodeIntel.Path

/-- Takes one more step; the steps so far stand last first. A step to the parent removes the step
before it; where there is none to remove, at the root too, it stays. -/
def pushStep (steps : List Component) : Component → List Component
  | .current => steps
  | .parent =>
    match steps with
    | [] => [.parent]
    | [.root] => [.parent, .root]
    | _ :: rest => rest
  | .root => [.root]
  | .name bytes => .name bytes :: steps

/-- The path with dots resolved by its text alone. -/
def normal (p : Path) : Path := ofComponents (p.components.foldl pushStep []).reverse

/-- Pieces without steps at the start of a list fall away. -/
def trimPieces (ps : List (List UInt8)) : List (List UInt8) :=
  ps.dropWhile fun piece => (pieceComponent? piece).isNone

def trimPiecesRight (ps : List (List UInt8)) : List (List UInt8) := (trimPieces ps.reverse).reverse

def joinPieces (ps : List (List UInt8)) : List UInt8 := [slash].intercalate ps

/-- The path without empty pieces and dots at its end. -/
def trimEnd (p : Path) : Path :=
  match pieces p.bytes with
  | [] => p
  | first :: rest =>
    let rest := trimPiecesRight rest
    if p.isAbsolute ∧ rest = [] then ⟨[slash]⟩ else ⟨joinPieces (first :: rest)⟩

/-- The pieces behind the first `n` steps of a path. -/
def piecesAfter : Nat → List (List UInt8) → List (List UInt8)
  | 0, ps => ps
  | _, [] => []
  | n + 1, piece :: rest =>
    if (pieceComponent? piece).isSome then piecesAfter n rest else piecesAfter (n + 1) rest

/-- The path below `base`, as it is written there. -/
def below? (p base : Path) : Option Path :=
  let steps := base.components
  if ¬ steps.isPrefixOf p.components then none
  else
    match steps with
    | [] => some p.trimEnd
    | first :: rest =>
      let ps := pieces p.bytes
      let ps := if first = .root ∨ first = .current then ps.drop 1 else ps
      let taken := if first = .root ∨ first = .current then rest.length else steps.length
      some ⟨joinPieces (trimPieces (trimPiecesRight (piecesAfter taken ps)))⟩

/-- The path as it is shown: what is below `root`, or all of it. -/
def shown (p root : Path) : String :=
  match p.below? root with
  | some rest => rest.text
  | none => p.text

/-- The last name of a path; a path that ends in a root or in dots has none. -/
def fileName? (p : Path) : Option (List UInt8) :=
  match p.components.getLast? with
  | some (.name bytes) => some bytes
  | _ => none

/-- The steps before the last; a root has none. -/
def parent? (p : Path) : Option Path :=
  match p.components.getLast? with
  | none => none
  | some .root => none
  | some _ => some (ofComponents p.components.dropLast)

/-- The part of the last name behind its last dot, if the dot does not start the name. -/
def extension? (p : Path) : Option (List UInt8) :=
  match p.fileName? with
  | none => none
  | some name =>
    let after := name.reverse.takeWhile (· ≠ 0x2E)
    if after.length + 1 < name.length then some after.reverse else none

end CodeIntel.Path
