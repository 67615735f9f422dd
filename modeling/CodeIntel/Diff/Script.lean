namespace CodeIntel.Diff

abbrev Line := List Char

/-- Cuts a text behind each line feed and each carriage return; a return and a line feed in a row
end one line together. -/
def diffLines : List Char → List Line
  | [] => []
  | '\r' :: '\n' :: cs => ['\r', '\n'] :: diffLines cs
  | '\r' :: cs => ['\r'] :: diffLines cs
  | '\n' :: cs => ['\n'] :: diffLines cs
  | c :: cs =>
    match cs, diffLines cs with
    | _ :: _, line :: rest => (c :: line) :: rest
    | _, _ => [[c]]

/-- How many lines two lists have in common at their start. -/
def commonPrefix : List Line → List Line → Nat
  | x :: xs, y :: ys => if x = y then commonPrefix xs ys + 1 else 0
  | _, _ => 0

def commonSuffix (xs ys : List Line) : Nat := commonPrefix xs.reverse ys.reverse

/-- How many lines two lists have in common from two places on, at most `fuel`. -/
def sharedFrom (old new : Array String) : Nat → Nat → Nat → Nat
  | 0, _, _ => 0
  | fuel + 1, x, y =>
    match old[x]?, new[y]? with
    | some a, some b => if a = b then sharedFrom old new fuel (x + 1) (y + 1) + 1 else 0
    | _, _ => 0

/-- How far a search has come on each diagonal. The diagonal through the start of both lists stands
at `origin`; on it as many old lines are passed as new ones, on each later one an old line more. -/
structure Frontier where
  origin : Nat
  reached : Array Nat

namespace Frontier

/-- A search that starts just above the first diagonal. -/
def start (bound : Nat) : Frontier := ⟨bound + 1, Array.replicate (2 * bound + 4) 0⟩

@[inline] def get (v : Frontier) (i : Nat) : Nat := v.reached.getD i 0

@[inline] def set (v : Frontier) (i x : Nat) : Frontier :=
  ⟨v.origin, v.reached.setIfInBounds i x⟩

end Frontier

/-- Where the search on the diagonal at `i` starts at distance `d`: a line further down from the
diagonal behind it, or a line further across from the one before it. -/
@[inline] def entry (v : Frontier) (d i : Nat) : Nat :=
  let before := v.get (i - 1)
  let behind := v.get (i + 1)
  if i + d = v.origin then behind
  else if i = v.origin + d then before + 1
  else if before < behind then behind
  else before + 1

/-- How far the search on the diagonal at `i` comes from `start` over lines that both lists
share. -/
@[inline] def reach (old new : Array String) (origin i start : Nat) : Nat :=
  if start + origin < i then start
  else start + sharedFrom old new old.size start (start + origin - i)

/-- Extends a search over diagonals at distance `d`, the last first. The one that `deleted` old
lines and `d - deleted` new ones lead to lies `deleted - (d - deleted)` from the origin. The search
stops on a diagonal less than `near` from the origin of `other`, the search from the far end, if that
has come at least as far, and gives how many lines of both lists lie before the lines shared there
and behind them. -/
def sweep (old new : Array String) (other : Frontier) (d near : Nat) :
    Nat → Frontier → Frontier ⊕ ((Nat × Nat) × (Nat × Nat))
  | 0, v => .inl v
  | count + 1, v =>
    let deleted := d - new.size + count
    let i := v.origin + deleted + deleted - d
    let start := entry v d i
    let stop := reach old new v.origin i start
    let facing := v.origin + v.origin + old.size - new.size - i
    if v.origin < facing + near ∧ facing < v.origin + near ∧ old.size ≤ stop + other.get facing then
      .inr ((start, start + v.origin - i), (old.size - stop, new.size - (stop + v.origin - i)))
    else sweep old new other d near count (v.set i stop)

/-- On so many diagonals at distance `d` no more lines are deleted or inserted than there are. -/
def diagonalCount (old new d : Nat) : Nat := min d old + 1 - (d - new)

/-- Two lists of lines in which a search goes on, from the front and from the back. As strings
they are compared fast. -/
structure Field where
  old : Array String
  new : Array String
  oldBackwards : Array String
  newBackwards : Array String

def Field.of (old new : List Line) : Field :=
  let old := (old.map String.ofList).toArray
  let new := (new.map String.ofList).toArray
  ⟨old, new, old.reverse, new.reverse⟩

/-- Searches from both ends at growing distance `d` until the searches meet; gives where to cut
the two lists. They meet in the search from the front if the lengths differ by an odd number. -/
def searchSnake (f : Field) : Nat → Nat → Frontier → Frontier → Option (Nat × Nat)
  | 0, _, _, _ => none
  | fuel + 1, d, front, back =>
    let odd := (f.old.size + f.new.size) % 2 = 1
    let count := diagonalCount f.old.size f.new.size d
    match sweep f.old f.new back d (if odd then d else 0) count front with
    | .inr (before, _) => some before
    | .inl front =>
      match sweep f.oldBackwards f.newBackwards front d (if odd then 0 else d + 1) count back with
      | .inr (_, behind) => some behind
      | .inl back => searchSnake f fuel (d + 1) front back

/-- Where a shortest edit script passes through the middle of two lists. -/
def middleSnake (old new : List Line) : Option (Nat × Nat) :=
  let bound := (old.length + new.length + 1) / 2 + 1
  searchSnake (.of old new) bound 0 (.start bound) (.start bound)

/-- A step of an edit script with the lines it keeps, deletes or inserts. -/
inductive Step
  | equal (lines : List Line)
  | delete (lines : List Line)
  | insert (lines : List Line)
deriving Repr, DecidableEq, Inhabited

abbrev Script := List Step

namespace Step

/-- The lines of the old text that a step passes over. -/
def old : Step → List Line
  | equal lines | delete lines => lines
  | insert _ => []

/-- The lines of the new text that a step passes over. -/
def new : Step → List Line
  | equal lines | insert lines => lines
  | delete _ => []

end Step

namespace Script

def old (script : Script) : List Line := script.flatMap Step.old

def new (script : Script) : List Line := script.flatMap Step.new

end Script

def equalStep (lines : List Line) : Script := if lines = [] then [] else [.equal lines]

def deleteStep (lines : List Line) : Script := if lines = [] then [] else [.delete lines]

def insertStep (lines : List Line) : Script := if lines = [] then [] else [.insert lines]

/-- An edit script between two lists of lines: what they share at both ends is kept, and the rest
is cut in the middle. Each cut shortens the lists, so their length is fuel enough. -/
def scriptFrom : Nat → List Line → List Line → Script
  | 0, old, new => deleteStep old ++ insertStep new
  | fuel + 1, old, new =>
    let front := commonPrefix old new
    let old' := old.drop front
    let new' := new.drop front
    let back := commonSuffix old' new'
    let oldMiddle := old'.take (old'.length - back)
    let newMiddle := new'.take (new'.length - back)
    let middle :=
      if oldMiddle = [] ∨ newMiddle = [] then deleteStep oldMiddle ++ insertStep newMiddle
      else
        match middleSnake oldMiddle newMiddle with
        | some (x, y) =>
          scriptFrom fuel (oldMiddle.take x) (newMiddle.take y) ++
            scriptFrom fuel (oldMiddle.drop x) (newMiddle.drop y)
        | none => deleteStep oldMiddle ++ insertStep newMiddle
    equalStep (old.take front) ++ middle ++ equalStep (old'.drop (old'.length - back))

/-- A script with one step under consideration: the steps before it, last first, and those
behind it. -/
structure Cursor where
  before : List Step
  here : Step
  behind : List Step

namespace Cursor

def script (c : Cursor) : Script := c.before.reverse ++ c.here :: c.behind

/-- Puts kept lines before a list of steps, into its first step if that keeps lines too. -/
def keepFirst (lines : List Line) : List Step → List Step
  | .equal more :: rest => .equal (lines ++ more) :: rest
  | steps => .equal lines :: steps

/-- Puts kept lines behind a list of steps that stand last first. -/
def keepLast (lines : List Line) : List Step → List Step
  | .equal more :: rest => .equal (more ++ lines) :: rest
  | steps => .equal lines :: steps

/-- One move of the step towards the start, or `none` if it cannot move. An insertion slides over
kept lines that end like it; neighbours of a kind merge, and the two kinds change places. -/
def up? (c : Cursor) : Option Cursor :=
  match c.before, c.here with
  | .equal xs :: before, .insert ys =>
    let n := commonSuffix xs ys
    if n = 0 then none
    else
      let kept := xs.take (xs.length - n)
      let shared := xs.drop (xs.length - n)
      some
        { before := if kept = [] then before else .equal kept :: before
          here := .insert (shared ++ ys.take (ys.length - n))
          behind := keepFirst shared c.behind }
  | .insert xs :: before, .insert ys => some ⟨before, .insert (xs ++ ys), c.behind⟩
  | .delete xs :: before, .delete ys => some ⟨before, .delete (xs ++ ys), c.behind⟩
  | .delete xs :: before, .insert ys => some ⟨before, .insert ys, .delete xs :: c.behind⟩
  | .insert xs :: before, .delete ys => some ⟨before, .delete ys, .insert xs :: c.behind⟩
  | _, _ => none

/-- One move of the step towards the end, or `none` if it cannot move. -/
def down? (c : Cursor) : Option Cursor :=
  match c.here, c.behind with
  | .insert ys, .equal xs :: behind =>
    let n := commonPrefix xs ys
    if n = 0 then none
    else
      let shared := xs.take n
      let kept := xs.drop n
      some
        { before := keepLast shared c.before
          here := .insert (ys.drop n ++ shared)
          behind := if kept = [] then behind else .equal kept :: behind }
  | .insert ys, .insert xs :: behind => some ⟨c.before, .insert (ys ++ xs), behind⟩
  | .delete ys, .delete xs :: behind => some ⟨c.before, .delete (ys ++ xs), behind⟩
  | .insert ys, .delete xs :: behind => some ⟨.delete xs :: c.before, .insert ys, behind⟩
  | .delete ys, .insert xs :: behind => some ⟨.insert xs :: c.before, .delete ys, behind⟩
  | _, _ => none

/-- Moves while there is a move, at most `fuel` times. -/
def settle (move : Cursor → Option Cursor) : Nat → Cursor → Cursor
  | 0, c => c
  | fuel + 1, c =>
    match move c with
    | some next => settle move fuel next
    | none => c

end Cursor

/-- Moves every chosen step as far up and then as far down as it goes. `before` holds the steps
already done, last first; each round takes the step behind them. -/
def compactFrom (chosen : Step → Bool) (moves : Nat) : Nat → List Step → List Step → Script
  | 0, before, steps => before.reverse ++ steps
  | _, before, [] => before.reverse
  | fuel + 1, before, step :: behind =>
    if chosen step then
      let up := Cursor.settle Cursor.up? moves ⟨before, step, behind⟩
      let down := Cursor.settle Cursor.down? moves up
      compactFrom chosen moves fuel (down.here :: down.before) down.behind
    else compactFrom chosen moves fuel (step :: before) behind

def isDeletion : Step → Bool
  | .delete _ => true
  | _ => false

def isInsertion : Step → Bool
  | .insert _ => true
  | _ => false

/-- Gathers changes: first the deletions find their places, then the insertions. -/
def compact (script : Script) : Script :=
  let size := script.old.length + script.new.length + script.length
  let moves := size * size + size
  let deleted := compactFrom isDeletion moves moves [] script
  compactFrom isInsertion moves moves [] deleted

end CodeIntel.Diff
