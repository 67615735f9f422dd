import CodeIntel.Diff.Script

namespace CodeIntel.Diff

/-- A stretch of two texts: lines that both have, or old lines with the new ones in their
place. -/
inductive Block
  | same (lines : List Line)
  | change (removed added : List Line)
deriving Repr, DecidableEq, Inhabited

/-- Gathers the deletions and insertions between kept lines into one change, and neighbouring
kept lines into one stretch. -/
def addStep (step : Step) : List Block → List Block
  | .same more :: rest =>
    match step with
    | .equal lines => .same (lines ++ more) :: rest
    | .delete lines => .change lines [] :: .same more :: rest
    | .insert lines => .change [] lines :: .same more :: rest
  | .change removed added :: rest =>
    match step with
    | .equal lines => .same lines :: .change removed added :: rest
    | .delete lines => .change (lines ++ removed) added :: rest
    | .insert lines => .change removed (lines ++ added) :: rest
  | [] =>
    match step with
    | .equal lines => [.same lines]
    | .delete lines => [.change lines []]
    | .insert lines => [.change [] lines]

def blocks : Script → List Block
  | [] => []
  | step :: rest => addStep step (blocks rest)

/-- The kept lines shown before and behind a change. -/
def radius : Nat := 3

/-- Keeps of the first block only the lines next to the change behind it. -/
def trimFirst : List Block → List Block
  | .same lines :: rest => .same (lines.drop (lines.length - radius)) :: rest
  | blocks => blocks

/-- Keeps of the last block only the lines next to the change before it. -/
def trimLast : List Block → List Block
  | [] => []
  | [.same lines] => [.same (lines.take radius)]
  | block :: rest => block :: trimLast rest

/-- A group counts only if it holds a change. -/
def closeGroup : List Block → List (List Block)
  | [] => []
  | [.same _] => []
  | group => [group]

/-- Parts blocks into groups at long stretches of kept lines; `group` holds the current one. -/
def groupsFrom (group : List Block) : List Block → List (List Block)
  | [] => closeGroup group
  | .same lines :: rest =>
    if 2 * radius < lines.length then
      (group ++ [.same (lines.take radius)]) ::
        groupsFrom [.same (lines.drop (lines.length - radius))] rest
    else groupsFrom (group ++ [.same lines]) rest
  | block :: rest => groupsFrom (group ++ [block]) rest

/-- The changes with the lines around them. -/
def groups (all : List Block) : List (List Block) := groupsFrom [] (trimLast (trimFirst all))

/-- A line behind its mark; a missing terminator is added. -/
def markedLine (mark : Char) (line : Line) : List Char :=
  mark :: line ++ (if line.getLast? = some '\n' then [] else ['\n'])

def Block.text : Block → List Char
  | same lines => lines.flatMap (markedLine ' ')
  | change removed added => removed.flatMap (markedLine '-') ++ added.flatMap (markedLine '+')

def changes (old new : List Char) : List Block :=
  let oldLines := diffLines old
  let newLines := diffLines new
  blocks (compact (scriptFrom (oldLines.length + newLines.length + 1) oldLines newLines))

/-- The changes from one text to another, under the name of the file. -/
def render (old new : List Char) (name : String) : List Char :=
  s!"--- a/{name}\n+++ b/{name}\n".toList ++
    "...\n".toList.intercalate ((groups (changes old new)).map fun group => group.flatMap Block.text)

end CodeIntel.Diff
