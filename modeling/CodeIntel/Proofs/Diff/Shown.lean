import CodeIntel.Diff.Hunk
import CodeIntel.Excerpt
import CodeIntel.Proofs.Diff.Script
import CodeIntel.Proofs.Edit.Lines

namespace CodeIntel.Diff

namespace Block

/-- The lines of the old text in a block. -/
def old : Block → List Line
  | same lines => lines
  | change removed _ => removed

/-- The lines of the new text in a block. -/
def new : Block → List Line
  | same lines => lines
  | change _ added => added

end Block

theorem sides_addStep (step : Step) (all : List Block) :
    (addStep step all).flatMap Block.old = step.old ++ all.flatMap Block.old ∧
      (addStep step all).flatMap Block.new = step.new ++ all.flatMap Block.new := by
  fun_cases addStep step all <;> simp [Block.old, Block.new, Step.old, Step.new]

theorem sides_blocks (script : Script) :
    (blocks script).flatMap Block.old = script.old ∧
      (blocks script).flatMap Block.new = script.new := by
  induction script with
  | nil => exact ⟨rfl, rfl⟩
  | cons step rest ih =>
    have added := sides_addStep step (blocks rest)
    rw [ih.1, ih.2] at added
    exact added

theorem sides_changes (old new : List Char) :
    (changes old new).flatMap Block.old = diffLines old ∧
      (changes old new).flatMap Block.new = diffLines new := by
  have leads := leads_compact
    (leads_scriptFrom ((diffLines old).length + (diffLines new).length + 1) (diffLines old)
      (diffLines new))
  unfold changes
  rw [(sides_blocks _).1, (sides_blocks _).2]
  exact leads

/-- Lines of a change with their marks. -/
abbrev Group := List (Char × Line)

namespace Group

/-- The lines marked as kept or removed. -/
def old (group : Group) : List Line :=
  (group.filter fun line => line.1 = ' ' || line.1 = '-').map Prod.snd

/-- The lines marked as kept or added. -/
def new (group : Group) : List Line :=
  (group.filter fun line => line.1 = ' ' || line.1 = '+').map Prod.snd

def shown (group : Group) : List (List Char) := group.map fun line => markedLine line.1 line.2

def text (group : Group) : List Char := group.shown.flatten

end Group

/-- Groups tell how a list of lines becomes another one: the lines before, between and behind them
stay, and the old lines of each are replaced by its new ones. -/
inductive Rewrites : List Group → List Line → List Line → Prop
  | rest (lines : List Line) : Rewrites [] lines lines
  | group {groups : List Group} {old new : List Line} (gap : List Line) (group : Group)
      (later : Rewrites groups old new) :
      Rewrites (group :: groups) (gap ++ group.old ++ old) (gap ++ group.new ++ new)

namespace Rewrites

variable {groups : List Group} {old new : List Line}

theorem after (h : Rewrites groups old new) (gap : List Line) :
    Rewrites groups (gap ++ old) (gap ++ new) := by
  cases h with
  | rest => exact .rest _
  | group gap' group later =>
    have longer := Rewrites.group (gap ++ gap') group later
    simpa using longer

theorem before (h : Rewrites groups old new) (gap : List Line) :
    Rewrites groups (old ++ gap) (new ++ gap) := by
  induction h with
  | rest => exact .rest _
  | group gap' group _ ih =>
    have longer := Rewrites.group gap' group ih
    simpa using longer

theorem mem_lines (h : Rewrites groups old new) {group : Group} (mem : group ∈ groups)
    {line : Char × Line} (shown : line ∈ group)
    (marked : line.1 = ' ' ∨ line.1 = '-' ∨ line.1 = '+') : line.2 ∈ old ∨ line.2 ∈ new := by
  induction h with
  | rest => cases mem
  | @group groups old new gap first later ih =>
    rcases List.mem_cons.mp mem with rfl | mem
    · by_cases added : line.1 = '+'
      · have here : line.2 ∈ Group.new group :=
          List.mem_map_of_mem (List.mem_filter.mpr ⟨shown, by simp [added]⟩)
        exact .inr (List.mem_append_left _ (List.mem_append_right _ here))
      · have here : line.2 ∈ Group.old group :=
          List.mem_map_of_mem (List.mem_filter.mpr ⟨shown, by simpa [added] using marked⟩)
        exact .inl (List.mem_append_left _ (List.mem_append_right _ here))
    · exact (ih mem).imp (List.mem_append_right _) (List.mem_append_right _)

end Rewrites

/-- A block's lines with their marks, the removed lines before the added ones. -/
def Block.marked : Block → Group
  | same lines => lines.map fun line => (' ', line)
  | change removed added =>
    (removed.map fun line => ('-', line)) ++ added.map fun line => ('+', line)

/-- The lines of blocks with their marks. -/
def markedLines (all : List Block) : Group := all.flatMap Block.marked

theorem Block.text_eq (b : Block) : b.text = Group.text b.marked := by
  cases b <;> simp [text, marked, Group.text, Group.shown, List.flatMap_def, Function.comp_def]

theorem text_markedLines (all : List Block) :
    (markedLines all).text = all.flatMap Block.text := by
  induction all with
  | nil => rfl
  | cons b rest ih =>
    rw [List.flatMap_cons, ← ih, Block.text_eq]
    simp [markedLines, Group.text, Group.shown]

theorem sides_markedLines (all : List Block) :
    (markedLines all).old = all.flatMap Block.old ∧
      (markedLines all).new = all.flatMap Block.new := by
  induction all with
  | nil => exact ⟨rfl, rfl⟩
  | cons b rest ih =>
    rw [List.flatMap_cons, List.flatMap_cons, ← ih.1, ← ih.2]
    cases b <;> simp [markedLines, Group.old, Group.new, Block.marked, Block.old, Block.new,
      List.filter_map, Function.comp_def]

theorem mark_of_mem {all : List Block} {line : Char × Line} (mem : line ∈ markedLines all) :
    line.1 = ' ' ∨ line.1 = '-' ∨ line.1 = '+' := by
  obtain ⟨b, _, mem⟩ := List.mem_flatMap.mp mem
  cases b with
  | same lines =>
    obtain ⟨_, _, rfl⟩ := List.mem_map.mp mem
    exact .inl rfl
  | change removed added =>
    rcases List.mem_append.mp mem with mem | mem
    · obtain ⟨_, _, rfl⟩ := List.mem_map.mp mem
      exact .inr (.inl rfl)
    · obtain ⟨_, _, rfl⟩ := List.mem_map.mp mem
      exact .inr (.inr rfl)

theorem rewrites_singleton (all : List Block) :
    Rewrites [markedLines all] (all.flatMap Block.old) (all.flatMap Block.new) := by
  have one := Rewrites.group [] (markedLines all) (.rest [])
  simpa [sides_markedLines] using one

theorem rewrites_closeGroup (group : List Block) :
    Rewrites ((closeGroup group).map markedLines) (group.flatMap Block.old)
      (group.flatMap Block.new) := by
  unfold closeGroup
  split
  next => exact .rest []
  next lines =>
    have kept := Rewrites.rest lines
    simpa [Block.old, Block.new] using kept
  next => exact rewrites_singleton group

theorem take_middle_drop {lines : List Line} {n : Nat} (long : 2 * n < lines.length)
    (more : List Line) :
    lines.take n ++ ((lines.take (lines.length - n)).drop n ++
      (lines.drop (lines.length - n) ++ more)) = lines ++ more := by
  have front : lines.take n = (lines.take (lines.length - n)).take n := by
    rw [List.take_take, Nat.min_eq_left (by omega)]
  rw [front, ← List.append_assoc, List.take_append_drop, ← List.append_assoc,
    List.take_append_drop]

/-- Of a long stretch of kept lines the middle goes unshown. -/
theorem rewrites_groupsFrom (group rest : List Block) :
    Rewrites ((groupsFrom group rest).map markedLines) ((group ++ rest).flatMap Block.old)
      ((group ++ rest).flatMap Block.new) := by
  induction rest generalizing group with
  | nil => simpa [groupsFrom] using rewrites_closeGroup group
  | cons b rest ih =>
    have longer := ih (group ++ [b])
    rw [List.append_assoc, List.singleton_append] at longer
    cases b with
    | change removed added => exact longer
    | same lines =>
      unfold groupsFrom
      split
      next long =>
        have behind := (ih [.same (lines.drop (lines.length - radius))]).after
          ((lines.take (lines.length - radius)).drop radius)
        have parted := Rewrites.group [] (markedLines (group ++ [.same (lines.take radius)])) behind
        simp only [sides_markedLines, List.flatMap_append, List.flatMap_cons, List.flatMap_nil,
          Block.old, Block.new, List.append_nil, List.nil_append, List.append_assoc,
          take_middle_drop long] at parted ⊢
        exact parted
      next => exact longer

theorem rewrites_trimFirst {groups : List Group} {all : List Block}
    (h : Rewrites groups ((trimFirst all).flatMap Block.old) ((trimFirst all).flatMap Block.new)) :
    Rewrites groups (all.flatMap Block.old) (all.flatMap Block.new) := by
  unfold trimFirst at h
  split at h
  next lines rest =>
    have whole := h.after (lines.take (lines.length - radius))
    simpa [Block.old, Block.new, ← List.append_assoc] using whole
  next => exact h

/-- What is left out of the last block is a common end. -/
theorem exists_trimLast (all : List Block) : ∃ gap,
    all.flatMap Block.old = (trimLast all).flatMap Block.old ++ gap ∧
      all.flatMap Block.new = (trimLast all).flatMap Block.new ++ gap := by
  fun_induction trimLast all with
  | case1 => exact ⟨[], rfl, rfl⟩
  | case2 lines => exact ⟨lines.drop radius, by simp [Block.old], by simp [Block.new]⟩
  | case3 b rest _ ih =>
    obtain ⟨gap, old, new⟩ := ih
    exact ⟨gap, by simp [old], by simp [new]⟩

theorem rewrites_groups (all : List Block) :
    Rewrites ((groups all).map markedLines) (all.flatMap Block.old) (all.flatMap Block.new) := by
  apply rewrites_trimFirst
  obtain ⟨gap, old, new⟩ := exists_trimLast (trimFirst all)
  rw [old, new]
  exact (rewrites_groupsFrom [] (trimLast (trimFirst all))).before gap

theorem feed_ends_line {text : List Char} {line : Line} (mem : line ∈ diffLines text) :
    ∃ front last, '\n' ∉ front ∧ line = front ++ [last] := by
  fun_induction diffLines text generalizing line with
  | case1 => cases mem
  | case2 cs ih =>
    rcases List.mem_cons.mp mem with rfl | mem
    · exact ⟨['\r'], '\n', by decide, rfl⟩
    · exact ih mem
  | case3 cs _ ih =>
    rcases List.mem_cons.mp mem with rfl | mem
    · exact ⟨[], '\r', List.not_mem_nil, rfl⟩
    · exact ih mem
  | case4 cs ih =>
    rcases List.mem_cons.mp mem with rfl | mem
    · exact ⟨[], '\n', List.not_mem_nil, rfl⟩
    · exact ih mem
  | case5 c _ other d cs first rest _ lines ih =>
    simp only [lines] at mem ih
    rcases List.mem_cons.mp mem with rfl | mem
    · obtain ⟨front, last, plain, rfl⟩ := ih List.mem_cons_self
      exact ⟨c :: front, last, List.not_mem_cons_of_ne_of_not_mem (other ·.symm) plain, rfl⟩
    · exact ih (List.mem_cons_of_mem _ mem)
  | case6 c cs _ _ _ alone _ =>
    split at mem
    next lines => exact absurd lines (alone _ _ _ _ rfl)
    next =>
      rw [List.mem_singleton.mp mem]
      exact ⟨[], c, List.not_mem_nil, rfl⟩

/-- Each line shown is one line of the output. -/
theorem feed_ends_markedLine {text : List Char} {line : Line} (mem : line ∈ diffLines text)
    {mark : Char} (other : mark ≠ '\n') :
    ∃ front, '\n' ∉ front ∧ markedLine mark line = front ++ ['\n'] := by
  obtain ⟨front, last, plain, rfl⟩ := feed_ends_line mem
  unfold markedLine
  rw [List.getLast?_concat]
  have plain' : '\n' ∉ mark :: front := List.not_mem_cons_of_ne_of_not_mem other.symm plain
  by_cases feed : last = '\n'
  · exact ⟨mark :: front, plain', by simp [feed]⟩
  · refine ⟨mark :: front ++ [last], ?_, by simp [feed]⟩
    simpa [eq_comm, feed] using plain'

theorem flatten_intercalate (gap : List Char) (parts : List (List (List Char))) :
    ([gap].intercalate parts).flatten = gap.intercalate (parts.map List.flatten) := by
  induction parts with
  | nil => rfl
  | cons part rest ih =>
    cases rest with
    | nil => simp
    | cons next rest =>
      rw [List.map_cons, List.map_cons] at *
      rw [List.intercalate_cons_cons, List.intercalate_cons_cons, ← ih]
      simp

theorem mem_intercalate {gap line : List Char} {parts : List (List (List Char))}
    (mem : line ∈ [gap].intercalate parts) : line = gap ∨ ∃ part ∈ parts, line ∈ part := by
  induction parts with
  | nil => cases mem
  | cons part rest ih =>
    cases rest with
    | nil => exact .inr ⟨part, List.mem_cons_self, by simpa using mem⟩
    | cons next rest =>
      rw [List.intercalate_cons_cons] at mem
      rcases List.mem_append.mp mem with mem | mem
      · rcases List.mem_append.mp mem with mem | mem
        · exact .inr ⟨part, List.mem_cons_self, mem⟩
        · exact .inl (List.mem_singleton.mp mem)
      · refine (ih mem).imp_right fun ⟨part', mem', inside⟩ => ?_
        exact ⟨part', List.mem_cons_of_mem _ mem', inside⟩

theorem intercalate_text (shown : List Group) :
    gapMark.intercalate (shown.map Group.text) =
      ([gapMark].intercalate (shown.map Group.shown)).flatten := by
  rw [flatten_intercalate, List.map_map]
  rfl

/-- The output can be read line by line. -/
theorem linesWithEnds_text {shown : List Group} {old new : List Char}
    (rewrites : Rewrites shown (diffLines old) (diffLines new))
    (marks : ∀ group ∈ shown, ∀ line ∈ group, line.1 = ' ' ∨ line.1 = '-' ∨ line.1 = '+') :
    linesWithEnds (gapMark.intercalate (shown.map Group.text)) =
      [gapMark].intercalate (shown.map Group.shown) := by
  rw [intercalate_text]
  apply linesWithEnds_of_feeds
  intro line mem
  rcases mem_intercalate mem with rfl | ⟨_, there, inside⟩
  · exact ⟨"...".toList, by decide, rfl⟩
  · obtain ⟨group, isShown, rfl⟩ := List.mem_map.mp there
    obtain ⟨marked, inGroup, rfl⟩ := List.mem_map.mp inside
    have mark := marks group isShown marked inGroup
    have other : marked.1 ≠ '\n' := by
      rcases mark with eq | eq | eq <;> rw [eq] <;> decide
    rcases rewrites.mem_lines isShown inGroup mark with here | here
    · exact feed_ends_markedLine here other
    · exact feed_ends_markedLine here other

/-- The change shown is the change made. Its groups, with a line of dots between them, are made of
lines of the two texts, each behind its mark and on a line of its own. The lines of the old text
between the groups are those of the new one, and each group shows a stretch of the one and what
stands in its place in the other. -/
theorem shown_change_is_made (old new : List Char) (name : String) :
    ∃ shown : List Group,
      render old new name = s!"--- a/{name}\n+++ b/{name}\n".toList ++
        gapMark.intercalate (shown.map Group.text) ∧
      linesWithEnds (gapMark.intercalate (shown.map Group.text)) =
        [gapMark].intercalate (shown.map Group.shown) ∧
      (∀ group ∈ shown, ∀ line ∈ group, line.1 = ' ' ∨ line.1 = '-' ∨ line.1 = '+') ∧
      Rewrites shown (diffLines old) (diffLines new) ∧
      (diffLines old).flatten = old ∧ (diffLines new).flatten = new := by
  have rewrites := rewrites_groups (changes old new)
  rw [(sides_changes old new).1, (sides_changes old new).2] at rewrites
  have marks : ∀ group ∈ (groups (changes old new)).map markedLines, ∀ line ∈ group,
      line.1 = ' ' ∨ line.1 = '-' ∨ line.1 = '+' := by
    intro group mem line inside
    obtain ⟨all, _, rfl⟩ := List.mem_map.mp mem
    exact mark_of_mem inside
  refine ⟨_, ?_, linesWithEnds_text rewrites marks, marks, rewrites, diffLines_flatten old,
    diffLines_flatten new⟩
  rw [List.map_map]
  simp only [render, gapMark, Function.comp_def, text_markedLines]

end CodeIntel.Diff
