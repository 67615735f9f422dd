import CodeIntel.Diff.Script

namespace CodeIntel.Diff

theorem diffLines_flatten (text : List Char) : (diffLines text).flatten = text := by
  fun_induction diffLines text with
  | case1 => rfl
  | case2 cs ih => simp [ih]
  | case3 cs _ ih => simp [ih]
  | case4 cs ih => simp [ih]
  | case5 c _ _ d cs line rest _ lines ih => simpa [lines] using ih
  | case6 c cs _ _ _ alone ih =>
    cases cs with
    | nil => rfl
    | cons d cs =>
      cases lines : diffLines (d :: cs) with
      | nil => simp [lines] at ih
      | cons line rest => exact absurd lines (alone d cs line rest rfl)

section Shared

variable (xs ys : List Line)

theorem take_commonPrefix : xs.take (commonPrefix xs ys) = ys.take (commonPrefix xs ys) := by
  induction xs generalizing ys with
  | nil => simp [commonPrefix]
  | cons x xs ih =>
    cases ys with
    | nil => simp [commonPrefix]
    | cons y ys =>
      unfold commonPrefix
      split
      next same => rw [List.take_succ_cons, List.take_succ_cons, same, ih]
      next => rfl

theorem drop_commonSuffix :
    xs.drop (xs.length - commonSuffix xs ys) = ys.drop (ys.length - commonSuffix xs ys) := by
  have shared := take_commonPrefix xs.reverse ys.reverse
  rw [List.take_reverse, List.take_reverse] at shared
  exact List.reverse_inj.mp shared

end Shared

/-- A script passes over the lines of two texts, in order and all of them. -/
def Script.Leads (script : Script) (old new : List Line) : Prop :=
  script.old = old ∧ script.new = new

namespace Script

variable {script more : Script} {old new old' new' : List Line}

theorem Leads.append (h : script.Leads old new) (h' : more.Leads old' new') :
    Leads (script ++ more) (old ++ old') (new ++ new') := by
  obtain ⟨rfl, rfl⟩ := h
  obtain ⟨rfl, rfl⟩ := h'
  exact ⟨List.flatMap_append, List.flatMap_append⟩

theorem leads_equal (lines : List Line) : Leads (equalStep lines) lines lines := by
  by_cases empty : lines = [] <;> simp [equalStep, empty, Leads, Script.old, Script.new, Step.old,
    Step.new]

theorem leads_replace (old new : List Line) : Leads (deleteStep old ++ insertStep new) old new := by
  have deleted : Leads (deleteStep old) old [] := by
    by_cases empty : old = [] <;> simp [deleteStep, empty, Leads, Script.old, Script.new, Step.old,
      Step.new]
  have inserted : Leads (insertStep new) [] new := by
    by_cases empty : new = [] <;> simp [insertStep, empty, Leads, Script.old, Script.new, Step.old,
      Step.new]
  simpa using deleted.append inserted

end Script

/-- Wherever the search for a middle cuts two lists, the script passes over both. -/
theorem leads_scriptFrom (fuel : Nat) (old new : List Line) :
    (scriptFrom fuel old new).Leads old new := by
  induction fuel generalizing old new with
  | zero => exact Script.leads_replace old new
  | succ fuel ih =>
    unfold scriptFrom
    extract_lets front old' new' back oldMiddle newMiddle middle
    have inner : Script.Leads middle oldMiddle newMiddle := by
      unfold middle
      split
      next => exact Script.leads_replace oldMiddle newMiddle
      next =>
        split
        next x y _ =>
          have halves := (ih (oldMiddle.take x) (newMiddle.take y)).append
            (ih (oldMiddle.drop x) (newMiddle.drop y))
          rwa [List.take_append_drop, List.take_append_drop] at halves
        next => exact Script.leads_replace oldMiddle newMiddle
    have whole := ((Script.leads_equal (old.take front)).append inner).append
      (Script.leads_equal (old'.drop (old'.length - back)))
    have oldWhole : old.take front ++ oldMiddle ++ old'.drop (old'.length - back) = old := by
      rw [List.append_assoc, List.take_append_drop, List.take_append_drop]
    have newWhole : old.take front ++ newMiddle ++ old'.drop (old'.length - back) = new := by
      rw [take_commonPrefix old new, drop_commonSuffix old' new', List.append_assoc,
        List.take_append_drop, List.take_append_drop]
    rwa [oldWhole, newWhole] at whole

namespace Cursor

section Sides

variable {side : Step → List Line} (keeps : ∀ lines, side (.equal lines) = lines)

include keeps

theorem flatMap_keepFirst (lines : List Line) (steps : List Step) :
    (keepFirst lines steps).flatMap side = lines ++ steps.flatMap side := by
  unfold keepFirst
  split <;> simp [keeps]

theorem flatMap_keepLast (lines : List Line) (steps : List Step) :
    (keepLast lines steps).reverse.flatMap side = steps.reverse.flatMap side ++ lines := by
  unfold keepLast
  split <;> simp [keeps]

theorem flatMap_kept (lines : List Line) (steps : List Step) :
    (if lines = [] then steps else .equal lines :: steps).flatMap side =
      lines ++ steps.flatMap side := by
  split
  next empty => rw [empty, List.nil_append]
  next => simp [keeps]

theorem flatMap_reverse_kept (lines : List Line) (steps : List Step) :
    (if lines = [] then steps else .equal lines :: steps).reverse.flatMap side =
      steps.reverse.flatMap side ++ lines := by
  split
  next empty => rw [empty, List.append_nil]
  next => simp [keeps]

end Sides

variable {c d : Cursor} {old new : List Line}

theorem leads_iff : c.script.Leads old new ↔
    c.before.reverse.flatMap Step.old ++ (c.here.old ++ c.behind.flatMap Step.old) = old ∧
      c.before.reverse.flatMap Step.new ++ (c.here.new ++ c.behind.flatMap Step.new) = new := by
  simp [Script.Leads, Script.old, Script.new, script]

/-- An insertion that slides up takes from the lines before it those that it ends with itself. -/
theorem leads_of_up? (moved : c.up? = some d) (leads : c.script.Leads old new) :
    d.script.Leads old new := by
  rw [leads_iff] at *
  obtain ⟨rfl, rfl⟩ := leads
  revert moved
  fun_cases up? c with
  | case1 | case7 => nofun
  | case2 xs before ys here above n _ kept shared =>
    rintro ⟨⟩
    have whole : kept ++ shared = xs := List.take_append_drop _ _
    have turned : ys.take (ys.length - n) ++ shared = ys := by
      rw [show shared = _ from drop_commonSuffix xs ys, List.take_append_drop]
    rw [here, above, flatMap_reverse_kept fun _ => rfl, flatMap_reverse_kept fun _ => rfl,
      flatMap_keepFirst fun _ => rfl, flatMap_keepFirst fun _ => rfl]
    simp only [Step.old, Step.new, ← whole, List.reverse_cons, List.flatMap_append,
      List.flatMap_cons, List.flatMap_nil, List.append_nil, List.nil_append, List.append_assoc,
      true_and]
    rw [← List.append_assoc _ shared (c.behind.flatMap Step.new), turned]
  | case3 xs before ys here above | case4 xs before ys here above | case5 xs before ys here above
  | case6 xs before ys here above =>
    rintro ⟨⟩
    simp [here, above, Step.old, Step.new]

theorem leads_of_down? (moved : c.down? = some d) (leads : c.script.Leads old new) :
    d.script.Leads old new := by
  rw [leads_iff] at *
  obtain ⟨rfl, rfl⟩ := leads
  revert moved
  fun_cases down? c with
  | case1 | case7 => nofun
  | case2 ys xs behind below here n _ shared kept =>
    rintro ⟨⟩
    have whole : shared ++ kept = xs := List.take_append_drop _ _
    have turned : shared ++ ys.drop n = ys := by
      rw [show shared = _ from take_commonPrefix xs ys, List.take_append_drop]
    rw [here, below, flatMap_kept fun _ => rfl, flatMap_kept fun _ => rfl,
      flatMap_keepLast fun _ => rfl, flatMap_keepLast fun _ => rfl]
    simp only [Step.old, Step.new, ← whole, List.flatMap_cons, List.nil_append, List.append_assoc,
      true_and]
    rw [← List.append_assoc shared (ys.drop n), turned]
  | case3 ys xs behind below here | case4 ys xs behind below here | case5 ys xs behind below here
  | case6 ys xs behind below here =>
    rintro ⟨⟩
    simp [here, below, Step.old, Step.new]

theorem leads_settle {move : Cursor → Option Cursor}
    (keeps : ∀ {c d : Cursor}, move c = some d → c.script.Leads old new → d.script.Leads old new)
    (moves : Nat) (leads : c.script.Leads old new) :
    (settle move moves c).script.Leads old new := by
  induction moves generalizing c with
  | zero => exact leads
  | succ moves ih =>
    unfold settle
    split
    next moved => exact ih (keeps moved leads)
    next => exact leads

end Cursor

variable {old new : List Line}

theorem leads_compactFrom {chosen : Step → Bool} {moves fuel : Nat} {before steps : List Step}
    (leads : Script.Leads (before.reverse ++ steps) old new) :
    (compactFrom chosen moves fuel before steps).Leads old new := by
  induction fuel generalizing before steps with
  | zero => exact leads
  | succ fuel ih =>
    cases steps with
    | nil => simpa [compactFrom] using leads
    | cons step behind =>
      unfold compactFrom
      split
      next =>
        have up := Cursor.leads_settle Cursor.leads_of_up? moves (c := ⟨before, step, behind⟩) leads
        have down := Cursor.leads_settle Cursor.leads_of_down? moves up
        exact ih (by simpa [Cursor.script] using down)
      next => exact ih (by simpa using leads)

theorem leads_compact {script : Script} (leads : script.Leads old new) :
    (compact script).Leads old new :=
  leads_compactFrom (leads_compactFrom leads)

end CodeIntel.Diff
