import CodeIntel.Proofs.Plan
import CodeIntel.Settings.Load
import Mathlib.Data.List.TakeWhile

namespace CodeIntel.Settings

/-- A reference to a variable as it is written. -/
def reference (name : List Char) : List Char := opening ++ name ++ [closing]

/-- What a reference can hold. -/
structure IsName (name : List Char) : Prop where
  nonempty : name ≠ []
  unclosed : closing ∉ name

/-- Whether a reference that stands in a text is its first. -/
structure IsFirst (text before name behind : List Char) : Prop where
  isName : IsName name
  split : text = before ++ reference name ++ behind
  first : ∀ before' name' behind', IsName name' → text = before' ++ reference name' ++ behind' →
    before.length ≤ before'.length

/-- A reference in a text and what stands between it and the one before. -/
structure Part where
  gap : List Char
  name : List Char

/-- A text that is cut at its references, from the first on, each of which is looked for behind the
one before. -/
inductive Cut : List Char → List Part → List Char → Prop
  | rest {text : List Char}
      (none : ∀ before name behind, IsName name → text ≠ before ++ reference name ++ behind) :
      Cut text [] text
  | part {text behind tail : List Char} {part : Part} {parts : List Part}
      (first : IsFirst text part.gap part.name behind) (later : Cut behind parts tail) :
      Cut text (part :: parts) tail

variable {text name before behind cs tail : List Char} {c : Char} {parts : List Part}

theorem reference_append (name behind : List Char) :
    reference name ++ behind = opening ++ (name ++ closing :: behind) := by
  simp [reference]

theorem reference?_reference (isName : IsName name) (behind : List Char) :
    reference? (reference name ++ behind) = some (name, behind) := by
  have inside : ∀ c ∈ name, decide (c ≠ closing) = true := by
    intro c mem
    have ne : c ≠ closing := fun eq => isName.unclosed (eq ▸ mem)
    simpa using ne
  have starts : opening.isPrefixOf (opening ++ (name ++ closing :: behind)) = true :=
    List.isPrefixOf_iff_prefix.mpr ⟨_, rfl⟩
  have front : (name ++ closing :: behind).takeWhile (· ≠ closing) = name := by
    rw [List.takeWhile_append_of_pos inside, List.takeWhile_cons_of_neg (by simp), List.append_nil]
  have back : (name ++ closing :: behind).dropWhile (· ≠ closing) = closing :: behind := by
    rw [List.dropWhile_append_of_pos inside, List.dropWhile_cons_of_neg (by simp)]
  rw [reference_append, reference?, if_pos starts]
  simp only [List.drop_left, front, back]
  obtain ⟨first, rest, rfl⟩ := List.exists_cons_of_ne_nil isName.nonempty
  rfl

theorem reference?_eq_some_iff :
    reference? cs = some (name, behind) ↔ IsName name ∧ cs = reference name ++ behind := by
  constructor
  · intro h
    unfold reference? at h
    split at h
    next starts =>
      obtain ⟨rest, rfl⟩ := List.isPrefixOf_iff_prefix.mp starts
      simp only [List.drop_left] at h
      have whole := List.takeWhile_append_dropWhile (p := (· ≠ closing)) (l := rest)
      split at h
      · cases h
      · cases h
      next c _ back some =>
        cases h
        have closes : c = closing := by
          have stops := List.head?_dropWhile_not (· ≠ closing) rest
          rw [back] at stops
          simpa using stops
        subst closes
        have unclosed : closing ∉ rest.takeWhile (· ≠ closing) := by
          intro mem
          have passed := List.mem_takeWhile_imp mem
          simp at passed
        refine ⟨⟨some, unclosed⟩, ?_⟩
        rw [reference_append, ← back, whole]
    next => cases h
  · rintro ⟨isName, rfl⟩
    exact reference?_reference isName behind

theorem reference?_eq_none_iff :
    reference? cs = none ↔ ∀ name behind, IsName name → cs ≠ reference name ++ behind := by
  rw [Option.eq_none_iff_forall_ne_some]
  constructor
  · intro none name behind isName eq
    exact none (name, behind) (reference?_eq_some_iff.mpr ⟨isName, eq⟩)
  · rintro none ⟨name, behind⟩ found
    obtain ⟨isName, eq⟩ := reference?_eq_some_iff.mp found
    exact none name behind isName eq

theorem isFirst_at_start (isName : IsName name) (split : cs = reference name ++ behind) :
    IsFirst cs [] name behind :=
  ⟨isName, split, fun _ _ _ _ _ => Nat.zero_le _⟩

theorem IsFirst.cons (h : IsFirst cs before name behind) (none : reference? (c :: cs) = none) :
    IsFirst (c :: cs) (c :: before) name behind := by
  refine ⟨h.isName, congrArg (c :: ·) h.split, ?_⟩
  intro before' name' behind' isName' split'
  cases before' with
  | nil => exact absurd split' (reference?_eq_none_iff.mp none name' behind' isName')
  | cons d before' =>
    obtain ⟨_, split'⟩ := List.cons.inj split'
    exact Nat.succ_le_succ (h.first before' name' behind' isName' split')

/-- The search finds the first reference, and nothing only where there is none. -/
theorem findReference?_spec (passed cs : List Char) :
    (findReference? passed cs = none ∧
      ∀ before name behind, IsName name → cs ≠ before ++ reference name ++ behind) ∨
    ∃ before name behind, IsFirst cs before name behind ∧
      findReference? passed cs = some (before.reverse ++ passed, name, behind) := by
  induction cs generalizing passed with
  | nil => exact .inl ⟨rfl, fun before name behind _ eq => by simp [reference] at eq⟩
  | cons c cs ih =>
    unfold findReference?
    cases here : reference? (c :: cs) with
    | some found =>
      obtain ⟨isName, split⟩ := reference?_eq_some_iff.mp here
      exact .inr ⟨[], _, _, isFirst_at_start isName split, rfl⟩
    | none =>
      rcases ih (c :: passed) with ⟨missing, none⟩ | ⟨before, name, behind, first, found⟩
      · refine .inl ⟨missing, fun before name behind isName split => ?_⟩
        cases before with
        | nil => exact reference?_eq_none_iff.mp here name behind isName split
        | cons d before => exact none before name behind isName (List.cons.inj split).2
      · refine .inr ⟨c :: before, name, behind, first.cons here, ?_⟩
        simp only [found]
        simp

theorem isFirst_of_findReference? (found : findReference? [] cs = some (before.reverse, name, behind)) :
    IsFirst cs before name behind := by
  rcases findReference?_spec [] cs with ⟨missing, _⟩ | ⟨before', name', behind', first, found'⟩
  · rw [found] at missing
    cases missing
  · rw [found] at found'
    simp only [List.append_nil, Option.some.injEq, Prod.mk.injEq, List.reverse_inj] at found'
    obtain ⟨rfl, rfl, rfl⟩ := found'
    exact first

theorem cut_of_findReference? (missing : findReference? [] cs = none) : Cut cs [] cs := by
  rcases findReference?_spec [] cs with ⟨_, none⟩ | ⟨_, _, _, _, found⟩
  · exact .rest none
  · rw [missing] at found
    cases found

theorem IsFirst.unique {before' name' behind' : List Char} (h : IsFirst text before name behind)
    (h' : IsFirst text before' name' behind') :
    before = before' ∧ name = name' ∧ behind = behind' := by
  have length : before.length = before'.length :=
    Nat.le_antisymm (h.first _ _ _ h'.isName h'.split) (h'.first _ _ _ h.isName h.split)
  have split := h.split.symm.trans h'.split
  rw [List.append_assoc, List.append_assoc] at split
  obtain ⟨rfl, same⟩ := List.append_inj split length
  have found := reference?_reference h.isName behind
  rw [same, reference?_reference h'.isName behind'] at found
  obtain ⟨rfl, rfl⟩ := Prod.mk.inj (Option.some.inj found)
  exact ⟨rfl, rfl, rfl⟩

/-- A text is cut in one way. -/
theorem Cut.unique {parts parts' : List Part} {tail' : List Char} (h : Cut text parts tail)
    (h' : Cut text parts' tail') : parts = parts' ∧ tail = tail' := by
  induction h generalizing parts' tail' with
  | rest none =>
    cases h' with
    | rest _ => exact ⟨rfl, rfl⟩
    | part first _ => exact absurd first.split (none _ _ _ first.isName)
  | @part text behind tail part parts first _ ih =>
    cases h' with
    | rest none => exact absurd first.split (none _ _ _ first.isName)
    | @part _ _ _ part' _ first' later' =>
      obtain ⟨gap, name, rfl⟩ := first.unique first'
      obtain ⟨rfl, rfl⟩ := ih later'
      obtain ⟨gap', name'⟩ := part'
      cases gap
      cases name
      exact ⟨rfl, rfl⟩

/-- The text of some parts with the values of variables in the stead of references, or the first
variable that has none. -/
def assemble (env : String → Option String) (tail : List Char) :
    List Part → Except SettingsError (List Char)
  | [] => .ok tail
  | part :: rest =>
    match env (String.ofList part.name) with
    | none => .error (.variableNotFound (String.ofList part.name))
    | some value => (part.gap ++ value.toList ++ ·) <$> assemble env tail rest

theorem assemble_of_set {env : String → Option String} {value : String → String}
    (set : ∀ part ∈ parts, env (String.ofList part.name) = some (value (String.ofList part.name))) :
    assemble env tail parts = .ok
      (parts.flatMap (fun part => part.gap ++ (value (String.ofList part.name)).toList) ++ tail) := by
  induction parts with
  | nil => rfl
  | cons part rest ih =>
    obtain ⟨here, later⟩ := List.forall_mem_cons.mp set
    unfold assemble
    rw [here, ih later]
    simp only [List.flatMap_cons, List.append_assoc]
    rfl

theorem assemble_of_unset {env : String → Option String} {front back : List Part} {part : Part}
    (set : ∀ p ∈ front, env (String.ofList p.name) ≠ none)
    (unset : env (String.ofList part.name) = none) :
    assemble env tail (front ++ part :: back) =
      .error (.variableNotFound (String.ofList part.name)) := by
  induction front with
  | nil => rw [List.nil_append, assemble, unset]
  | cons p front ih =>
    obtain ⟨here, later⟩ := List.forall_mem_cons.mp set
    obtain ⟨value, here⟩ := Option.ne_none_iff_exists'.mp here
    rw [List.cons_append, assemble, here, ih later]
    rfl

variable {answer : (q : Lookup) → q.Reply}

theorem outcome_look_bind {β : Type} (q : Lookup) (f : q.Reply → Loading β) :
    (look q >>= f).run.outcome answer = (f (answer q)).run.outcome answer := rfl

theorem length_reference (name : List Char) : (reference name).length = name.length + 6 := by
  simp [reference, opening]

theorem IsFirst.length_behind (h : IsFirst text before name behind) :
    behind.length + 6 ≤ text.length := by
  rw [h.split, List.length_append, List.length_append, length_reference]
  omega

theorem exists_cut (text : List Char) : ∃ parts tail, Cut text parts tail := by
  induction count : text.length using Nat.strongRecOn generalizing text with
  | ind n ih =>
    rcases findReference?_spec [] text with ⟨_, none⟩ | ⟨before, name, behind, first, _⟩
    · exact ⟨[], text, .rest none⟩
    · have fewer := first.length_behind
      obtain ⟨parts, tail, cut⟩ := ih behind.length (by omega) behind rfl
      exact ⟨⟨before, name⟩ :: parts, tail, .part first cut⟩

/-- Each round takes one part off, so as many rounds as there are characters are enough. -/
theorem outcome_substitute (cut : Cut text parts tail) {rounds : Nat}
    (enough : text.length ≤ rounds) : (substitute rounds text).run.outcome answer =
      assemble (fun name => answer (.envValue name)) tail parts := by
  induction cut generalizing rounds with
  | @rest text none =>
    cases rounds with
    | zero => rfl
    | succ rounds =>
      rcases findReference?_spec [] text with ⟨missing, _⟩ | ⟨before, name, behind, first, _⟩
      · rw [substitute, missing]
        rfl
      · exact absurd first.split (none before name behind first.isName)
  | @part text behind tail part parts first _ ih =>
    have fewer := first.length_behind
    obtain ⟨rounds, rfl⟩ : ∃ r, rounds = r + 1 := ⟨rounds - 1, by omega⟩
    rcases findReference?_spec [] text with ⟨_, none⟩ | ⟨before, name, behind', first', found⟩
    · exact absurd first.split (none _ _ _ first.isName)
    obtain ⟨rfl, rfl, rfl⟩ := first'.unique first
    have later := ih (Nat.le_of_lt_succ (Nat.lt_of_lt_of_le (by omega) enough))
    rw [substitute, found]
    simp only [List.append_nil, List.reverse_reverse]
    refine (outcome_look_bind ..).trans ?_
    unfold assemble
    cases answer (.envValue (String.ofList part.name)) with
    | none => rfl
    | some value =>
      refine (Plan.outcome_run_bind answer (substitute rounds behind') _).trans ?_
      rw [later]
      cases assemble (fun name => answer (.envValue name)) tail parts <;> rfl

theorem outcome_substituteAll {text : String} (cut : Cut text.toList parts tail) :
    (substituteAll text).run.outcome answer =
      String.ofList <$> assemble (fun name => answer (.envValue name)) tail parts := by
  have rounds : text.toList.length ≤ text.length := Nat.le_of_eq String.length_toList
  unfold substituteAll
  rw [Plan.outcome_run_bind, outcome_substitute cut rounds]
  cases assemble (fun name => answer (.envValue name)) tail parts <;> rfl

/-- The references of a text are those that are found from the first on, each behind the one before.
Where all variables that are named have values, these stand in the stead of the references, and all
else stays as it is; else the first variable without a value is told. -/
theorem references_are_replaced (text : String) : ∃ parts tail,
    (∀ parts' tail', Cut text.toList parts' tail' ↔ parts' = parts ∧ tail' = tail) ∧
      ∀ answer : (q : Lookup) → q.Reply,
        (∀ value : String → String,
          (∀ part ∈ parts, answer (.envValue (String.ofList part.name)) =
            some (value (String.ofList part.name))) →
          (substituteAll text).run.outcome answer = .ok (String.ofList
            (parts.flatMap (fun part => part.gap ++ (value (String.ofList part.name)).toList) ++
              tail))) ∧
        ∀ front part back, parts = front ++ part :: back →
          (∀ p ∈ front, answer (.envValue (String.ofList p.name)) ≠ none) →
          answer (.envValue (String.ofList part.name)) = none →
          (substituteAll text).run.outcome answer =
            .error (.variableNotFound (String.ofList part.name)) := by
  obtain ⟨parts, tail, cut⟩ := exists_cut text.toList
  refine ⟨parts, tail, fun parts' tail' => ⟨fun cut' => cut'.unique cut, ?_⟩, fun answer => ⟨?_, ?_⟩⟩
  · rintro ⟨rfl, rfl⟩
    exact cut
  · intro value set
    rw [outcome_substituteAll cut, assemble_of_set set]
    rfl
  · rintro front part back rfl set unset
    rw [outcome_substituteAll cut, assemble_of_unset set unset]
    rfl

end CodeIntel.Settings
