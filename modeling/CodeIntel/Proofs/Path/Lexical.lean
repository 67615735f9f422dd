import CodeIntel.Proofs.Path.Steps
import CodeIntel.Proofs.Plan
import CodeIntel.Tool.Ask

namespace CodeIntel

namespace Path

/-- Where a step leads by its text alone. A step to the parent takes the last name away; at the root
there is none to take. -/
def turn (place : Place) : Component → Place
  | .root => []
  | .current => place
  | .parent => place.dropLast
  | .name bytes => place ++ [bytes]

/-- Whether a step is to the parent of the root, as a number to be summed up. -/
def overstep (place : Place) (step : Component) : Nat :=
  if place = [] ∧ step = .parent then 1 else 0

/-- How many of some steps from a place on are to the parent of the root. -/
def oversteps : Place → List Component → Nat
  | _, [] => 0
  | place, step :: rest => overstep place step + oversteps (turn place step) rest

/-- The place that an absolute path names by its text alone. -/
def place (p : Path) : Place := (steps p.bytes).foldl turn []

/-- The steps to a place. A step to the parent of the root stands before them where such steps are
odd in number. -/
def reduced (count : Nat) (place : Place) : List Component :=
  .root :: (if count % 2 = 1 then [.parent] else []) ++ place.map .name

theorem pushStep_reduced (count : Nat) (place : Place) {step : Component} (inner : isLead step = false) :
    pushStep (reduced count place).reverse step =
      (reduced (count + overstep place step) (turn place step)).reverse := by
  cases step with
  | root => cases inner
  | current => cases inner
  | name bytes => simp [pushStep, reduced, overstep, turn]
  | parent =>
    by_cases atRoot : place = []
    · subst atRoot
      rcases Nat.mod_two_eq_zero_or_one count with even | odd
      · have next : (count + 1) % 2 = 1 := by omega
        simp [pushStep, reduced, overstep, turn, even, next]
      · have next : (count + 1) % 2 = 0 := by omega
        simp [pushStep, reduced, overstep, turn, odd, next]
    · obtain ⟨above, last, rfl⟩ := List.eq_nil_or_concat place |>.resolve_left atRoot
      have none : overstep (above ++ [last]) .parent = 0 := by simp [overstep]
      simp [pushStep, reduced, turn, none]

theorem foldl_pushStep_reduced (count : Nat) (place : Place) {rest : List Component}
    (inner : ∀ step ∈ rest, isLead step = false) :
    rest.foldl pushStep (reduced count place).reverse =
      (reduced (count + oversteps place rest) (rest.foldl turn place)).reverse := by
  induction rest generalizing count place with
  | nil => rfl
  | cons step rest ih =>
    obtain ⟨first, later⟩ := List.forall_mem_cons.mp inner
    rw [List.foldl_cons, pushStep_reduced count place first, ih _ _ later, List.foldl_cons,
      oversteps, Nat.add_assoc]

variable {p : Path}

theorem normal_eq (absolute : p.isAbsolute = true) :
    p.normal = ofComponents (reduced (oversteps [] (steps p.bytes)) p.place) := by
  have inner : ∀ c ∈ steps p.bytes, isLead c = false := fun _ => isLead_of_mem_steps
  have folded := foldl_pushStep_reduced 0 [] inner
  unfold normal
  rw [components_of_absolute absolute, List.foldl_cons]
  refine congrArg ofComponents ?_
  rw [← List.reverse_reverse (reduced _ _), place]
  refine congrArg List.reverse (folded.trans ?_)
  rw [Nat.zero_add]

theorem proper_foldl_turn {place : Place} (proper : place.Proper) {rest : List Component}
    (named : ∀ name, .name name ∈ rest → ProperName name) :
    Place.Proper (rest.foldl turn place) := by
  induction rest generalizing place with
  | nil => exact proper
  | cons step rest ih =>
    refine ih ?_ fun name mem => named name (.tail step mem)
    cases step with
    | root => exact nofun
    | current => exact proper
    | parent => exact proper.dropLast
    | name bytes => exact proper.concat (named bytes List.mem_cons_self)

theorem proper_place (p : Path) : p.place.Proper := by
  have atRoot : Place.Proper [] := nofun
  exact proper_foldl_turn atRoot fun _ => properName_of_mem_steps

theorem components_reduced (count : Nat) {place : Place} (proper : place.Proper) :
    (ofComponents (reduced count place)).components = reduced count place := by
  refine components_ofComponents fun step mem => ?_
  rcases List.mem_append.mp mem with up | named
  · split at up
    · cases List.mem_singleton.mp up
      decide
    · cases up
  · obtain ⟨name, here, rfl⟩ := List.mem_map.mp named
    exact ⟨(proper name here).noSlash, (proper name here).pieceComponent?⟩

theorem foldl_turn_names (place names : Place) :
    (names.map Component.name).foldl turn place = place ++ names := by
  induction names generalizing place with
  | nil => simp
  | cons name names ih => simp [turn, ih]

theorem oversteps_names (place names : Place) :
    oversteps place (names.map Component.name) = 0 := by
  induction names generalizing place with
  | nil => rfl
  | cons name names ih => simp [oversteps, overstep, ih]

/-- Where no dots are left there is nothing to resolve. -/
theorem normal_reduced (count : Nat) {place : Place} (proper : place.Proper) :
    (ofComponents (reduced count place)).normal = ofComponents (reduced count place) := by
  have absolute : (ofComponents (reduced count place)).isAbsolute = true := rfl
  have components := components_reduced count proper
  rw [components_of_absolute absolute] at components
  rw [normal_eq absolute, Path.place, (List.cons.inj components).2]
  refine congrArg ofComponents ?_
  rcases Nat.mod_two_eq_zero_or_one count with even | odd
  · simp [reduced, even, foldl_turn_names, oversteps_names]
  · simp [reduced, odd, foldl_turn_names, oversteps_names, oversteps, overstep, turn]

/-- What a path argument stands for before its dots are resolved: itself if it is absolute, else
taken from the working directory or, where only that exists, from the root of the workspace. -/
def meant (present : Path → Bool) (raw : String) (s : Surroundings) : Path :=
  if (ofString raw).isAbsolute then ofString raw
  else if present (s.cwd.join (ofString raw)).normal then s.cwd.join (ofString raw)
  else if present (s.root.join (ofString raw)).normal then s.root.join (ofString raw)
  else s.cwd.join (ofString raw)

variable {present : Path → Bool} {raw : String} {s : Surroundings}

theorem isAbsolute_join (absolute : p.isAbsolute = true) (q : Path) :
    (p.join q).isAbsolute = true := by
  unfold join
  obtain ⟨first, rest, eq⟩ : ∃ first rest, p.bytes = first :: rest := by
    refine List.exists_cons_of_ne_nil fun empty => ?_
    simp [isAbsolute, empty] at absolute
  unfold isAbsolute at absolute ⊢
  rw [eq] at absolute ⊢
  split
  · assumption
  · simp only [List.cons_ne_nil, if_false]
    split <;> exact absolute

theorem isAbsolute_meant (cwd : s.cwd.isAbsolute = true) (root : s.root.isAbsolute = true) :
    (meant present raw s).isAbsolute = true := by
  unfold meant
  split
  · assumption
  · split
    · exact isAbsolute_join cwd _
    · split
      · exact isAbsolute_join root _
      · exact isAbsolute_join cwd _

end Path

namespace Action

variable {answer : (q : Ask) → q.Reply} {raw : String} {s : Surroundings}

theorem outcome_ask_bind {β : Type} (q : Ask) (f : q.Reply → Action β) :
    (ask q >>= f).run.outcome answer = (f (answer q)).run.outcome answer := rfl

theorem outcome_resolvePath (visible : isBlankText raw.toList = false) :
    (resolvePath raw s).run.outcome answer =
      .ok (Path.meant (fun p => answer (.present p)) raw s).normal := by
  unfold resolvePath Path.readings Path.meant
  rw [Plan.outcome_run_bind, visible]
  by_cases absolute : (Path.ofString raw).isAbsolute = true
  · simp only [absolute, if_true]
    rfl
  · simp only [absolute]
    refine (outcome_ask_bind ..).trans ?_
    by_cases here : answer (.present (s.cwd.join (.ofString raw)).normal) = true
    · simp only [here, if_true]
      rfl
    · simp only [here]
      refine (outcome_ask_bind ..).trans ?_
      by_cases there : answer (.present (s.root.join (.ofString raw)).normal) = true
      · simp only [there, if_true]
        rfl
      · simp only [there]
        rfl

end Action

open CodeIntel.Path (meant oversteps steps reduced)

/-- A path argument stands for an absolute path, taken from where it exists, with its dots resolved
by their text: a step to the parent takes the name before it away. The parent of the root is the
root again only after an even number of steps to it, and stands as a step of its own after an odd
number. Resolved once more, the path stays as it is. -/
theorem paths_are_resolved_by_their_text {raw : String} {s : Surroundings}
    (visible : isBlankText raw.toList = false) (cwd : s.cwd.isAbsolute = true)
    (root : s.root.isAbsolute = true) (present : Path → Bool) :
    let p := meant present raw s
    ∃ q, (∀ answer : (q : Ask) → q.Reply, (∀ path, answer (.present path) = present path) →
        (Action.resolvePath raw s).run.outcome answer = .ok q) ∧
      p.isAbsolute = true ∧ q.isAbsolute = true ∧ .current ∉ q.components ∧ q.normal = q ∧
      p.place.Proper ∧
      (q = Tree.pathOf p.place ∧ .parent ∉ q.components ↔ oversteps [] (steps p.bytes) % 2 = 0) ∧
      (oversteps [] (steps p.bytes) % 2 = 1 →
        q.components = .root :: .parent :: p.place.map .name) := by
  intro p
  have absolute : p.isAbsolute = true := Path.isAbsolute_meant cwd root
  have proper := p.proper_place
  have components := Path.components_reduced (oversteps [] (steps p.bytes)) proper
  refine ⟨p.normal, ?_, absolute, ?_⟩
  · intro answer tells
    have here : (fun path => answer (.present path)) = present := funext tells
    rw [Action.outcome_resolvePath visible, here]
  rw [Path.normal_eq absolute]
  refine ⟨rfl, ?_, Path.normal_reduced _ proper, proper, ?_, ?_⟩
  · rw [components]
    simp [reduced]
  · rw [components]
    rcases Nat.mod_two_eq_zero_or_one (oversteps [] (steps p.bytes)) with even | odd
    · simp [reduced, even, Tree.pathOf]
    · simp [reduced, odd]
  · intro odd
    rw [components]
    simp [reduced, odd]

theorem dots_are_resolved_below_root : ∃ q,
    isBlankText "./../sub/./local.go".toList = false ∧
      (Path.ofString "/w/sub").isAbsolute = true ∧ (Path.ofString "/w").isAbsolute = true ∧
      (∀ answer : (q : Ask) → q.Reply, (∀ path, answer (.present path) = false) →
        (Action.resolvePath "./../sub/./local.go" ⟨.ofString "/w", .ofString "/w/sub"⟩).run.outcome
          answer = .ok q) ∧
      q = .ofString "/w/sub/local.go" := by
  have visible : isBlankText "./../sub/./local.go".toList = false := by decide
  have cwd : (Path.ofString "/w/sub").isAbsolute = true := by decide
  have root : (Path.ofString "/w").isAbsolute = true := by decide
  let s : Surroundings := ⟨.ofString "/w", .ofString "/w/sub"⟩
  have claim := @paths_are_resolved_by_their_text _ s visible cwd root fun _ => false
  obtain ⟨q, comes, -, -, -, -, -, even, -⟩ := claim
  refine ⟨q, visible, cwd, root, comes, (even.mpr (by decide)).1.trans (by decide)⟩

/-- A step above the root is kept. -/
theorem step_above_root_stays : ∃ q, .parent ∈ Path.components q ∧ isBlankText "/..".toList = false ∧
    ∀ answer : (q : Ask) → q.Reply,
      (Action.resolvePath "/.." ⟨.ofString "/w", .ofString "/w"⟩).run.outcome answer = .ok q := by
  have visible : isBlankText "/..".toList = false := by decide
  refine ⟨.ofString "/..", by decide, visible, fun answer => ?_⟩
  have absolute : (Path.ofString "/..").isAbsolute = true := by decide
  rw [Action.outcome_resolvePath visible, meant, if_pos absolute]
  exact congrArg Except.ok (by decide)

end CodeIntel
