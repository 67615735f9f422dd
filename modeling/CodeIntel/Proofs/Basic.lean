import Mathlib.Logic.Relation

namespace CodeIntel

section Except

variable {ε ε' α β : Type}

@[simp]
theorem ok_bind (a : α) (f : α → Except ε β) : (Except.ok a >>= f) = f a := rfl

@[simp]
theorem error_bind (e : ε) (f : α → Except ε β) : (Except.error e >>= f) = .error e := rfl

theorem bind_eq_ok_iff {x : Except ε α} {f : α → Except ε β} {b : β} :
    x >>= f = .ok b ↔ ∃ a, x = .ok a ∧ f a = .ok b := by
  cases x with
  | error e => simp
  | ok a => simp

@[simp]
theorem mapError_ok (f : ε → ε') (a : α) : (Except.ok a : Except ε α).mapError f = .ok a := rfl

@[simp]
theorem mapError_error (f : ε → ε') (e : ε) :
    (Except.error e : Except ε α).mapError f = .error (f e) := rfl

theorem mapError_eq_ok_iff {x : Except ε α} {f : ε → ε'} {a : α} :
    x.mapError f = .ok a ↔ x = .ok a := by
  cases x <;> simp

theorem toOption_eq_some_iff {x : Except ε α} {a : α} : x.toOption = some a ↔ x = .ok a := by
  cases x <;> simp [Except.toOption]

theorem isOk_iff {x : Except ε α} : x.isOk = true ↔ ∃ a, x = .ok a := by
  cases x <;> simp [Except.isOk, Except.toBool]

end Except

section Entries

variable {κ α : Type} [DecidableEq κ]

/-- What stands under a key after the entries of a key are taken out. -/
theorem find?_filter_ne (entries : List (κ × α)) (key other : κ) :
    (entries.filter fun e => e.1 ≠ key).find? (fun e => e.1 = other) =
      if other = key then none else entries.find? fun e => e.1 = other := by
  rw [List.find?_filter]
  split
  next eq =>
    apply List.find?_eq_none.mpr
    intro e _
    simp [eq]
  next ne =>
    congr 1
    funext e
    by_cases he : e.1 = other <;> simp [he, ne]

/-- What stands under a key after an entry has come instead of those of its key. -/
theorem find?_cons_filter_ne (entries : List (κ × α)) (key other : κ) (a : α) :
    ((key, a) :: entries.filter fun e => e.1 ≠ key).find? (fun e => e.1 = other) =
      if other = key then some (key, a) else entries.find? fun e => e.1 = other := by
  by_cases eq : other = key
  · simp [eq]
  · rw [List.find?_cons_of_neg (by simpa using Ne.symm eq), find?_filter_ne, if_neg eq, if_neg eq]

/-- Of things that are apart by something, only the one with it is taken out. -/
theorem mem_eraseP_of_nodup_map {things : List α} {f : α → κ} {key : κ} {a : α}
    (once : (things.map f).Nodup) (h : a ∈ things.eraseP fun b => f b = key) :
    a ∈ things ∧ f a ≠ key := by
  refine ⟨List.mem_of_mem_eraseP h, ?_⟩
  induction things with
  | nil => cases h
  | cons b rest ih =>
    simp only [List.map_cons, List.nodup_cons] at once
    by_cases eq : f b = key
    · rw [List.eraseP_cons_of_pos (by simpa using eq)] at h
      intro same
      exact once.1 (eq.trans same.symm ▸ List.mem_map_of_mem h)
    · rw [List.eraseP_cons_of_neg (by simpa using eq)] at h
      rcases List.mem_cons.mp h with rfl | h
      · exact eq
      · exact ih once.2 h

theorem find?_eraseP_of_ne {key other : κ} (ne : other ≠ key) (entries : List (κ × α)) :
    (entries.eraseP fun e => e.1 = key).find? (fun e => e.1 = other) =
      entries.find? fun e => e.1 = other := by
  induction entries with
  | nil => rfl
  | cons e rest ih =>
    by_cases eq : e.1 = key
    · rw [List.eraseP_cons_of_pos (by simpa using eq),
        List.find?_cons_of_neg (by simpa [eq] using ne.symm)]
    · rw [List.eraseP_cons_of_neg (by simpa using eq), List.find?_cons, List.find?_cons, ih]

end Entries

section Parts

variable {α : Type} {P : α → Prop} {before after before' after' : List α} {a a' : α}

/-- A part of a kind that is missing in front of another part stands at it or behind it. -/
theorem exists_between (h : before ++ a :: after = before' ++ a' :: after') (here : P a)
    (quiet' : ∀ b ∈ before', ¬ P b) :
    ∃ between, before = before' ++ between ∧ a' :: after' = between ++ a :: after := by
  rcases List.append_eq_append_iff.mp h with ⟨between, rfl, rest⟩ | ⟨between, rfl, rest⟩
  · cases between with
    | nil => exact ⟨[], by simp, rest.symm⟩
    | cons b between =>
      obtain ⟨rfl, _⟩ := List.cons_eq_cons.mp rest
      exact absurd here (quiet' a (by simp))
  · exact ⟨between, rfl, rest⟩

/-- A part of a list that is the only one of its kind parts it in one way. -/
theorem append_cons_unique (h : before ++ a :: after = before' ++ a' :: after') (here : P a)
    (quiet : ∀ b ∈ before', ¬ P b) (quiet' : ∀ b ∈ after', ¬ P b) :
    before = before' ∧ a = a' ∧ after = after' := by
  obtain ⟨between, rfl, rest⟩ := exists_between h here quiet
  cases between with
  | nil => simpa [eq_comm] using rest
  | cons b between =>
    obtain ⟨_, rfl⟩ := List.cons_eq_cons.mp rest
    exact absurd here (quiet' a (by simp))

/-- So does a part that is the first one of its kind. -/
theorem append_cons_unique_of_first (h : before ++ a :: after = before' ++ a' :: after')
    (here : P a) (here' : P a') (quiet : ∀ b ∈ before, ¬ P b) (quiet' : ∀ b ∈ before', ¬ P b) :
    before = before' ∧ a = a' ∧ after = after' := by
  obtain ⟨between, rfl, rest⟩ := exists_between h here quiet'
  cases between with
  | nil => simpa [eq_comm] using rest
  | cons b between =>
    obtain ⟨rfl, _⟩ := List.cons_eq_cons.mp rest
    exact absurd here' (quiet a' (by simp))

/-- So does a part that is the last one of its kind. -/
theorem append_cons_unique_of_last (h : before ++ a :: after = before' ++ a' :: after')
    (here : P a) (here' : P a') (quiet : ∀ b ∈ after, ¬ P b) (quiet' : ∀ b ∈ after', ¬ P b) :
    before = before' ∧ a = a' ∧ after = after' := by
  have reversed : after.reverse ++ a :: before.reverse = after'.reverse ++ a' :: before'.reverse := by
    simpa using congrArg List.reverse h
  obtain ⟨afters, same, befores⟩ := append_cons_unique_of_first reversed here here'
    (fun b mem => quiet b (List.mem_reverse.mp mem))
    (fun b mem => quiet' b (List.mem_reverse.mp mem))
  exact ⟨List.reverse_inj.mp befores, same, List.reverse_inj.mp afters⟩

end Parts

/-- A run that is played move by move is one. -/
theorem reflTransGen_of_foldlM {σ μ : Type} (step : σ → σ → Prop) {play? : σ → μ → Option σ}
    {moves : List μ} {s s' : σ} (played : moves.foldlM play? s = some s')
    (steps : ∀ s move s', play? s move = some s' → step s s') : Relation.ReflTransGen step s s' := by
  induction moves generalizing s with
  | nil =>
    cases played
    exact .refl
  | cons move rest ih =>
    obtain ⟨next, first, later⟩ := Option.bind_eq_some_iff.mp played
    exact .head (steps _ _ _ first) (ih later)

end CodeIntel
