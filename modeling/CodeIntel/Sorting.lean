namespace CodeIntel

variable {α : Type}

/-- Puts `x` before the first element that is not below it. -/
def insertBy (le : α → α → Bool) (x : α) : List α → List α
  | [] => [x]
  | y :: ys => if le x y then x :: y :: ys else y :: insertBy le x ys

/-- Sorts a list; elements that are alike keep their order. -/
def sortBy (le : α → α → Bool) : List α → List α
  | [] => []
  | x :: xs => insertBy le x (sortBy le xs)

theorem insertBy_perm (le : α → α → Bool) (x : α) (ys : List α) :
    (insertBy le x ys).Perm (x :: ys) := by
  induction ys with
  | nil => exact .refl _
  | cons y ys ih =>
    unfold insertBy
    split
    · exact .refl _
    · exact (ih.cons y).trans (.swap x y ys)

theorem sortBy_perm (le : α → α → Bool) (xs : List α) : (sortBy le xs).Perm xs := by
  induction xs with
  | nil => exact .refl _
  | cons x xs ih => exact (insertBy_perm le x _).trans (ih.cons x)

theorem insertBy_pairwise {le : α → α → Bool} (total : ∀ a b, le a b = true ∨ le b a = true)
    (trans : ∀ a b c, le a b = true → le b c = true → le a c = true) (x : α) {ys : List α}
    (h : ys.Pairwise fun a b => le a b = true) :
    (insertBy le x ys).Pairwise fun a b => le a b = true := by
  induction ys with
  | nil => simp [insertBy]
  | cons y ys ih =>
    have ⟨first, rest⟩ := List.pairwise_cons.mp h
    unfold insertBy
    split
    next below =>
      refine List.pairwise_cons.mpr ⟨?_, h⟩
      intro z hz
      rcases List.mem_cons.mp hz with rfl | hz
      · exact below
      · exact trans _ _ _ below (first z hz)
    next above =>
      refine List.pairwise_cons.mpr ⟨?_, ih rest⟩
      intro z hz
      rcases List.mem_cons.mp ((insertBy_perm le x ys).mem_iff.mp hz) with rfl | hz
      · exact (total _ _).resolve_left above
      · exact first z hz

theorem sortBy_pairwise {le : α → α → Bool} (total : ∀ a b, le a b = true ∨ le b a = true)
    (trans : ∀ a b c, le a b = true → le b c = true → le a c = true) (xs : List α) :
    (sortBy le xs).Pairwise fun a b => le a b = true := by
  induction xs with
  | nil => exact .nil
  | cons x xs ih => exact insertBy_pairwise total trans x ih

theorem filter_insertBy {le : α → α → Bool} {p : α → Bool}
    (alike : ∀ a b, p a = true → p b = true → le a b = true) (x : α) (ys : List α) :
    (insertBy le x ys).filter p = (x :: ys).filter p := by
  induction ys with
  | nil => rfl
  | cons y ys ih =>
    unfold insertBy
    split
    · rfl
    next above =>
      have apart : p x = false ∨ p y = false := by
        cases hx : p x with
        | false => exact .inl rfl
        | true =>
          cases hy : p y with
          | false => exact .inr rfl
          | true => exact absurd (alike x y hx hy) above
      rw [List.filter_cons, ih]
      rcases apart with hx | hy
      · simp [List.filter_cons, hx]
      · simp [List.filter_cons, hy]

/-- Elements that are alike keep their order. -/
theorem filter_sortBy {le : α → α → Bool} {p : α → Bool}
    (alike : ∀ a b, p a = true → p b = true → le a b = true) (xs : List α) :
    (sortBy le xs).filter p = xs.filter p := by
  induction xs with
  | nil => rfl
  | cons x xs ih =>
    rw [sortBy, filter_insertBy alike, List.filter_cons, List.filter_cons, ih]

end CodeIntel
