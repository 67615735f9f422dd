import CodeIntel.Proofs.Excerpt.Windows

namespace CodeIntel

namespace LineSpan

variable {x y : LineSpan} {xs ys spans others : List LineSpan} {n : Nat}

instance (span : LineSpan) : Decidable span.Upright := inferInstanceAs (Decidable (_ ≤ _))

/-- Spans as merging leaves them: each has a line, and they are apart. -/
structure Merged (spans : List LineSpan) : Prop where
  upright : ∀ s ∈ spans, s.Upright
  apart : Apart spans

namespace Merged

theorem tail (h : Merged (x :: xs)) : Merged xs :=
  ⟨fun s mem => h.upright s (List.mem_cons_of_mem x mem), h.apart.tail⟩

theorem le_last (h : Merged (x :: xs)) : x.first.toNat ≤ x.last.toNat :=
  h.upright x List.mem_cons_self

/-- The line behind the first span is left out. -/
theorem succ_last_lt (h : Merged (x :: xs)) (later : ∃ s ∈ xs, s.Has n) :
    x.last.toNat + 1 < n := by
  obtain ⟨s, mem, low, _⟩ := later
  exact Nat.lt_of_lt_of_le ((List.pairwise_cons.mp h.apart).1 s mem) low

theorem has_tail_iff (h : Merged (x :: xs)) :
    (∃ s ∈ xs, s.Has n) ↔ (∃ s ∈ x :: xs, s.Has n) ∧ x.last.toNat < n := by
  rw [List.exists_mem_cons_iff]
  constructor
  · intro later
    exact ⟨.inr later, Nat.lt_of_succ_lt (h.succ_last_lt later)⟩
  · rintro ⟨here | later, behind⟩
    · exact absurd here.2 (Nat.not_le.mpr behind)
    · exact later

theorem first_le (h : Merged (x :: xs)) (has : ∃ s ∈ x :: xs, s.Has n) : x.first.toNat ≤ n := by
  have upright := h.le_last
  rcases (List.exists_mem_cons_iff ..).mp has with here | later
  · exact here.1
  · have := h.succ_last_lt later
    omega

theorem not_has_succ_last (h : Merged (x :: xs)) :
    ¬∃ s ∈ x :: xs, s.Has (x.last.toNat + 1) := by
  intro has
  have later := h.has_tail_iff.mpr ⟨has, Nat.lt_succ_self _⟩
  exact absurd (h.succ_last_lt later) (Nat.lt_irrefl _)

/-- A first span starts no later than that of spans with the same lines. -/
theorem first_le_first (hx : Merged (x :: xs)) (hy : Merged (y :: ys))
    (same : ∀ n, (∃ s ∈ x :: xs, s.Has n) ↔ ∃ s ∈ y :: ys, s.Has n) :
    x.first.toNat ≤ y.first.toNat :=
  hx.first_le ((same _).mpr ⟨y, List.mem_cons_self, Nat.le_refl _, hy.le_last⟩)

/-- It ends no later either, since a gap follows the other first span. -/
theorem last_le_last (hx : Merged (x :: xs)) (hy : Merged (y :: ys))
    (same : ∀ n, (∃ s ∈ x :: xs, s.Has n) ↔ ∃ s ∈ y :: ys, s.Has n) :
    x.last.toNat ≤ y.last.toNat := by
  have first := hx.first_le_first hy same
  have upright := hy.le_last
  by_contra beyond
  have has : x.Has (y.last.toNat + 1) := ⟨by omega, by omega⟩
  exact hy.not_has_succ_last ((same _).mp ⟨x, List.mem_cons_self, has⟩)

/-- Merged spans are determined by their lines. -/
theorem eq_of_has_iff (hx : Merged xs) (hy : Merged ys)
    (same : ∀ n, (∃ s ∈ xs, s.Has n) ↔ ∃ s ∈ ys, s.Has n) : xs = ys := by
  induction xs generalizing ys with
  | nil =>
    cases ys with
    | nil => rfl
    | cons y ys =>
      obtain ⟨_, mem, _⟩ := (same y.first.toNat).mpr ⟨y, by simp, Nat.le_refl _, hy.le_last⟩
      cases mem
  | cons x xs ih =>
    cases ys with
    | nil =>
      obtain ⟨_, mem, _⟩ := (same x.first.toNat).mp ⟨x, by simp, Nat.le_refl _, hx.le_last⟩
      cases mem
    | cons y ys =>
      have back n := (same n).symm
      have first : x.first.toNat = y.first.toNat :=
        Nat.le_antisymm (hx.first_le_first hy same) (hy.first_le_first hx back)
      have last : x.last.toNat = y.last.toNat :=
        Nat.le_antisymm (hx.last_le_last hy same) (hy.last_le_last hx back)
      have rest : xs = ys := by
        refine ih hx.tail hy.tail fun n => ?_
        rw [hx.has_tail_iff, hy.has_tail_iff, same n, last]
      obtain ⟨a, b⟩ := x
      obtain ⟨a', b'⟩ := y
      cases UInt32.toNat_inj.mp first
      cases UInt32.toNat_inj.mp last
      rw [rest]

theorem pairwise_first_lt (h : Merged spans) : spans.Pairwise fun a b => a.first < b.first := by
  refine h.apart.imp_of_mem fun {a b} mem _ apart => ?_
  have upright : a.first.toNat ≤ a.last.toNat := h.upright a mem
  rw [UInt32.lt_iff_toNat_lt]
  omega

end Merged

theorem merged_merge (upright : ∀ s ∈ spans, s.Upright) : Merged (merge spans) :=
  ⟨(merge_spec upright).2.1, (merge_spec upright).2.2⟩

/-- Spans are merged into the same list exactly if they have the same lines. -/
theorem merge_eq_merge_iff (upright : ∀ s ∈ spans, s.Upright)
    (upright' : ∀ s ∈ others, s.Upright) :
    merge others = merge spans ↔ ∀ n, (∃ s ∈ others, s.Has n) ↔ ∃ s ∈ spans, s.Has n := by
  have lines := (merge_spec upright).1
  have lines' := (merge_spec upright').1
  constructor
  · intro same n
    rw [← lines, ← lines', same]
  · intro same
    refine (merged_merge upright').eq_of_has_iff (merged_merge upright) fun n => ?_
    rw [lines, lines', same]

/-- Merging gives spans in ascending order with at least one line between each and the next and with
the lines of the spans that are merged. Merging these again, or the same spans in another order or
repeated, gives them again. -/
theorem merged_spans_are_canonical (upright : ∀ s ∈ spans, s.Upright) :
    ((merge spans).Pairwise fun a b => a.first < b.first) ∧
      (∀ s ∈ merge spans, s.Upright) ∧
      ((merge spans).Pairwise fun a b => ∃ n, a.last.toNat < n ∧ n < b.first.toNat) ∧
      (∀ n, (∃ s ∈ merge spans, s.Has n) ↔ ∃ s ∈ spans, s.Has n) ∧
      merge (merge spans) = merge spans ∧
      ∀ others : List LineSpan, (∀ s, s ∈ others ↔ s ∈ spans) → merge others = merge spans := by
  have merged := merged_merge upright
  have lines := (merge_spec upright).1
  refine ⟨merged.pairwise_first_lt, merged.upright, ?_, lines, ?_, ?_⟩
  · exact merged.apart.imp fun gap => ⟨_, Nat.lt_succ_self _, gap⟩
  · exact (merge_eq_merge_iff upright merged.upright).mpr lines
  · intro others same
    have upright' : ∀ s ∈ others, s.Upright := fun s mem => upright s ((same s).mp mem)
    refine (merge_eq_merge_iff upright upright').mpr fun n => ?_
    simp only [same]

/-- Nested and touching spans, two of them at the greatest number of a line. -/
theorem spans_at_the_last_number_are_merged :
    let spans : List LineSpan :=
      [⟨4294967295, 4294967295⟩, ⟨3, 5⟩, ⟨1, 1⟩, ⟨0, 2⟩, ⟨4294967294, 4294967294⟩, ⟨7, 7⟩]
    let merged : List LineSpan := [⟨0, 5⟩, ⟨7, 7⟩, ⟨4294967294, 4294967295⟩]
    (∀ s ∈ spans, s.Upright) ∧ merge spans = merged ∧ merge merged = merged ∧
      merge (spans.reverse ++ spans) = merged := by
  intro spans merged
  have upright : ∀ s ∈ spans, s.Upright := by decide
  have value : merge spans = merged := by decide
  obtain ⟨_, _, _, _, again, others⟩ := merged_spans_are_canonical upright
  rw [value] at again others
  exact ⟨upright, value, again, others _ (by simp)⟩

end LineSpan

end CodeIntel
