import CodeIntel.Edit.Apply
import CodeIntel.Edit.Lines
import CodeIntel.Proofs.Basic
import CodeIntel.Proofs.Text.Columns
import Mathlib.Data.List.Basic
import Mathlib.Data.List.Perm.Basic

namespace CodeIntel

/-- A part of a list, from `start` up to but not including `stop`, and what comes in its stead. -/
structure Patch (α : Type) where
  start : Nat
  stop : Nat
  filling : List α
deriving DecidableEq, Repr

namespace Patch

variable {α : Type}

def Covers (p : Patch α) (i : Nat) : Prop := p.start ≤ i ∧ i < p.stop

instance (p : Patch α) (i : Nat) : Decidable (p.Covers i) := inferInstanceAs (Decidable (_ ∧ _))

/-- Whether nothing is taken away: the filling is inserted. -/
def IsInsertion (p : Patch α) : Prop := p.start = p.stop

/-- Whether `p` inserts between two elements that `q` takes away. -/
def InsertsInside (p q : Patch α) : Prop := p.IsInsertion ∧ q.start < p.start ∧ p.start < q.stop

/-- Whether two patches claim one element, one inserts inside the other, or both insert at one
place. -/
def Clash (p q : Patch α) : Prop :=
  (∃ i, p.Covers i ∧ q.Covers i) ∨ p.InsertsInside q ∨ q.InsertsInside p ∨
    (p.IsInsertion ∧ q.IsInsertion ∧ p.start = q.start)

/-- Starts first, then ends. -/
def Le (p q : Patch α) : Prop := p.start < q.start ∨ (p.start = q.start ∧ p.stop ≤ q.stop)

/-- Whether `p` ends where `q` starts or before, and they do not both insert at one place. -/
def Before (p q : Patch α) : Prop :=
  p.stop ≤ q.start ∧ ¬(p.IsInsertion ∧ q.IsInsertion ∧ p.start = q.start)

def emptied (p : Patch α) : Patch α := { p with filling := [] }

/-- The elements that no patch covers, in their order. -/
def uncovered (ps : List (Patch α)) (xs : List α) (first : Nat) : List α :=
  ((xs.zipIdx first).filter fun x => ∀ p ∈ ps, ¬p.Covers x.2).map Prod.fst

/-- The list with patches in ascending order put in, from the place `done` on: what is kept before
the first, its filling, what is kept up to the second, and so on to what is kept behind the
last. -/
def weave (xs : List α) (done : Nat) : List (Patch α) → List α
  | [] => xs.drop done
  | p :: rest => (xs.take p.start).drop done ++ p.filling ++ weave xs p.stop rest

theorem clash_comm {p q : Patch α} : p.Clash q ↔ q.Clash p := by
  unfold Clash IsInsertion
  constructor
  · rintro (⟨i, hp, hq⟩ | h | h | ⟨hp, hq, eq⟩)
    · exact .inl ⟨i, hq, hp⟩
    · exact .inr (.inr (.inl h))
    · exact .inr (.inl h)
    · exact .inr (.inr (.inr ⟨hq, hp, eq.symm⟩))
  · rintro (⟨i, hq, hp⟩ | h | h | ⟨hq, hp, eq⟩)
    · exact .inl ⟨i, hp, hq⟩
    · exact .inr (.inr (.inl h))
    · exact .inr (.inl h)
    · exact .inr (.inr (.inr ⟨hp, hq, eq.symm⟩))

theorem Before.not_clash {p q : Patch α} (hp : p.start ≤ p.stop) (h : p.Before q) :
    ¬p.Clash q := by
  obtain ⟨apart, single⟩ := h
  unfold IsInsertion at single
  rintro (⟨i, ⟨_, below⟩, above, _⟩ | ⟨at', low, high⟩ | ⟨at', low, high⟩ | same)
  · omega
  · omega
  · omega
  · exact single same

/-- Two patches in ascending order clash unless the first is before the second. -/
theorem Le.before {p q : Patch α} (hq : q.start ≤ q.stop) (le : p.Le q) (h : ¬p.Clash q) :
    p.Before q := by
  refine ⟨?_, fun same => h (.inr (.inr (.inr same)))⟩
  by_contra overlap
  have first : p.start ≤ q.start := by
    rcases le with lt | ⟨eq, _⟩ <;> omega
  by_cases insertion : q.start = q.stop
  · have inside : p.start < q.start := by
      rcases le with lt | ⟨eq, ends⟩ <;> omega
    exact h (.inr (.inr (.inl ⟨insertion, inside, by omega⟩)))
  · exact h (.inl ⟨q.start, ⟨first, by omega⟩, Nat.le_refl _, by omega⟩)

theorem le_total (p q : Patch α) : p.Le q ∨ q.Le p := by
  unfold Le
  omega

/-- Two patches clash unless one of them is before the other. -/
theorem clash_iff {p q : Patch α} (hp : p.start ≤ p.stop) (hq : q.start ≤ q.stop) :
    p.Clash q ↔ ¬p.Before q ∧ ¬q.Before p := by
  constructor
  · intro clash
    exact ⟨fun before => before.not_clash hp clash,
      fun before => before.not_clash hq (clash_comm.mp clash)⟩
  · rintro ⟨notFirst, notSecond⟩
    by_contra free
    rcases le_total p q with le | le
    · exact notFirst (le.before hq free)
    · exact notSecond (le.before hp fun clash => free (clash_comm.mp clash))

theorem Before.trans {p q r : Patch α} (hq : q.start ≤ q.stop) (first : p.Before q)
    (second : q.Before r) : p.Before r := by
  unfold Before IsInsertion at *
  omega

theorem Before.asymm {p q : Patch α} (hp : p.start ≤ p.stop) (hq : q.start ≤ q.stop)
    (first : p.Before q) (second : q.Before p) : False := by
  unfold Before IsInsertion at *
  omega

theorem not_covers_of_lt {p : Patch α} {i : Nat} (h : i < p.start) : ¬p.Covers i := by
  unfold Covers
  omega

theorem uncovered_append (ps : List (Patch α)) (xs ys : List α) (first : Nat) :
    uncovered ps (xs ++ ys) first =
      uncovered ps xs first ++ uncovered ps ys (first + xs.length) := by
  simp [uncovered, List.zipIdx_append]

theorem mem_zipIdx_bounds {xs : List α} {first i : Nat} {x : α} (h : (x, i) ∈ xs.zipIdx first) :
    first ≤ i ∧ i < first + xs.length := by
  have ⟨low, high, _⟩ := List.mem_zipIdx h
  exact ⟨low, high⟩

theorem uncovered_eq_self {ps : List (Patch α)} {xs : List α} {first : Nat}
    (h : ∀ p ∈ ps, first + xs.length ≤ p.start) : uncovered ps xs first = xs := by
  unfold uncovered
  rw [List.filter_eq_self.mpr, List.zipIdx_map_fst]
  rintro ⟨x, i⟩ mem
  have bound := (mem_zipIdx_bounds mem).2
  simp only [decide_eq_true_eq]
  intro p hp
  exact not_covers_of_lt (Nat.lt_of_lt_of_le bound (h p hp))

theorem uncovered_eq_nil {p : Patch α} {ps : List (Patch α)} {xs : List α}
    (h : p.start + xs.length ≤ p.stop) (mem : p ∈ ps) : uncovered ps xs p.start = [] := by
  unfold uncovered
  rw [List.filter_eq_nil_iff.mpr, List.map_nil]
  rintro ⟨x, i⟩ hx free
  have ⟨low, high⟩ := mem_zipIdx_bounds hx
  simp only [decide_eq_true_eq] at free
  exact free p mem ⟨low, Nat.lt_of_lt_of_le high h⟩

theorem uncovered_cons_of_le {p : Patch α} {ps : List (Patch α)} {xs : List α} {first : Nat}
    (h : p.stop ≤ first) : uncovered (p :: ps) xs first = uncovered ps xs first := by
  unfold uncovered
  congr 1
  apply List.filter_congr
  rintro ⟨x, i⟩ mem
  have low := (mem_zipIdx_bounds mem).1
  have free : ¬p.Covers i := by
    unfold Covers
    omega
  simp [free]

/-- Patches in ascending order that all lie in a list of the given length. -/
structure Spread (length : Nat) (ps : List (Patch α)) : Prop where
  ordered : ps.Pairwise Before
  upright : ∀ p ∈ ps, p.start ≤ p.stop
  within : ∀ p ∈ ps, p.stop ≤ length

theorem Spread.tail {length : Nat} {p : Patch α} {ps : List (Patch α)}
    (h : Spread length (p :: ps)) : Spread length ps :=
  ⟨h.ordered.of_cons, fun q hq => h.upright q (.tail p hq), fun q hq => h.within q (.tail p hq)⟩

theorem Spread.head_le {length : Nat} {p : Patch α} {ps : List (Patch α)}
    (h : Spread length (p :: ps)) : ∀ q ∈ ps, p.stop ≤ q.start :=
  fun q hq => ((List.pairwise_cons.mp h.ordered).1 q hq).1

theorem drop_eq_piece_append {xs : List α} {a b : Nat} (h : a ≤ b) (hb : b ≤ xs.length) :
    xs.drop a = (xs.take b).drop a ++ xs.drop b := by
  calc xs.drop a = (xs.take b ++ xs.drop b).drop a := by rw [List.take_append_drop]
    _ = (xs.take b).drop a ++ xs.drop b :=
      List.drop_append_of_le_length (by rw [List.length_take]; omega)

/-- What is woven without its fillings is what no patch covers. -/
theorem weave_emptied {xs : List α} {ps : List (Patch α)} (h : Spread xs.length ps) {done : Nat}
    (start : ∀ p ∈ ps, done ≤ p.start) :
    weave xs done (ps.map emptied) = uncovered ps (xs.drop done) done := by
  induction ps generalizing done with
  | nil => exact (uncovered_eq_self (by simp)).symm
  | cons p rest ih =>
    have low := start p (by simp)
    have upright := h.upright p (by simp)
    have within := h.within p (by simp)
    have kept : uncovered (p :: rest) ((xs.take p.start).drop done) done =
        (xs.take p.start).drop done := by
      apply uncovered_eq_self
      intro q hq
      simp only [List.length_drop, List.length_take]
      rcases List.mem_cons.mp hq with rfl | hq
      · omega
      · have := h.head_le q hq
        omega
    have taken : uncovered (p :: rest) ((xs.take p.stop).drop p.start) p.start = [] :=
      uncovered_eq_nil (by simp only [List.length_drop, List.length_take]; omega) (by simp)
    rw [drop_eq_piece_append low (by omega), uncovered_append, kept]
    have behind : done + ((xs.take p.start).drop done).length = p.start := by
      simp only [List.length_drop, List.length_take]
      omega
    rw [behind, drop_eq_piece_append upright within, uncovered_append, taken, List.nil_append]
    have later : p.start + ((xs.take p.stop).drop p.start).length = p.stop := by
      simp only [List.length_drop, List.length_take]
      omega
    rw [later, uncovered_cons_of_le (Nat.le_refl _), ← ih h.tail h.head_le]
    simp [weave, emptied]

end Patch

end CodeIntel

namespace CodeIntel

theorem charsBefore_le_length {lines : List (List Char)} {n : Nat} {line : List Char}
    (h : lines[n]? = some line) :
    (lines.take n).flatten.length + line.length ≤ lines.flatten.length := by
  obtain ⟨hn, rfl⟩ := List.getElem?_eq_some_iff.mp h
  have split : lines.flatten.length =
      (lines.take n).flatten.length + (lines.drop n).flatten.length := by
    rw [← List.length_append, ← List.flatten_append, List.take_append_drop]
  rw [split, List.drop_eq_getElem_cons hn, List.flatten_cons, List.length_append]
  omega

theorem dropLastIf_length_le (last : Char) (cs : List Char) :
    (dropLastIf last cs).length ≤ cs.length := by
  unfold dropLastIf
  split
  · rw [List.length_dropLast]
    omega
  · exact Nat.le_refl _

theorem lineBody_length_le (line : List Char) : (lineBody line).length ≤ line.length :=
  Nat.le_trans (dropLastIf_length_le _ _) (dropLastIf_length_le _ _)

theorem offset_le_length {text : List Char} {p : Position} {n : Nat}
    (h : offset text p = .ok n) : n ≤ text.length := by
  simp only [offset] at h
  split at h
  · cases h
    exact Nat.le_refl _
  · split at h
    next => simp at h
    next line found =>
      split at h
      · simp at h
      · cases h
        have bound := charsBefore_le_length found
        rw [addressLines_flatten] at bound
        have chars := charsAtColumn_le_length (lineBody line) p.character.toNat
        have body := lineBody_length_le line
        omega

open List (Forall₂)

/-- The place of an edit in a text and what it puts there. -/
structure Sits (text : List Char) (edit : TextEdit) (p : Patch Char) : Prop where
  start : offset text edit.range.start = .ok p.start
  stop : offset text edit.range.stop = .ok p.stop
  filling : edit.newText = p.filling
  upright : p.start ≤ p.stop

theorem Sits.unique {text : List Char} {edit : TextEdit} {p q : Patch Char}
    (hp : Sits text edit p) (hq : Sits text edit q) : p = q := by
  obtain ⟨start, stop, filling⟩ := p
  obtain ⟨start', stop', filling'⟩ := q
  cases hp.start.symm.trans hq.start
  cases hp.stop.symm.trans hq.stop
  cases hp.filling.symm.trans hq.filling
  rfl

def PlacedEdit.patch (e : PlacedEdit) : Patch Char := ⟨e.start, e.stop, e.newText⟩

theorem place_eq_ok_iff {text : List Char} {number : Nat} {edit : TextEdit} {e : PlacedEdit} :
    place text number edit = .ok e ↔ Sits text edit e.patch ∧ e.number = number := by
  constructor
  · intro h
    obtain ⟨start, hs, h⟩ := bind_eq_ok_iff.mp h
    obtain ⟨stop, ht, h⟩ := bind_eq_ok_iff.mp h
    rw [mapError_eq_ok_iff] at hs ht
    split at h
    next => cases h
    next upright =>
      cases h
      exact ⟨⟨hs, ht, rfl, Nat.not_lt.mp upright⟩, rfl⟩
  · rintro ⟨⟨hs, ht, filling, upright⟩, rfl⟩
    have upright : ¬e.stop < e.start := Nat.not_lt.mpr upright
    unfold place
    simp only [hs, ht, mapError_ok, ok_bind, PlacedEdit.patch, upright, if_false]
    rw [filling]
    rfl

/-- Placing succeeds for edits that all have a place, and finds those places. -/
theorem placeFrom_eq_ok_iff {text : List Char} {edits : List TextEdit} {number : Nat}
    {patches : List (Patch Char)} :
    (∃ placed, placeFrom text number edits = .ok placed ∧ placed.map PlacedEdit.patch = patches) ↔
      Forall₂ (Sits text) edits patches := by
  induction edits generalizing number patches with
  | nil =>
    constructor
    · rintro ⟨placed, h, rfl⟩
      cases h
      exact .nil
    · rintro ⟨⟩
      exact ⟨[], rfl, rfl⟩
  | cons edit rest ih =>
    constructor
    · rintro ⟨placed, h, rfl⟩
      obtain ⟨e, first, h⟩ := bind_eq_ok_iff.mp h
      obtain ⟨es, more, h⟩ := bind_eq_ok_iff.mp h
      cases h
      exact .cons (place_eq_ok_iff.mp first).1 (ih.mp ⟨es, more, rfl⟩)
    · rintro (_ | ⟨head, tail⟩)
      rename_i p ps
      obtain ⟨es, more, rfl⟩ : ∃ placed, placeFrom text (number + 1) rest = .ok placed ∧
          placed.map PlacedEdit.patch = ps := ih.mpr tail
      have first : place text number edit = .ok ⟨p.start, p.stop, number, p.filling⟩ :=
        place_eq_ok_iff.mpr ⟨head, rfl⟩
      exact ⟨⟨p.start, p.stop, number, p.filling⟩ :: es,
        bind_eq_ok_iff.mpr ⟨_, first, bind_eq_ok_iff.mpr ⟨_, more, rfl⟩⟩, rfl⟩

theorem Sits.within {text : List Char} {edit : TextEdit} {p : Patch Char}
    (h : Sits text edit p) : p.stop ≤ text.length :=
  offset_le_length h.stop

theorem mem_of_forall₂_right {α β : Type} {r : α → β → Prop} {xs : List α} {ys : List β}
    (h : Forall₂ r xs ys) {y : β} (mem : y ∈ ys) : ∃ x ∈ xs, r x y := by
  induction h with
  | nil => simp at mem
  | @cons x z xs ys head _ ih =>
    rcases List.mem_cons.mp mem with rfl | mem
    · exact ⟨x, by simp, head⟩
    · obtain ⟨other, found, related⟩ := ih mem
      exact ⟨other, .tail x found, related⟩

theorem pairwise_of_forall₂ {α β : Type} {r : α → β → Prop} {s : α → α → Prop} {xs : List α}
    {ys : List β} (h : Forall₂ r xs ys) (pairwise : xs.Pairwise s) :
    ys.Pairwise fun p q => ∃ a b, r a p ∧ r b q ∧ s a b := by
  induction h with
  | nil => exact .nil
  | @cons x y xs ys head tail ih =>
    have ⟨first, rest⟩ := List.pairwise_cons.mp pairwise
    refine List.pairwise_cons.mpr ⟨?_, ih rest⟩
    intro z hz
    obtain ⟨w, hw, related⟩ := mem_of_forall₂_right tail hz
    exact ⟨x, w, head, related, first w hw⟩

theorem conflicts_eq_false_iff {prev next : PlacedEdit} :
    prev.conflicts next = false ↔ prev.patch.Before next.patch := by
  simp only [PlacedEdit.conflicts, PlacedEdit.isInsertion, PlacedEdit.patch, Patch.Before,
    Patch.IsInsertion, Bool.or_eq_false_iff, Bool.and_eq_false_iff, decide_eq_false_iff_not,
    not_and_or, Nat.not_lt, or_assoc]

/-- Neighbours are enough: what is before its neighbour is before all that follow. -/
theorem firstConflict_eq_none_iff {es : List PlacedEdit} (upright : ∀ e ∈ es, e.start ≤ e.stop) :
    firstConflict es = none ↔ (es.map PlacedEdit.patch).Pairwise Patch.Before := by
  induction es with
  | nil => simp [firstConflict]
  | cons prev es ih =>
    cases es with
    | nil => simp [firstConflict]
    | cons next rest =>
      have ih := ih fun e he => upright e (.tail prev he)
      unfold firstConflict
      cases meet : prev.conflicts next with
      | true =>
        have apart : ¬prev.patch.Before next.patch := by
          rw [← conflicts_eq_false_iff, meet]
          simp
        simp [apart]
      | false =>
        have before := conflicts_eq_false_iff.mp meet
        rw [if_neg (by simp), ih]
        refine ⟨fun h => List.pairwise_cons.mpr ⟨?_, h⟩, List.Pairwise.of_cons⟩
        intro p hp
        rcases List.mem_cons.mp hp with rfl | hp
        · exact before
        · have later := (List.pairwise_cons.mp h).1 p hp
          exact before.trans (upright next (by simp)) later

/-- From the last to the first, each edit leaves the text before it as it was. -/
theorem spliceAll_eq_weave {text : List Char} {es : List PlacedEdit} {done : Nat}
    (h : Patch.Spread text.length (es.map PlacedEdit.patch)) (hd : done ≤ text.length)
    (start : ∀ e ∈ es, done ≤ e.start) :
    spliceAll text es = text.take done ++ Patch.weave text done (es.map PlacedEdit.patch) := by
  induction es generalizing done with
  | nil => exact (List.take_append_drop done text).symm
  | cons e rest ih =>
    have low := start e (by simp)
    have upright : e.start ≤ e.stop := h.upright e.patch (by simp)
    have within : e.stop ≤ text.length := h.within e.patch (by simp)
    have later : ∀ q ∈ rest, e.stop ≤ q.start := fun q hq =>
      h.head_le q.patch (List.mem_map_of_mem hq)
    have behind := ih h.tail within later
    have kept : (spliceAll text rest).take e.start = text.take e.start := by
      rw [behind, List.take_append_of_le_length (by rw [List.length_take]; omega), List.take_take]
      congr 1
      omega
    have rest' : (spliceAll text rest).drop e.stop =
        Patch.weave text e.stop (rest.map PlacedEdit.patch) := by
      rw [behind, List.drop_left' (by rw [List.length_take]; omega)]
    have before : text.take e.start = text.take done ++ (text.take e.start).drop done := by
      conv_lhs => rw [← List.take_append_drop done (text.take e.start), List.take_take]
      congr 2
      omega
    calc spliceAll text (e :: rest)
        = (spliceAll text rest).take e.start ++ e.newText ++ (spliceAll text rest).drop e.stop := rfl
      _ = text.take done ++ Patch.weave text done ((e :: rest).map PlacedEdit.patch) := by
        rw [kept, rest', before]
        simp [Patch.weave, PlacedEdit.patch]

theorem PlacedEdit.le_iff {a b : PlacedEdit} : a.le b = true ↔ a.patch.Le b.patch := by
  simp [PlacedEdit.le, PlacedEdit.patch, Patch.Le]

theorem PlacedEdit.le_total (a b : PlacedEdit) : a.le b = true ∨ b.le a = true := by
  simp only [PlacedEdit.le_iff, Patch.Le, PlacedEdit.patch]
  omega

theorem PlacedEdit.le_trans (a b c : PlacedEdit) (hab : a.le b = true) (hbc : b.le c = true) :
    a.le c = true := by
  simp only [PlacedEdit.le_iff, Patch.Le, PlacedEdit.patch] at *
  omega

theorem sorted_patches {placed : List PlacedEdit} :
    ((sortBy PlacedEdit.le placed).map PlacedEdit.patch).Pairwise Patch.Le := by
  have sorted := sortBy_pairwise PlacedEdit.le_total PlacedEdit.le_trans placed
  exact List.pairwise_map.mpr (sorted.imp PlacedEdit.le_iff.mp)

theorem sorted_perm (placed : List PlacedEdit) :
    ((sortBy PlacedEdit.le placed).map PlacedEdit.patch).Perm (placed.map PlacedEdit.patch) :=
  (sortBy_perm _ _).map _

/-- Patches in ascending order of which no two clash are each before those that follow. -/
theorem Patch.pairwise_before {α : Type} {ps : List (Patch α)}
    (upright : ∀ p ∈ ps, p.start ≤ p.stop) (sorted : ps.Pairwise Patch.Le)
    (apart : ps.Pairwise fun p q => ¬p.Clash q) : ps.Pairwise Patch.Before := by
  have both := List.pairwise_and_iff.mpr ⟨sorted, apart⟩
  exact both.imp_of_mem fun _ hq h => Patch.Le.before (upright _ hq) h.1 h.2

theorem Patch.pairwise_not_clash {α : Type} {ps : List (Patch α)}
    (upright : ∀ p ∈ ps, p.start ≤ p.stop) (ordered : ps.Pairwise Patch.Before) :
    ps.Pairwise fun p q => ¬p.Clash q :=
  ordered.imp_of_mem fun hp _ h => h.not_clash (upright _ hp)

/-- There is one order in which each patch is before those that follow. -/
theorem Patch.eq_of_perm {α : Type} {ps qs : List (Patch α)}
    (upright : ∀ p ∈ ps, p.start ≤ p.stop) (perm : ps.Perm qs) (hp : ps.Pairwise Patch.Before)
    (hq : qs.Pairwise Patch.Before) : ps = qs := by
  refine perm.eq_of_pairwise ?_ hp hq
  intro p q mem mem' first second
  exact (first.asymm (upright p mem) (upright q (perm.mem_iff.mpr mem')) second).elim

theorem placeFrom_of_applyEdits {text : List Char} {edits : List TextEdit} {result : List Char}
    (h : applyEdits text edits = .ok result) : ∃ placed, placeFrom text 1 edits = .ok placed := by
  obtain ⟨placed, found, _⟩ := bind_eq_ok_iff.mp h
  exact ⟨placed, found⟩

theorem applyEdits_of_placed {text : List Char} {edits : List TextEdit} {placed : List PlacedEdit}
    (h : placeFrom text 1 edits = .ok placed) {result : List Char} :
    applyEdits text edits = .ok result ↔
      firstConflict (sortBy PlacedEdit.le placed) = none ∧
        result = spliceAll text (sortBy PlacedEdit.le placed) := by
  simp only [applyEdits, h, ok_bind]
  cases firstConflict (sortBy PlacedEdit.le placed) with
  | some pair => simp [throw, throwThe, MonadExceptOf.throw]
  | none => simp [pure, Except.pure, eq_comm]

/-- Success means that the edits have places of which no two clash, and that these places are
filled in the text as it was. -/
theorem applyEdits_eq_ok_iff {text : List Char} {edits : List TextEdit} {result : List Char} :
    applyEdits text edits = .ok result ↔
      ∃ patches, (∃ found, Forall₂ (Sits text) edits found ∧ found.Perm patches) ∧
        Patch.Spread text.length patches ∧ result = Patch.weave text 0 patches := by
  have bounds {placed : List PlacedEdit}
      (sits : Forall₂ (Sits text) edits (placed.map PlacedEdit.patch)) :
      ∀ p ∈ (sortBy PlacedEdit.le placed).map PlacedEdit.patch,
        p.start ≤ p.stop ∧ p.stop ≤ text.length := by
    intro p hp
    obtain ⟨_, _, h⟩ := mem_of_forall₂_right sits ((sorted_perm placed).mem_iff.mp hp)
    exact ⟨h.upright, h.within⟩
  have woven {placed : List PlacedEdit}
      (spread : Patch.Spread text.length ((sortBy PlacedEdit.le placed).map PlacedEdit.patch)) :
      spliceAll text (sortBy PlacedEdit.le placed) =
        Patch.weave text 0 ((sortBy PlacedEdit.le placed).map PlacedEdit.patch) := by
    rw [spliceAll_eq_weave spread (Nat.zero_le _) (fun _ _ => Nat.zero_le _)]
    rfl
  constructor
  · intro h
    obtain ⟨placed, found⟩ := placeFrom_of_applyEdits h
    obtain ⟨free, rfl⟩ := (applyEdits_of_placed found).mp h
    have sits := placeFrom_eq_ok_iff.mp ⟨placed, found, rfl⟩
    have bound := bounds sits
    have ordered := (firstConflict_eq_none_iff fun e he =>
      (bound e.patch (List.mem_map_of_mem he)).1).mp free
    have spread : Patch.Spread text.length _ :=
      ⟨ordered, fun p hp => (bound p hp).1, fun p hp => (bound p hp).2⟩
    exact ⟨_, ⟨_, sits, (sorted_perm placed).symm⟩, spread, woven spread⟩
  · rintro ⟨patches, ⟨found, sits, perm⟩, spread, rfl⟩
    obtain ⟨placed, found, rfl⟩ := placeFrom_eq_ok_iff.mpr sits
    have bound := bounds sits
    have perm := (sorted_perm placed).trans perm
    have apart := (Patch.pairwise_not_clash spread.upright spread.ordered).perm perm.symm
      fun h clash => h (Patch.clash_comm.mp clash)
    have ordered := Patch.pairwise_before (fun p hp => (bound p hp).1) sorted_patches apart
    have same := Patch.eq_of_perm (fun p hp => (bound p hp).1) perm ordered spread.ordered
    have free := (firstConflict_eq_none_iff fun e he =>
      (bound e.patch (List.mem_map_of_mem he)).1).mpr ordered
    refine (applyEdits_of_placed found).mpr ⟨free, ?_⟩
    rw [woven (by rw [same]; exact spread), same]

/-- The order of the edits does not matter. -/
theorem applyEdits_perm {text : List Char} {edits others : List TextEdit} {result : List Char}
    (perm : others.Perm edits) (h : applyEdits text edits = .ok result) :
    applyEdits text others = .ok result := by
  obtain ⟨patches, ⟨found, sits, order⟩, spread, rfl⟩ := applyEdits_eq_ok_iff.mp h
  obtain ⟨moved, sits', order'⟩ := List.perm_comp_forall₂ perm sits
  exact applyEdits_eq_ok_iff.mpr ⟨patches, ⟨moved, sits', order'.trans order⟩, spread, rfl⟩

end CodeIntel
