import CodeIntel.Proofs.Edit.Substitution
import CodeIntel.Tool.Edit

namespace CodeIntel

open List (Forall₂)

/-- How many bytes the first `n` characters of a text have. -/
def bytesBefore (text : List Char) (n : Nat) : Nat := (utf8 (text.take n)).length

/-- The number of bytes before a position. -/
def byteOffset (text : List Char) (p : Position) : Except OffsetError Nat :=
  (offset text p).map (bytesBefore text)

/-- The bytes of a text that an edit takes away, and those it puts there. -/
structure ByteSpan (text : List Char) (edit : TextEdit) (p : Patch UInt8) : Prop where
  start : byteOffset text edit.range.start = .ok p.start
  stop : byteOffset text edit.range.stop = .ok p.stop
  filling : utf8 edit.newText = p.filling

/-- A patch of the characters of a text as one of its bytes. -/
def Patch.inBytes (text : List Char) (p : Patch Char) : Patch UInt8 :=
  ⟨bytesBefore text p.start, bytesBefore text p.stop, utf8 p.filling⟩

theorem utf8_take (text : List Char) (n : Nat) :
    utf8 (text.take n) = (utf8 text).take (bytesBefore text n) := by
  have split : utf8 text = utf8 (text.take n) ++ utf8 (text.drop n) := by
    rw [← utf8_append, List.take_append_drop]
  rw [split, bytesBefore, List.take_left]

theorem utf8_drop (text : List Char) (n : Nat) :
    utf8 (text.drop n) = (utf8 text).drop (bytesBefore text n) := by
  have split : utf8 text = utf8 (text.take n) ++ utf8 (text.drop n) := by
    rw [← utf8_append, List.take_append_drop]
  rw [split, bytesBefore, List.drop_left]

theorem bytesBefore_take {text : List Char} {m n : Nat} (h : m ≤ n) :
    bytesBefore (text.take n) m = bytesBefore text m := by
  rw [bytesBefore, bytesBefore, List.take_take, Nat.min_eq_left h]

theorem utf8_length_pos {cs : List Char} (h : cs ≠ []) : 0 < (utf8 cs).length := by
  cases cs with
  | nil => exact absurd rfl h
  | cons c cs =>
    rw [utf8_cons, List.length_append, String.length_utf8EncodeChar]
    have := c.utf8Size_pos
    omega

theorem bytesBefore_lt (text : List Char) {m n : Nat} (h : m < n) (hn : n ≤ text.length) :
    bytesBefore text m < bytesBefore text n := by
  have split : text.take n = text.take m ++ (text.take n).drop m := by
    conv_lhs => rw [← List.take_append_drop m (text.take n), List.take_take]
    congr 2
    omega
  have more : (text.take n).drop m ≠ [] := by
    intro empty
    have := congrArg List.length empty
    simp only [List.length_drop, List.length_take, List.length_nil] at this
    omega
  have pos := utf8_length_pos more
  calc bytesBefore text m < (utf8 (text.take m)).length + (utf8 ((text.take n).drop m)).length := by
        rw [bytesBefore]
        omega
    _ = bytesBefore text n := by
      rw [bytesBefore, split, utf8_append, List.length_append, ← split]

theorem bytesBefore_lt_iff (text : List Char) {m n : Nat} (hm : m ≤ text.length)
    (hn : n ≤ text.length) : bytesBefore text m < bytesBefore text n ↔ m < n := by
  refine ⟨fun h => ?_, fun h => bytesBefore_lt text h hn⟩
  by_contra le
  rcases Nat.lt_or_eq_of_le (Nat.not_lt.mp le) with lt | rfl
  · have := bytesBefore_lt text lt hm
    omega
  · omega

theorem bytesBefore_le_iff (text : List Char) {m n : Nat} (hm : m ≤ text.length)
    (hn : n ≤ text.length) : bytesBefore text m ≤ bytesBefore text n ↔ m ≤ n := by
  have := bytesBefore_lt_iff text hn hm
  omega

theorem bytesBefore_inj (text : List Char) {m n : Nat} (hm : m ≤ text.length)
    (hn : n ≤ text.length) : bytesBefore text m = bytesBefore text n ↔ m = n := by
  have := bytesBefore_le_iff text hm hn
  have := bytesBefore_le_iff text hn hm
  omega

theorem bytesBefore_le_length (text : List Char) (n : Nat) :
    bytesBefore text n ≤ (utf8 text).length := by
  have := congrArg List.length (utf8_take text n)
  rw [List.length_take, bytesBefore] at this
  rw [bytesBefore]
  omega

theorem utf8_weave {text : List Char} {ps : List (Patch Char)}
    (h : Patch.Spread text.length ps) {done : Nat} (start : ∀ p ∈ ps, done ≤ p.start) :
    utf8 (Patch.weave text done ps) =
      Patch.weave (utf8 text) (bytesBefore text done) (ps.map (Patch.inBytes text)) := by
  induction ps generalizing done with
  | nil => exact utf8_drop text done
  | cons p rest ih =>
    have piece : utf8 ((text.take p.start).drop done) =
        ((utf8 text).take (bytesBefore text p.start)).drop (bytesBefore text done) := by
      rw [utf8_drop, utf8_take, bytesBefore_take (start p (by simp))]
    simp only [Patch.weave, List.map_cons, utf8_append, piece, ih h.tail h.head_le]
    rfl

theorem Sits.byteSpan {text : List Char} {edit : TextEdit} {p : Patch Char}
    (h : Sits text edit p) : ByteSpan text edit (p.inBytes text) where
  start := by
    rw [byteOffset, h.start]
    rfl
  stop := by
    rw [byteOffset, h.stop]
    rfl
  filling := by
    rw [h.filling]
    rfl

theorem Patch.before_inBytes_iff {text : List Char} {p q : Patch Char}
    (hp : p.start ≤ p.stop ∧ p.stop ≤ text.length) (hq : q.start ≤ q.stop ∧ q.stop ≤ text.length) :
    (p.inBytes text).Before (q.inBytes text) ↔ p.Before q := by
  have p₁ : p.start ≤ text.length := by omega
  have q₁ : q.start ≤ text.length := by omega
  simp only [Patch.Before, Patch.IsInsertion, Patch.inBytes, bytesBefore_le_iff text hp.2 q₁,
    bytesBefore_inj text p₁ hp.2, bytesBefore_inj text q₁ hq.2, bytesBefore_inj text p₁ q₁]

theorem Patch.clash_inBytes_iff {text : List Char} {p q : Patch Char}
    (hp : p.start ≤ p.stop ∧ p.stop ≤ text.length) (hq : q.start ≤ q.stop ∧ q.stop ≤ text.length) :
    (p.inBytes text).Clash (q.inBytes text) ↔ p.Clash q := by
  have hp' : (p.inBytes text).start ≤ (p.inBytes text).stop :=
    (bytesBefore_le_iff text (by omega) hp.2).mpr hp.1
  have hq' : (q.inBytes text).start ≤ (q.inBytes text).stop :=
    (bytesBefore_le_iff text (by omega) hq.2).mpr hq.1
  rw [Patch.clash_iff hp' hq', Patch.clash_iff hp.1 hq.1, Patch.before_inBytes_iff hp hq,
    Patch.before_inBytes_iff hq hp]

theorem Patch.Spread.inBytes {text : List Char} {ps : List (Patch Char)}
    (h : Patch.Spread text.length ps) :
    Patch.Spread (utf8 text).length (ps.map (Patch.inBytes text)) where
  ordered := by
    have bound : ∀ p ∈ ps, p.start ≤ p.stop ∧ p.stop ≤ text.length :=
      fun p hp => ⟨h.upright p hp, h.within p hp⟩
    exact List.pairwise_map.mpr <| h.ordered.imp_of_mem fun hp hq before =>
      (Patch.before_inBytes_iff (bound _ hp) (bound _ hq)).mpr before
  upright := by
    intro p hp
    obtain ⟨q, hq, rfl⟩ := List.mem_map.mp hp
    have upright := h.upright q hq
    have within := h.within q hq
    exact (bytesBefore_le_iff text (by omega) within).mpr upright
  within := by
    intro p hp
    obtain ⟨q, _, rfl⟩ := List.mem_map.mp hp
    exact bytesBefore_le_length text q.stop

theorem Patch.Spread.sorted {α : Type} {length : Nat} {ps : List (Patch α)}
    (h : Patch.Spread length ps) : ps.Pairwise Patch.Le := by
  refine h.ordered.imp_of_mem fun hp hq before => ?_
  have hp := h.upright _ hp
  have hq := h.upright _ hq
  unfold Patch.Before Patch.IsInsertion at before
  unfold Patch.Le
  omega

/-- Applying edits replaces all their spans at once: with the spans in ascending order, the bytes
of the result are those kept before the first span, its new text, those kept up to the second
span, and so on to those kept behind the last. All bytes outside the spans are kept in their
order, and so every order of the edits gives the same result. -/
theorem applyEdits_replaces_at_once {text : List Char} {edits : List TextEdit}
    {result : List Char} (h : applyEdits text edits = .ok result) :
    ∃ found spans, Forall₂ (ByteSpan text) edits found ∧ spans.Perm found ∧
      spans.Pairwise Patch.Le ∧ Patch.Spread (utf8 text).length spans ∧
      utf8 result = Patch.weave (utf8 text) 0 spans ∧
      Patch.weave (utf8 text) 0 (spans.map Patch.emptied) =
        Patch.uncovered spans (utf8 text) 0 ∧
      ∀ others : List TextEdit, others.Perm edits → applyEdits text others = .ok result := by
  obtain ⟨patches, ⟨found, sits, order⟩, spread, rfl⟩ := applyEdits_eq_ok_iff.mp h
  have spread' := spread.inBytes
  refine ⟨found.map (Patch.inBytes text), patches.map (Patch.inBytes text), ?_,
    (order.map _).symm, spread'.sorted, spread', ?_, ?_, fun others perm => applyEdits_perm perm h⟩
  · exact List.forall₂_map_right_iff.mpr (sits.imp fun _ _ => Sits.byteSpan)
  · rw [utf8_weave spread (fun _ _ => Nat.zero_le _)]
    rfl
  · rw [Patch.weave_emptied spread' (fun _ _ => Nat.zero_le _)]
    rfl

/-- A replacement behind a line break, an emoji taken away, and an insertion that touches it. -/
theorem applyEdits_replaces_touching_edits_at_once :
    let text := ['a', '😀', 'b', '\r', '\n', 'c']
    let edits : List TextEdit :=
      [⟨⟨⟨1, 0⟩, ⟨1, 1⟩⟩, ['d', 'd']⟩, ⟨⟨⟨0, 1⟩, ⟨0, 3⟩⟩, []⟩, ⟨⟨⟨0, 1⟩, ⟨0, 1⟩⟩, ['é']⟩]
    let result := ['a', 'é', 'b', '\r', '\n', 'd', 'd']
    applyEdits text edits = .ok result ∧
      ∃ found spans, Forall₂ (ByteSpan text) edits found ∧ spans.Perm found ∧
        spans.Pairwise Patch.Le ∧ Patch.Spread (utf8 text).length spans ∧
        utf8 result = Patch.weave (utf8 text) 0 spans ∧
        Patch.weave (utf8 text) 0 (spans.map Patch.emptied) =
          Patch.uncovered spans (utf8 text) 0 ∧
        ∀ others : List TextEdit, others.Perm edits → applyEdits text others = .ok result :=
  ⟨rfl, applyEdits_replaces_at_once rfl⟩

end CodeIntel

namespace CodeIntel

open List (Forall₂)

theorem ByteSpan.unique {text : List Char} {edit : TextEdit} {p q : Patch UInt8}
    (hp : ByteSpan text edit p) (hq : ByteSpan text edit q) : p = q := by
  obtain ⟨start, stop, filling⟩ := p
  obtain ⟨start', stop', filling'⟩ := q
  cases hp.start.symm.trans hq.start
  cases hp.stop.symm.trans hq.stop
  cases hp.filling.symm.trans hq.filling
  rfl

theorem byteOffset_eq_ok_iff {text : List Char} {p : Position} {n : Nat} :
    byteOffset text p = .ok n ↔ ∃ m, offset text p = .ok m ∧ bytesBefore text m = n := by
  unfold byteOffset
  cases offset text p <;> simp [Except.map]

/-- An edit has a place in a text if its span in bytes is not reversed. -/
theorem ByteSpan.exists_sits {text : List Char} {edit : TextEdit} {p : Patch UInt8}
    (h : ByteSpan text edit p) (upright : p.start ≤ p.stop) : ∃ q, Sits text edit q := by
  obtain ⟨m, start, hm⟩ := byteOffset_eq_ok_iff.mp h.start
  obtain ⟨n, stop, hn⟩ := byteOffset_eq_ok_iff.mp h.stop
  have bound := offset_le_length start
  have bound' := offset_le_length stop
  exact ⟨⟨m, n, edit.newText⟩, start, stop, rfl,
    (bytesBefore_le_iff text bound bound').mp (by omega)⟩

theorem exists_forall₂ {α β : Type} {r : α → β → Prop} {xs : List α} (h : ∀ x ∈ xs, ∃ y, r x y) :
    ∃ ys, Forall₂ r xs ys := by
  induction xs with
  | nil => exact ⟨[], .nil⟩
  | cons x xs ih =>
    obtain ⟨y, head⟩ := h x (by simp)
    obtain ⟨ys, tail⟩ := ih fun z hz => h z (.tail x hz)
    exact ⟨y :: ys, .cons head tail⟩

/-- Whether every edit has a span in a text that is not reversed, and no two spans clash. -/
structure Acceptable (text : List Char) (edits : List TextEdit) : Prop where
  resolved : ∀ edit ∈ edits, ∃ p, ByteSpan text edit p ∧ p.start ≤ p.stop
  apart : edits.Pairwise fun a b =>
    ∀ p q, ByteSpan text a p → ByteSpan text b q → ¬p.Clash q

theorem acceptable_of_applyEdits {text : List Char} {edits : List TextEdit} {result : List Char}
    (h : applyEdits text edits = .ok result) : Acceptable text edits := by
  obtain ⟨patches, ⟨found, sits, order⟩, spread, rfl⟩ := applyEdits_eq_ok_iff.mp h
  have spans : Forall₂ (ByteSpan text) edits (found.map (Patch.inBytes text)) :=
    List.forall₂_map_right_iff.mpr (sits.imp fun _ _ => Sits.byteSpan)
  have upright : ∀ p ∈ found.map (Patch.inBytes text), p.start ≤ p.stop := by
    intro p hp
    exact spread.inBytes.upright p ((order.map _).mem_iff.mp hp)
  constructor
  · intro edit he
    obtain ⟨p, hp, span⟩ := mem_of_forall₂_right (Forall₂.flip spans) he
    exact ⟨p, span, upright p hp⟩
  · have apart := Patch.pairwise_not_clash spread.inBytes.upright spread.inBytes.ordered
    have apart := apart.perm (order.map _).symm fun h clash => h (Patch.clash_comm.mp clash)
    refine (pairwise_of_forall₂ (Forall₂.flip spans) apart).imp ?_
    rintro a b ⟨p', q', hp', hq', free⟩ p q hp hq
    rw [hp.unique hp', hq.unique hq']
    exact free

/-- Edits that all have a place are applied if no two places clash. -/
theorem exists_applyEdits {text : List Char} {edits : List TextEdit} {found : List (Patch Char)}
    (sits : Forall₂ (Sits text) edits found) (apart : found.Pairwise fun p q => ¬p.Clash q) :
    ∃ result, applyEdits text edits = .ok result := by
  obtain ⟨placed, _, rfl⟩ :
      ∃ placed, placeFrom text 1 edits = .ok placed ∧ placed.map PlacedEdit.patch = found :=
    placeFrom_eq_ok_iff.mpr sits
  have perm := sorted_perm placed
  have bound : ∀ p ∈ (sortBy PlacedEdit.le placed).map PlacedEdit.patch,
      p.start ≤ p.stop ∧ p.stop ≤ text.length := by
    intro p hp
    obtain ⟨_, _, place⟩ := mem_of_forall₂_right sits (perm.mem_iff.mp hp)
    exact ⟨place.upright, place.within⟩
  have apart := apart.perm perm.symm fun h clash => h (Patch.clash_comm.mp clash)
  have ordered := Patch.pairwise_before (fun p hp => (bound p hp).1) sorted_patches apart
  have spread : Patch.Spread text.length _ :=
    ⟨ordered, fun p hp => (bound p hp).1, fun p hp => (bound p hp).2⟩
  exact ⟨_, applyEdits_eq_ok_iff.mpr ⟨_, ⟨_, sits, perm.symm⟩, spread, rfl⟩⟩

/-- No two places of edits that are applied clash. -/
theorem pairwise_of_applyEdits {text : List Char} {edits : List TextEdit}
    {found : List (Patch Char)} (sits : Forall₂ (Sits text) edits found) {result : List Char}
    (h : applyEdits text edits = .ok result) : found.Pairwise fun p q => ¬p.Clash q := by
  obtain ⟨patches, ⟨found', sits', order⟩, spread, _⟩ := applyEdits_eq_ok_iff.mp h
  have unique : Relator.RightUnique (Sits text) := fun _ _ _ hp hq => hp.unique hq
  have same : found' = found := List.right_unique_forall₂' unique sits' sits
  have apart := Patch.pairwise_not_clash spread.upright spread.ordered
  exact (same ▸ apart.perm order.symm) fun h clash => h (Patch.clash_comm.mp clash)

/-- Edits that all have a place are refused as overlapping if two places clash. -/
theorem applyEdits_overlap {text : List Char} {edits : List TextEdit} {found : List (Patch Char)}
    (sits : Forall₂ (Sits text) edits found) (clash : ¬found.Pairwise fun p q => ¬p.Clash q) :
    ∃ first second, applyEdits text edits = .error (.overlap first second) := by
  obtain ⟨placed, located, _⟩ := placeFrom_eq_ok_iff.mpr sits
  cases conflict : firstConflict (sortBy PlacedEdit.le placed) with
  | none =>
    have done := (applyEdits_of_placed located).mpr ⟨conflict, rfl⟩
    exact absurd (pairwise_of_applyEdits sits done) clash
  | some pair =>
    refine ⟨min pair.1.number pair.2.number, max pair.1.number pair.2.number, ?_⟩
    simp only [applyEdits, located, ok_bind, conflict]
    rfl

theorem Acceptable.applyEdits {text : List Char} {edits : List TextEdit}
    (h : Acceptable text edits) : ∃ result, applyEdits text edits = .ok result := by
  have places : ∀ edit ∈ edits, ∃ q, Sits text edit q := by
    intro edit he
    obtain ⟨p, span, upright⟩ := h.resolved edit he
    exact span.exists_sits upright
  obtain ⟨found, sits⟩ := exists_forall₂ places
  refine exists_applyEdits sits ((pairwise_of_forall₂ sits h.apart).imp ?_)
  rintro p q ⟨a, b, hp, hq, free⟩ clash
  have clash := (Patch.clash_inBytes_iff ⟨hp.upright, hp.within⟩ ⟨hq.upright, hq.within⟩).mpr clash
  exact free _ _ hp.byteSpan hq.byteSpan clash

theorem applied_eq_ok_iff {text : List Char} {edits : List TextEdit} {result : List Char} :
    EditFile.applied text edits = .ok result ↔ applyEdits text edits = .ok result := by
  unfold EditFile.applied
  exact mapError_eq_ok_iff

/-- Edits are applied exactly if each has a span in the text that is not reversed and no two of
them clash, wherever they stand in the list. In all other cases their ranges are at fault. The
order of the list does not matter. -/
theorem applied_iff_acceptable (text : List Char) (edits : List TextEdit) :
    ((∃ result, EditFile.applied text edits = .ok result) ↔ Acceptable text edits) ∧
      (¬Acceptable text edits →
        ∃ reason, EditFile.applied text edits = .error (.invalidEditRange reason)) ∧
      ∀ others : List TextEdit, others.Perm edits →
        ((∃ result, EditFile.applied text others = .ok result) ↔
          ∃ result, EditFile.applied text edits = .ok result) := by
  have accepted : ((∃ result, EditFile.applied text edits = .ok result) ↔
      Acceptable text edits) := by
    simp only [applied_eq_ok_iff]
    exact ⟨fun ⟨_, h⟩ => acceptable_of_applyEdits h, Acceptable.applyEdits⟩
  refine ⟨accepted, ?_, ?_⟩
  · intro unfit
    cases failed : applyEdits text edits with
    | ok result => exact absurd (acceptable_of_applyEdits failed) unfit
    | error cause => exact ⟨cause.message, by simp [EditFile.applied, failed]⟩
  · intro others perm
    simp only [applied_eq_ok_iff]
    exact ⟨fun ⟨r, h⟩ => ⟨r, applyEdits_perm perm.symm h⟩, fun ⟨r, h⟩ => ⟨r, applyEdits_perm perm h⟩⟩

end CodeIntel
