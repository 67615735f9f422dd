import CodeIntel.Proofs.Edit.LineReplacement
import Mathlib.Data.List.Pairwise

namespace CodeIntel

open List (Forall₂)

/-- An edit of whole lines as a caller writes it. -/
structure LineEdit where
  first : UInt32
  last : UInt32
  newText : String

namespace LineEdit

variable {text : List Char} {a b e : LineEdit}

def request (e : LineEdit) : EditRequest := .lines e.first e.last e.newText

def Inside (text : List Char) (e : LineEdit) : Prop := HasLines text e.first e.last

/-- Whether no line belongs to both edits. -/
def Apart (a b : LineEdit) : Prop := a.last < b.first ∨ b.last < a.first

instance : DecidableRel Apart := fun _ _ => inferInstanceAs (Decidable (_ ∨ _))

/-- Whether an edit deletes a last line that no line feed ends, and lines before it are left, so
that the terminator before the deleted lines goes with them. -/
def ReachesBack (text : List Char) (e : LineEdit) : Prop :=
  e.newText = "" ∧ 1 < e.first ∧ e.last.toNat = (linesWithEnds text).length ∧
    text.getLast? ≠ some '\n'

instance : Decidable (e.ReachesBack text) := inferInstanceAs (Decidable (_ ∧ _))

def patch (text : List Char) (e : LineEdit) : Patch Char :=
  linesPatch text e.first.toNat e.last.toNat e.newText.toList

theorem Inside.exists_sits (h : e.Inside text) :
    ∃ edit, e.request.resolve text = .ok edit ∧ Sits text edit (e.patch text) :=
  linesEdit_sits h e.newText.toList

theorem Inside.upright (h : e.Inside text) : (e.patch text).start ≤ (e.patch text).stop := by
  obtain ⟨_, _, sits⟩ := h.exists_sits
  exact sits.upright

/-- An edit whose last line has a line feed takes its lines and nothing else. -/
theorem patch_of_ended (ended : e.last.toNat < (addressLines text).length) :
    (e.patch text).start = lineStart text (e.first.toNat - 1) ∧
      (e.patch text).stop = lineStart text e.last.toNat := by
  rw [patch, linesPatch, if_pos ended]
  exact ⟨rfl, rfl⟩

theorem start_lt_stop (h : e.Inside text) (ended : e.last.toNat < (addressLines text).length) :
    (e.patch text).start < (e.patch text).stop := by
  obtain ⟨start, stop⟩ := patch_of_ended ended
  have bounds := h.bounds
  rw [start, stop]
  exact lineStart_lt (by omega) ended

theorem reachesBack_iff (h : e.Inside text) : e.ReachesBack text ↔
    e.newText.toList = [] ∧ 1 < e.first.toNat ∧ ¬e.last.toNat < (addressLines text).length := by
  obtain ⟨low, upright, _⟩ := h.bounds
  have within := Nat.le_trans (UInt32.le_iff_toNat_le.mp h.within) (visibleLines_le_shown text)
  have empty : e.newText = "" ↔ e.newText.toList = [] := String.toList_eq_nil_iff.symm
  have second : 1 < e.first ↔ 1 < e.first.toNat := UInt32.lt_iff_toNat_lt
  rw [ReachesBack, empty, second]
  refine and_congr_right fun _ => and_congr_right fun second => ?_
  rw [lt_length_addressLines_iff (by omega) (by omega), not_or]
  exact and_congr_left fun _ => by omega

/-- An edit starts where its first line does unless it reaches back. -/
theorem start_of_not_reachesBack (h : e.Inside text) (stays : ¬e.ReachesBack text) :
    (e.patch text).start = lineStart text (e.first.toNat - 1) := by
  rw [reachesBack_iff h] at stays
  rw [patch, linesPatch]
  split
  next => rfl
  next last => exact if_neg fun deletes => stays ⟨deletes.1, deletes.2, last⟩

/-- An edit that reaches back starts on the line before its first one. -/
theorem start_of_reachesBack (h : e.Inside text) (back : e.ReachesBack text) :
    (e.patch text).start =
      lineStart text (e.first.toNat - 2) + bodyChars (lineAt text (e.first.toNat - 2)) := by
  obtain ⟨empty, second, last⟩ := (reachesBack_iff h).mp back
  rw [patch, linesPatch, if_neg last]
  exact if_pos ⟨empty, second⟩

theorem lineStart_le_stop (h : e.Inside text) :
    lineStart text (e.first.toNat - 1) ≤ (e.patch text).stop := by
  have upright := h.bounds.2.1
  rw [patch, linesPatch]
  split
  next => exact lineStart_mono (by omega)
  next => exact Nat.le_trans (lineStart_mono (by omega)) (Nat.le_add_right _ _)

/-- Of two edits without a common line the one above is before the other, unless the other reaches
back to it. -/
theorem before_of_above (ha : a.Inside text) (hb : b.Inside text) (above : a.last < b.first)
    (free : ¬(b.ReachesBack text ∧ a.last.toNat + 1 = b.first.toNat)) :
    (a.patch text).Before (b.patch text) := by
  have above : a.last.toNat < b.first.toNat := UInt32.lt_iff_toNat_lt.mp above
  have boundsA := ha.bounds
  have boundsB := hb.bounds
  have ended : a.last.toNat < (addressLines text).length := by omega
  refine ⟨?_, fun both => ?_⟩
  · rw [(patch_of_ended ended).2]
    by_cases back : b.ReachesBack text
    · have apart : a.last.toNat + 1 ≠ b.first.toNat := fun next => free ⟨back, next⟩
      rw [start_of_reachesBack hb back]
      exact Nat.le_trans (lineStart_mono (by omega)) (Nat.le_add_right _ _)
    · rw [start_of_not_reachesBack hb back]
      exact lineStart_mono (by omega)
  · exact Nat.ne_of_lt (start_lt_stop ha ended) both.1

/-- An edit that reaches back clashes with one of the line before it over the terminator there. -/
theorem clash_of_reachesBack (ha : a.Inside text) (hb : b.Inside text)
    (back : b.ReachesBack text) (next : a.last.toNat + 1 = b.first.toNat) :
    (a.patch text).Clash (b.patch text) := by
  have boundsA := ha.bounds
  have boundsB := hb.bounds
  have ended : a.last.toNat < (addressLines text).length := by omega
  have stop := (patch_of_ended ended).2
  have taken := start_lt_stop ha ended
  have line : b.first.toNat - 2 + 1 = a.last.toNat := by omega
  have back' := bodyEnd_lt_lineStart (line.symm ▸ ended)
  rw [← start_of_reachesBack hb back, line] at back'
  have stop' := lineStart_le_stop hb
  have same : b.first.toNat - 1 = a.last.toNat := by omega
  rw [same] at stop'
  -- Both take the line feed between them.
  refine .inl ⟨lineStart text a.last.toNat - 1, ⟨?_, ?_⟩, ⟨?_, ?_⟩⟩ <;> omega

theorem not_clash_of_apart (ha : a.Inside text) (hb : b.Inside text) (apart : a.Apart b)
    (free : ¬(b.ReachesBack text ∧ a.last.toNat + 1 = b.first.toNat))
    (free' : ¬(a.ReachesBack text ∧ b.last.toNat + 1 = a.first.toNat)) :
    ¬(a.patch text).Clash (b.patch text) := by
  rcases apart with above | below
  · exact (before_of_above ha hb above free).not_clash ha.upright
  · intro clash
    exact (before_of_above hb ha below free').not_clash hb.upright (Patch.clash_comm.mp clash)

/-- Edits of lines that are in a text mean range edits that have a place there. -/
theorem exists_resolved {edits : List LineEdit} (inside : ∀ e ∈ edits, e.Inside text) :
    ∃ resolved, EditFile.resolveEdits text 1 (edits.map request) = .ok resolved ∧
      Forall₂ (Sits text) resolved (edits.map (patch text)) := by
  obtain ⟨resolved, each⟩ := exists_forall₂ fun e he => (inside e he).exists_sits
  refine ⟨resolved, resolveEdits_eq_ok_iff.mpr ?_, ?_⟩
  · exact List.forall₂_map_left_iff.mpr (each.imp fun _ _ h => h.1)
  · exact List.forall₂_map_right_iff.mpr (each.imp fun _ _ h => h.2).flip

/-- Edits of lines without a common line are applied together, unless one of them deletes a last
line that no line feed ends and another one the line before: then they are said to overlap. -/
theorem disjoint_lines_apply (text : List Char) (edits : List LineEdit)
    (inside : ∀ e ∈ edits, e.Inside text) (apart : edits.Pairwise Apart) :
    let caught := ∃ a ∈ edits, ∃ b ∈ edits,
      b.ReachesBack text ∧ a.last.toNat + 1 = b.first.toNat
    (¬caught → ∃ result, EditFile.updated text (edits.map request) = .ok result) ∧
    (caught → ∃ first second : Nat, EditFile.updated text (edits.map request) =
      .error (.invalidEditRange s!"edits {first} and {second} overlap")) := by
  intro caught
  obtain ⟨resolved, means, sits⟩ := exists_resolved inside
  have updated : EditFile.updated text (edits.map request) = EditFile.applied text resolved := by
    rw [EditFile.updated, means, ok_bind]
  rw [updated]
  constructor
  · intro free
    have clear : (edits.map (patch text)).Pairwise fun p q => ¬p.Clash q := by
      refine List.pairwise_map.mpr (apart.imp_of_mem fun {a b} ha hb h => ?_)
      exact not_clash_of_apart (inside a ha) (inside b hb) h
        (fun back => free ⟨a, ha, b, hb, back⟩) (fun back => free ⟨b, hb, a, ha, back⟩)
    obtain ⟨result, done⟩ := exists_applyEdits sits clear
    exact ⟨result, applied_eq_ok_iff.mpr done⟩
  · rintro ⟨a, ha, b, hb, back, next⟩
    have clash : ¬(edits.map (patch text)).Pairwise fun p q => ¬p.Clash q := by
      intro clear
      have other : a ≠ b := by
        rintro rfl
        have := (inside a ha).bounds
        omega
      have : Std.Symm fun c d : LineEdit => ¬(c.patch text).Clash (d.patch text) :=
        ⟨fun _ _ h clash => h (Patch.clash_comm.mp clash)⟩
      exact (List.pairwise_map.mp clear).forall ha hb other
        (clash_of_reachesBack (inside a ha) (inside b hb) back next)
    obtain ⟨first, second, refused⟩ := applyEdits_overlap sits clash
    exact ⟨first, second, by rw [EditFile.applied, refused]; rfl⟩

/-- The last line goes with the line break before it, next to lines that are left alone. -/
theorem last_line_goes_with_first :
    let text := ['a', '\r', '\n', 'b', '\n', '😀']
    let edits : List LineEdit := [⟨3, 3, ""⟩, ⟨1, 1, "x"⟩]
    (∀ e ∈ edits, e.Inside text) ∧ edits.Pairwise Apart ∧
      ∃ result, EditFile.updated text (edits.map request) = .ok result := by
  have inside : ∀ e ∈ ([⟨3, 3, ""⟩, ⟨1, 1, "x"⟩] : List LineEdit),
      e.Inside ['a', '\r', '\n', 'b', '\n', '😀'] := by
    simp only [List.forall_mem_cons, Inside, hasLines_iff]
    decide
  have apart : ([⟨3, 3, ""⟩, ⟨1, 1, "x"⟩] : List LineEdit).Pairwise Apart := by decide
  exact ⟨inside, apart, (disjoint_lines_apply _ _ inside apart).1 (by decide)⟩

/-- A replaced line and a deleted one below it overlap where no line feed ends the text. -/
theorem replaced_and_deleted_overlap :
    let text := ['a', '\n', 'b']
    let edits : List LineEdit := [⟨1, 1, "x"⟩, ⟨2, 2, ""⟩]
    (∀ e ∈ edits, e.Inside text) ∧ edits.Pairwise Apart ∧
      EditFile.updated text (edits.map request) =
        .error (.invalidEditRange "edits 1 and 2 overlap") := by
  refine ⟨?_, by decide, rfl⟩
  simp only [List.forall_mem_cons, Inside, hasLines_iff]
  decide

end LineEdit

end CodeIntel
