import CodeIntel.Proofs.Text.Columns

namespace CodeIntel

/-- A byte below 0x80 stands for the character of the same number alone. -/
theorem toNat_eq_of_mem_utf8EncodeChar {c : Char} {b : UInt8} (hb : b.toNat < 0x80)
    (h : b ∈ String.utf8EncodeChar c) : c.toNat = b.toNat := by
  unfold String.utf8EncodeChar at h
  simp only at h
  split at h
  next small =>
    rw [List.mem_singleton.mp h, UInt8.toNat_ofNat']
    have : c.toNat = c.val.toNat := rfl
    omega
  next =>
    split at h
    · simp only [List.mem_cons, List.not_mem_nil, or_false] at h
      rcases h with rfl | rfl <;> rw [UInt8.toNat_ofNat'] at hb <;> omega
    · split at h
      · simp only [List.mem_cons, List.not_mem_nil, or_false] at h
        rcases h with rfl | rfl | rfl <;> rw [UInt8.toNat_ofNat'] at hb <;> omega
      · simp only [List.mem_cons, List.not_mem_nil, or_false] at h
        rcases h with rfl | rfl | rfl | rfl <;> rw [UInt8.toNat_ofNat'] at hb <;> omega

/-- A byte below 0x80 is in a text only if its character is. -/
theorem mem_of_mem_flatMap_utf8 {c : Char} {cs : List Char} {b : UInt8} (hb : b.toNat < 0x80)
    (same : c.toNat = b.toNat) (mem : b ∈ cs.flatMap String.utf8EncodeChar) : c ∈ cs := by
  obtain ⟨d, mem, byte⟩ := List.mem_flatMap.mp mem
  have number := toNat_eq_of_mem_utf8EncodeChar hb byte
  have eq : d = c := Char.toNat_inj.mp (number.trans same.symm)
  exact eq ▸ mem

theorem toNat_ofNat_le (n : Nat) : (Char.ofNat n).toNat = n ∨ (Char.ofNat n).toNat = 0 := by
  unfold Char.ofNat
  by_cases valid : n.isValidChar
  · rw [dif_pos valid]
    exact .inl rfl
  · rw [dif_neg valid]
    exact .inr rfl

theorem eq_of_ofNat_eq_slash {n : Nat} (h : '/' = Char.ofNat n) : n = 0x2F := by
  have same := congrArg Char.toNat h
  have number : ('/' : Char).toNat = 0x2F := rfl
  rcases toNat_ofNat_le n with eq | eq <;> omega

theorem le_mul_pow_next {n a b k w : Nat} (c : Nat) (some : w ≠ 0) (more : w ≠ 1) (hab : a ≤ b)
    (h : n ≤ a * Nat.pow k (w - 1)) : n ≤ (b * k + c) * Nat.pow k (w - 1 - 1) := by
  obtain ⟨v, rfl⟩ : ∃ v, w = v + 2 := ⟨w - 2, by omega⟩
  have power : b * Nat.pow k (v + 1) = b * k * Nat.pow k v := by
    rw [Nat.mul_assoc, Nat.mul_comm k]
    rfl
  calc n ≤ a * Nat.pow k (v + 1) := h
    _ ≤ b * Nat.pow k (v + 1) := Nat.mul_le_mul_right _ hab
    _ = b * k * Nat.pow k v := power
    _ ≤ _ := Nat.mul_le_mul_right _ (Nat.le_add_right _ c)

/-- Characters of more than one byte that are under way stand for numbers from 0x80 on. -/
def LossyBound (payload wanted : Nat) (low : UInt8) : Prop :=
  wanted = 0 ∨ (0x80 ≤ low.toNat ∧
    0x80 ≤ (payload * 0x40 + (low.toNat - 0x80)) * Nat.pow 0x40 (wanted - 1))

theorem LossyBound.idle (payload : Nat) (low : UInt8) : LossyBound payload 0 low := .inl rfl

theorem LossyBound.two {payload : Nat} (h : 2 ≤ payload) : LossyBound payload 1 0x80 := by
  refine .inr ⟨by decide, ?_⟩
  simp only [Nat.sub_self, Nat.pow_eq, Nat.pow_zero, Nat.mul_one]
  omega

theorem LossyBound.more {payload following : Nat} {low : UInt8} (hf : 2 ≤ following)
    (h : 0x80 ≤ low.toNat) (hp : 1 ≤ payload ∨ 0x82 ≤ low.toNat) :
    LossyBound payload following low := by
  refine .inr ⟨h, ?_⟩
  have step : Nat.pow 0x40 1 ≤ Nat.pow 0x40 (following - 1) :=
    Nat.pow_le_pow_right (by decide) (by omega)
  have base : 2 ≤ payload * 0x40 + (low.toNat - 0x80) := by omega
  calc 0x80 = 2 * Nat.pow 0x40 1 := rfl
    _ ≤ _ := Nat.mul_le_mul base step

theorem Utf8Lead.bound {b : UInt8} {lead : Utf8Lead} (h : Utf8Lead.of? b = some lead) :
    (lead.following = 0 → lead.payload = b.toNat) ∧
      LossyBound lead.payload lead.following lead.low := by
  simp only [Utf8Lead.of?, Bool.and_eq_true, decide_eq_true_eq, UInt8.le_iff_toNat_le] at h
  split at h
  · rw [← Option.some.inj h]
    exact ⟨fun _ => rfl, .idle _ _⟩
  split at h
  next two =>
    rw [← Option.some.inj h]
    exact ⟨nofun, .two (Nat.le_sub_of_add_le two.1)⟩
  split at h
  · rw [← Option.some.inj h]
    exact ⟨nofun, .more (by decide) (by decide) (.inr (by decide))⟩
  split at h
  · rw [← Option.some.inj h]
    exact ⟨nofun, .more (by decide) (by decide) (.inl (by decide))⟩
  split at h
  next notFirst _ three =>
    rw [← Option.some.inj h]
    have other : b.toNat ≠ 0xE0 := fun eq => notFirst (UInt8.toNat_inj.mp eq)
    have from' : 0xE1 ≤ b.toNat := three.1
    exact ⟨nofun, .more (Nat.le_of_ble_eq_true rfl) (Nat.le_of_ble_eq_true rfl)
      (.inl (Nat.le_sub_of_add_le from'))⟩
  split at h
  · rw [← Option.some.inj h]
    exact ⟨nofun, .more (by decide) (by decide) (.inr (by decide))⟩
  split at h
  next four =>
    rw [← Option.some.inj h]
    have from' : 0xF1 ≤ b.toNat := four.1
    exact ⟨nofun, .more (Nat.le_of_ble_eq_true rfl) (Nat.le_of_ble_eq_true rfl)
      (.inl (Nat.le_sub_of_add_le from'))⟩
  split at h
  · rw [← Option.some.inj h]
    exact ⟨nofun, .more (by decide) (by decide) (.inl (by decide))⟩
  · simp at h

theorem mem_of_slash_mem_lossyFrom {bytes : List UInt8} {payload wanted : Nat} {low high : UInt8}
    (bound : LossyBound payload wanted low) (h : '/' ∈ lossyFrom payload wanted low high bytes) :
    (0x2F : UInt8) ∈ bytes := by
  induction bytes generalizing payload wanted low high with
  | nil =>
    unfold lossyFrom at h
    split at h
    · simp at h
    · exact absurd (List.mem_singleton.mp h) (by decide)
  | cons b rest ih =>
    unfold lossyFrom at h
    split at h
    next inside =>
      obtain ⟨some, ge, _⟩ := inside
      have ⟨lowest, enough⟩ := bound.resolve_left some
      rw [UInt8.le_iff_toNat_le] at ge
      simp only at h
      split at h
      next one =>
        subst one
        rcases List.mem_cons.mp h with eq | h
        · have number := eq_of_ofNat_eq_slash eq
          simp only [Nat.sub_self, Nat.pow_eq, Nat.pow_zero, Nat.mul_one] at enough
          omega
        · exact .tail b (ih (.idle _ _) h)
      next more =>
        refine .tail b (ih (.inr ⟨by decide, ?_⟩) h)
        exact le_mul_pow_next _ some more (by omega) enough
    next =>
      simp only at h
      have unbroken : '/' ∉ (if wanted = 0 then [] else [replacementSign]) := by
        split
        · simp
        · decide
      split at h
      next =>
        have h := (List.mem_append.mp h).resolve_left unbroken
        have h := (List.mem_cons.mp h).resolve_left (by decide)
        exact .tail b (ih (.idle _ _) h)
      next lead eq =>
        have ⟨single, bound⟩ := Utf8Lead.bound eq
        split at h
        next alone =>
          have h := (List.mem_append.mp h).resolve_left unbroken
          rcases List.mem_cons.mp h with eq | h
          · have number := eq_of_ofNat_eq_slash eq
            rw [single alone] at number
            have slash : b = 0x2F := UInt8.toNat_inj.mp number
            rw [slash]
            exact List.mem_cons_self
          · exact .tail b (ih (.idle _ _) h)
        next =>
          have h := (List.mem_append.mp h).resolve_left unbroken
          exact .tail b (ih bound h)

/-- The text of bytes without a slash has none either. -/
theorem slash_not_mem_lossyText {bytes : List UInt8} (h : (0x2F : UInt8) ∉ bytes) :
    '/' ∉ (lossyText bytes).toList := by
  intro slash
  rw [lossyText, String.toList_ofList] at slash
  exact h (mem_of_slash_mem_lossyFrom (.idle 0 0x80) slash)

theorem slash_not_mem_utf8Bytes {s : String} (h : '/' ∉ s.toList) :
    (0x2F : UInt8) ∉ utf8Bytes s := by
  intro slash
  exact h (mem_of_mem_flatMap_utf8 (by decide) rfl slash)

end CodeIntel
