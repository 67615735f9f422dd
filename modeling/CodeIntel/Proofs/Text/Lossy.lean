import CodeIntel.Proofs.Text.Columns

namespace CodeIntel

section Bytes

variable {n payload wanted : Nat} {low high : UInt8}

theorem toNat_byte (byte : n < 256) : (UInt8.ofNat n).toNat = n := by
  rw [UInt8.toNat_ofNat', Nat.mod_eq_of_lt byte]

/-- What a byte leads in, by its number. -/
theorem Utf8Lead.of?_ofNat (byte : n < 256) : Utf8Lead.of? (UInt8.ofNat n) =
    if n < 0x80 then some ⟨n, 0, 0x80, 0xBF⟩
    else if 0xC2 ≤ n ∧ n ≤ 0xDF then some ⟨n - 0xC0, 1, 0x80, 0xBF⟩
    else if n = 0xE0 then some ⟨0, 2, 0xA0, 0xBF⟩
    else if n = 0xED then some ⟨0xD, 2, 0x80, 0x9F⟩
    else if 0xE1 ≤ n ∧ n ≤ 0xEF then some ⟨n - 0xE0, 2, 0x80, 0xBF⟩
    else if n = 0xF0 then some ⟨0, 3, 0x90, 0xBF⟩
    else if 0xF1 ≤ n ∧ n ≤ 0xF3 then some ⟨n - 0xF0, 3, 0x80, 0xBF⟩
    else if n = 0xF4 then some ⟨4, 3, 0x80, 0x8F⟩
    else none := by
  simp only [Utf8Lead.of?, UInt8.lt_iff_toNat_lt, UInt8.le_iff_toNat_le, ← UInt8.toNat_inj,
    toNat_byte byte, Bool.and_eq_true, decide_eq_true_eq]
  rfl

theorem lossyFrom_lead {b : UInt8} (leads : Utf8Lead.of? b = some ⟨payload, wanted, low, high⟩)
    (more : wanted ≠ 0) (rest : List UInt8) :
    lossyFrom 0 0 0x80 0xBF (b :: rest) = lossyFrom payload wanted low high rest := by
  rw [lossyFrom, if_neg (by simp), leads]
  simp only [if_neg more]
  rfl

/-- Whether a number is that of a byte from `low` to `high`. -/
def IsBetween (low high : UInt8) (n : Nat) : Prop := low.toNat ≤ n ∧ n ≤ high.toNat

theorem IsBetween.lt (h : IsBetween low high n) : n < 256 :=
  Nat.lt_of_le_of_lt h.2 high.toNat_lt

theorem IsBetween.byte (h : IsBetween low high n) :
    low ≤ UInt8.ofNat n ∧ UInt8.ofNat n ≤ high := by
  rw [UInt8.le_iff_toNat_le, UInt8.le_iff_toNat_le, toNat_byte h.lt]
  exact h

theorem isBetween_following (k : Nat) : IsBetween 0x80 0xBF (k % 64 + 128) := by
  have least : (0x80 : UInt8).toNat = 128 := rfl
  have greatest : (0xBF : UInt8).toNat = 191 := rfl
  exact ⟨by omega, by omega⟩

theorem lossyFrom_next (h : IsBetween low high n) (more : wanted ≠ 0) (rest : List UInt8) :
    lossyFrom payload (wanted + 1) low high (UInt8.ofNat n :: rest) =
      lossyFrom (payload * 0x40 + (n - 0x80)) wanted 0x80 0xBF rest := by
  rw [lossyFrom, if_pos ⟨Nat.succ_ne_zero wanted, h.byte⟩]
  simp [more, toNat_byte h.lt]

theorem lossyFrom_last (h : IsBetween low high n) (rest : List UInt8) :
    lossyFrom payload 1 low high (UInt8.ofNat n :: rest) =
      Char.ofNat (payload * 0x40 + (n - 0x80)) :: lossyFrom 0 0 0x80 0xBF rest := by
  rw [lossyFrom, if_pos ⟨Nat.one_ne_zero, h.byte⟩]
  simp only [if_true, toNat_byte h.lt]

end Bytes

section Characters

variable {v : Nat} (rest : List UInt8)

theorem lossyFrom_one (le : v ≤ 0x7F) : lossyFrom 0 0 0x80 0xBF (UInt8.ofNat v :: rest) =
    Char.ofNat v :: lossyFrom 0 0 0x80 0xBF rest := by
  have lead : Utf8Lead.of? (UInt8.ofNat v) = some ⟨v, 0, 0x80, 0xBF⟩ := by
    rw [Utf8Lead.of?_ofNat (by omega), if_pos (by omega)]
  rw [lossyFrom, if_neg (by simp), lead]
  rfl

theorem lossyFrom_two (gt : 0x7F < v) (le : v ≤ 0x7FF) :
    lossyFrom 0 0 0x80 0xBF
        (UInt8.ofNat (v / 64 % 32 + 192) :: UInt8.ofNat (v % 64 + 128) :: rest) =
      Char.ofNat v :: lossyFrom 0 0 0x80 0xBF rest := by
  have lead : Utf8Lead.of? (UInt8.ofNat (v / 64 % 32 + 192)) =
      some ⟨v / 64 % 32, 1, 0x80, 0xBF⟩ := by
    rw [Utf8Lead.of?_ofNat (by omega), if_neg (by omega), if_pos (by omega), Nat.add_sub_cancel]
  have value : v / 64 % 32 * 0x40 + (v % 64 + 128 - 0x80) = v := by omega
  rw [lossyFrom_lead lead Nat.one_ne_zero, lossyFrom_last (isBetween_following v), value]

/-- The lead of three bytes bounds the byte behind it: they stand for no character of fewer bytes
and for no surrogate. -/
theorem of?_three (gt : 0x7FF < v) (le : v ≤ 0xFFFF) (noSurrogate : v < 0xD800 ∨ 0xDFFF < v) :
    ∃ low high : UInt8, IsBetween low high (v / 64 % 64 + 128) ∧
      Utf8Lead.of? (UInt8.ofNat (v / 4096 % 16 + 224)) = some ⟨v / 4096 % 16, 2, low, high⟩ := by
  have follows := isBetween_following (v / 64)
  rw [Utf8Lead.of?_ofNat (by omega), if_neg (by omega), if_neg (by omega)]
  by_cases first : v / 4096 % 16 = 0
  · rw [first, if_pos rfl]
    have least : (0xA0 : UInt8).toNat = 160 := rfl
    exact ⟨0xA0, 0xBF, ⟨by omega, follows.2⟩, rfl⟩
  · rw [if_neg (by omega)]
    by_cases surrogates : v / 4096 % 16 = 13
    · rw [surrogates, if_pos rfl]
      have greatest : (0x9F : UInt8).toNat = 159 := rfl
      exact ⟨0x80, 0x9F, ⟨follows.1, by omega⟩, rfl⟩
    · rw [if_neg (by omega), if_pos (by omega), Nat.add_sub_cancel]
      exact ⟨_, _, follows, rfl⟩

theorem lossyFrom_three (gt : 0x7FF < v) (le : v ≤ 0xFFFF)
    (noSurrogate : v < 0xD800 ∨ 0xDFFF < v) :
    lossyFrom 0 0 0x80 0xBF
        (UInt8.ofNat (v / 4096 % 16 + 224) :: UInt8.ofNat (v / 64 % 64 + 128) ::
          UInt8.ofNat (v % 64 + 128) :: rest) =
      Char.ofNat v :: lossyFrom 0 0 0x80 0xBF rest := by
  obtain ⟨low, high, between, lead⟩ := of?_three gt le noSurrogate
  have value : (v / 4096 % 16 * 0x40 + (v / 64 % 64 + 128 - 0x80)) * 0x40 +
      (v % 64 + 128 - 0x80) = v := by omega
  rw [lossyFrom_lead lead (by decide), lossyFrom_next between (by decide),
    lossyFrom_last (isBetween_following v), value]

/-- So does the lead of four bytes: they stand for no number beyond those of characters. -/
theorem of?_four (gt : 0xFFFF < v) (le : v ≤ 0x10FFFF) :
    ∃ low high : UInt8, IsBetween low high (v / 4096 % 64 + 128) ∧
      Utf8Lead.of? (UInt8.ofNat (v / 262144 % 8 + 240)) = some ⟨v / 262144 % 8, 3, low, high⟩ := by
  have follows := isBetween_following (v / 4096)
  rw [Utf8Lead.of?_ofNat (by omega), if_neg (by omega), if_neg (by omega), if_neg (by omega),
    if_neg (by omega), if_neg (by omega)]
  by_cases first : v / 262144 % 8 = 0
  · rw [first, if_pos rfl]
    have least : (0x90 : UInt8).toNat = 144 := rfl
    exact ⟨0x90, 0xBF, ⟨by omega, follows.2⟩, rfl⟩
  · rw [if_neg (by omega)]
    by_cases last : v / 262144 % 8 = 4
    · rw [last, if_neg (by omega), if_pos rfl]
      have greatest : (0x8F : UInt8).toNat = 143 := rfl
      exact ⟨0x80, 0x8F, ⟨follows.1, by omega⟩, rfl⟩
    · rw [if_pos (by omega), Nat.add_sub_cancel]
      exact ⟨_, _, follows, rfl⟩

theorem lossyFrom_four (gt : 0xFFFF < v) (le : v ≤ 0x10FFFF) :
    lossyFrom 0 0 0x80 0xBF
        (UInt8.ofNat (v / 262144 % 8 + 240) :: UInt8.ofNat (v / 4096 % 64 + 128) ::
          UInt8.ofNat (v / 64 % 64 + 128) :: UInt8.ofNat (v % 64 + 128) :: rest) =
      Char.ofNat v :: lossyFrom 0 0 0x80 0xBF rest := by
  obtain ⟨low, high, between, lead⟩ := of?_four gt le
  have value : ((v / 262144 % 8 * 0x40 + (v / 4096 % 64 + 128 - 0x80)) * 0x40 +
      (v / 64 % 64 + 128 - 0x80)) * 0x40 + (v % 64 + 128 - 0x80) = v := by omega
  rw [lossyFrom_lead lead (by decide), lossyFrom_next between (by decide),
    lossyFrom_next (isBetween_following (v / 64)) (by decide),
    lossyFrom_last (isBetween_following v), value]

theorem lossyFrom_utf8EncodeChar (c : Char) :
    lossyFrom 0 0 0x80 0xBF (String.utf8EncodeChar c ++ rest) =
      c :: lossyFrom 0 0 0x80 0xBF rest := by
  have number : c.val.toNat = c.toNat := rfl
  have scalar : c.toNat < 0xD800 ∨ 0xDFFF < c.toNat ∧ c.toNat < 0x110000 := c.valid
  have same : Char.ofNat c.toNat :: lossyFrom 0 0 0x80 0xBF rest =
      c :: lossyFrom 0 0 0x80 0xBF rest := by rw [Char.ofNat_toNat]
  refine Eq.trans ?_ same
  unfold String.utf8EncodeChar
  simp only [number]
  split
  next one => exact lossyFrom_one rest one
  split
  next gt le => exact lossyFrom_two rest (by omega) le
  split
  next gt le => exact lossyFrom_three rest (by omega) le (scalar.imp_right And.left)
  next gt => exact lossyFrom_four rest (by omega) (by omega)

end Characters

theorem lossyFrom_utf8 (cs : List Char) : lossyFrom 0 0 0x80 0xBF (utf8 cs) = cs := by
  induction cs with
  | nil => rfl
  | cons c cs ih => rw [utf8_cons, lossyFrom_utf8EncodeChar, ih]

/-- The bytes of a text are read as this text. -/
theorem lossyText_utf8 (cs : List Char) : lossyText (utf8 cs) = String.ofList cs := by
  rw [lossyText, lossyFrom_utf8]

end CodeIntel
