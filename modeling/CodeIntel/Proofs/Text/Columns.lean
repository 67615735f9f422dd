import CodeIntel.Text.Basic
import CodeIntel.Text.Utf8
import Mathlib.Data.List.Basic

namespace CodeIntel

/-- The bytes of characters in UTF-8. -/
def utf8 (cs : List Char) : List UInt8 := cs.flatMap String.utf8EncodeChar

@[simp] theorem utf8_nil : utf8 [] = [] := rfl

@[simp] theorem utf8_cons (c : Char) (cs : List Char) :
    utf8 (c :: cs) = String.utf8EncodeChar c ++ utf8 cs := rfl

@[simp] theorem utf8_append (xs ys : List Char) : utf8 (xs ++ ys) = utf8 xs ++ utf8 ys := by
  simp [utf8]

theorem utf8Bytes_eq (s : String) : utf8Bytes s = utf8 s.toList := rfl

theorem utf8Bytes_ofList (cs : List Char) : utf8Bytes (String.ofList cs) = utf8 cs := by
  rw [utf8Bytes_eq, String.toList_ofList]

theorem utf8_toByteArray (cs : List Char) : (utf8 cs).toByteArray = cs.utf8Encode := rfl

theorem toByteArray_inj {xs ys : List UInt8} (h : xs.toByteArray = ys.toByteArray) : xs = ys := by
  have data := congrArg (fun b => b.data.toList) h
  simpa using data

theorem ofUtf8?_utf8Bytes (s : String) : ofUtf8? (utf8Bytes s) = some s := by
  have valid : (utf8Bytes s).toByteArray = s.toByteArray := by
    rw [utf8Bytes_eq, utf8_toByteArray, String.utf8Encode_toList]
  unfold ofUtf8?
  rw [valid]
  simp [String.fromUTF8?, String.fromUTF8, s.isValidUTF8]

theorem utf8Bytes_of_ofUtf8? {bytes : List UInt8} {s : String} (h : ofUtf8? bytes = some s) :
    utf8Bytes s = bytes := by
  apply toByteArray_inj
  rw [utf8Bytes_eq, utf8_toByteArray, String.utf8Encode_toList]
  unfold ofUtf8? String.fromUTF8? at h
  split at h
  next valid => cases Option.some.inj h; rfl
  next => simp at h

theorem utf8Bytes_inj {s s' : String} (h : utf8Bytes s = utf8Bytes s') : s = s' := by
  have texts := congrArg ofUtf8? h
  rw [ofUtf8?_utf8Bytes, ofUtf8?_utf8Bytes] at texts
  exact Option.some.inj texts

theorem utf8Bytes_append (s s' : String) : utf8Bytes (s ++ s') = utf8Bytes s ++ utf8Bytes s' := by
  rw [utf8Bytes_eq, String.toList_append, utf8_append]
  rfl

/-- Whether a column lies between the two halves of a surrogate pair. -/
def SplitsPair (cs : List Char) (column : Nat) : Prop :=
  ∃ before c after, cs = before ++ c :: after ∧ units16 c = 2 ∧ column = length16 before + 1

theorem SplitsPair.cons {cs : List Char} {column : Nat} (h : SplitsPair cs column) (c : Char) :
    SplitsPair (c :: cs) (units16 c + column) := by
  obtain ⟨before, d, after, rfl, wide, rfl⟩ := h
  exact ⟨c :: before, d, after, rfl, wide, by rw [length16_cons, Nat.add_assoc]⟩

@[simp]
theorem charsAtColumn_zero (cs : List Char) : charsAtColumn cs 0 = 0 := by
  cases cs <;> rfl

theorem charsAtColumn_cons (c : Char) (cs : List Char) {column : Nat} (h : column ≠ 0) :
    charsAtColumn (c :: cs) column = 1 + charsAtColumn cs (column - units16 c) := by
  rw [charsAtColumn, if_neg h]

theorem charsAtColumn_mono (cs : List Char) {a b : Nat} (h : a ≤ b) :
    charsAtColumn cs a ≤ charsAtColumn cs b := by
  induction cs generalizing a b with
  | nil => exact Nat.le_refl _
  | cons c cs ih =>
    by_cases zero : a = 0
    · simp [zero]
    · have later := ih (Nat.sub_le_sub_right h (units16 c))
      rw [charsAtColumn_cons c cs zero, charsAtColumn_cons c cs (by omega)]
      omega

theorem charsAtColumn_of_length16_le {cs : List Char} {column : Nat} (h : length16 cs ≤ column) :
    charsAtColumn cs column = cs.length := by
  induction cs generalizing column with
  | nil => rfl
  | cons c cs ih =>
    have pos := units16_pos c
    rw [length16_cons] at h
    rw [charsAtColumn_cons c cs (by omega), ih (by omega), List.length_cons, Nat.add_comm]

theorem charsAtColumn_append (before cs : List Char) (column : Nat) :
    charsAtColumn (before ++ cs) (length16 before + column) =
      before.length + charsAtColumn cs column := by
  induction before with
  | nil => simp
  | cons c before ih =>
    have pos := units16_pos c
    rw [List.cons_append, length16_cons, charsAtColumn_cons c _ (by omega), Nat.add_assoc,
      Nat.add_sub_cancel_left, ih, List.length_cons]
    omega

theorem charsAtColumn_append_of_le {cs : List Char} {column : Nat} (h : column ≤ length16 cs)
    (more : List Char) : charsAtColumn (cs ++ more) column = charsAtColumn cs column := by
  induction cs generalizing column with
  | nil => rw [Nat.le_zero.mp h, charsAtColumn_zero, charsAtColumn_zero]
  | cons c cs ih =>
    by_cases zero : column = 0
    · rw [zero, charsAtColumn_zero, charsAtColumn_zero]
    · rw [length16_cons] at h
      rw [List.cons_append, charsAtColumn_cons c _ zero, charsAtColumn_cons c _ zero,
        ih (by omega)]

theorem SplitsPair.succ_le {cs : List Char} {column : Nat} (h : SplitsPair cs column) :
    column + 1 ≤ length16 cs := by
  obtain ⟨before, c, after, rfl, wide, rfl⟩ := h
  rw [length16_append, length16_cons, wide]
  omega

/-- A column that splits a surrogate pair stands for the one behind it. -/
theorem SplitsPair.charsAtColumn_succ {cs : List Char} {column : Nat} (h : SplitsPair cs column) :
    charsAtColumn cs (column + 1) = charsAtColumn cs column := by
  obtain ⟨before, c, after, rfl, wide, rfl⟩ := h
  rw [Nat.add_assoc, charsAtColumn_append, charsAtColumn_append, charsAtColumn_cons c _ (by decide),
    charsAtColumn_cons c _ (by decide), wide]

/-- The characters before a column fill as many units, or one more if the column splits the last
of them. -/
theorem length16_take_charsAtColumn {cs : List Char} {column : Nat} (h : column ≤ length16 cs) :
    length16 (cs.take (charsAtColumn cs column)) = column ∨
      (SplitsPair cs column ∧ length16 (cs.take (charsAtColumn cs column)) = column + 1) := by
  induction cs generalizing column with
  | nil => exact .inl (Nat.le_zero.mp h).symm
  | cons c cs ih =>
    by_cases zero : column = 0
    · simp [zero]
    · rw [length16_cons] at h
      rw [charsAtColumn_cons c cs zero, Nat.add_comm, List.take_succ_cons, length16_cons]
      rcases Nat.lt_or_ge column (units16 c) with inside | behind
      · have wide := units16_le_two c
        have none_left : column - units16 c = 0 := by omega
        refine .inr ⟨⟨[], c, cs, rfl, by omega, ?_⟩, ?_⟩
        · rw [length16_nil]
          omega
        · rw [none_left, charsAtColumn_zero, List.take_zero, length16_nil]
          omega
      · obtain ⟨k, rfl⟩ := Nat.exists_eq_add_of_le behind
        rw [Nat.add_sub_cancel_left]
        rcases ih (Nat.le_of_add_le_add_left h) with exact | ⟨splits, more⟩
        · exact .inl (by rw [exact])
        · exact .inr ⟨splits.cons c, by rw [more, Nat.add_assoc]⟩

/-- The characters before a column that splits a surrogate pair include the pair. -/
theorem SplitsPair.length16_take {cs : List Char} {column : Nat} (h : SplitsPair cs column) :
    length16 (cs.take (charsAtColumn cs column)) = column + 1 := by
  have here := length16_take_charsAtColumn (Nat.le_of_succ_le h.succ_le)
  have behind := length16_take_charsAtColumn h.succ_le
  rw [h.charsAtColumn_succ] at behind
  omega

/-- Columns of a line stand for more characters the greater they are, unless the first splits a
surrogate pair and the second is the one behind it. -/
theorem charsAtColumn_lt_or_splits {cs : List Char} {a b : Nat} (lt : a < b)
    (hb : b ≤ length16 cs) :
    charsAtColumn cs a < charsAtColumn cs b ∨
      (charsAtColumn cs a = charsAtColumn cs b ∧ SplitsPair cs a ∧ b = a + 1) := by
  rcases Nat.lt_or_eq_of_le (charsAtColumn_mono cs (Nat.le_of_lt lt)) with less | same
  · exact .inl less
  · refine .inr ⟨same, ?_⟩
    have first := length16_take_charsAtColumn (Nat.le_trans (Nat.le_of_lt lt) hb)
    have second := length16_take_charsAtColumn hb
    rw [same] at first
    rcases first with exact | ⟨splits, more⟩
    · omega
    · exact ⟨splits, by omega⟩

/-- A column that has all characters before it is at the end, or splits the last of them. -/
theorem ends_of_charsAtColumn_eq {cs : List Char} {column : Nat} (h : column ≤ length16 cs)
    (all : charsAtColumn cs column = cs.length) :
    column = length16 cs ∨ (SplitsPair cs column ∧ column + 1 = length16 cs) := by
  have front := length16_take_charsAtColumn h
  rw [all, List.take_length] at front
  rcases front with exact | ⟨splits, more⟩
  · exact .inl exact.symm
  · exact .inr ⟨splits, more.symm⟩

theorem units16_le_utf8Size (c : Char) : units16 c ≤ c.utf8Size := by
  unfold units16
  split
  · exact c.utf8Size_pos
  next wide =>
    have large : ∀ n : UInt32, n.toNat < 0x10000 → ¬c.val ≤ n := by
      intro n small le
      exact wide (Nat.lt_of_le_of_lt (UInt32.le_iff_toNat_le.mp le) small)
    unfold Char.utf8Size
    rw [if_neg (large _ (by decide)), if_neg (large _ (by decide)), if_neg (large _ (by decide))]
    decide

theorem length_le_length16 (cs : List Char) : cs.length ≤ length16 cs := by
  induction cs with
  | nil => exact Nat.le_refl _
  | cons c cs ih =>
    have pos := units16_pos c
    rw [List.length_cons, length16_cons]
    omega

theorem length16_le_length_utf8 (cs : List Char) : length16 cs ≤ (utf8 cs).length := by
  induction cs with
  | nil => exact Nat.le_refl _
  | cons c cs ih =>
    have first := units16_le_utf8Size c
    rw [length16_cons, utf8_cons, List.length_append, String.length_utf8EncodeChar]
    omega

end CodeIntel
