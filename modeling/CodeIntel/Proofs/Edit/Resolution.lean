import CodeIntel.Proofs.Edit.ByteSpans
import CodeIntel.Proofs.Edit.LineReplacement

namespace CodeIntel

theorem length_utf8 (cs : List Char) : (utf8 cs).length = (String.ofList cs).utf8ByteSize := by
  rw [← String.size_toByteArray, String.toByteArray_ofList, ← utf8_toByteArray,
    List.size_toByteArray]

theorem bytesBefore_isValid (text : List Char) (n : Nat) :
    String.Pos.Raw.IsValid (String.ofList text) ⟨bytesBefore text n⟩ :=
  String.Pos.Raw.isValid_ofList.mpr ⟨n, length_utf8 _⟩

variable {text : List Char} {p q : Position} {m n : Nat}

/-- Whether a text has a place for a position: at a column of one of its lines, which end before a
line feed and the carriage return right before it, or behind the last line. -/
def HasPlace (text : List Char) (p : Position) : Prop :=
  (p.line.toNat < (addressLines text).length ∧
      p.character.toNat ≤ length16 (stripLineEnd (lineAt text p.line.toNat))) ∨
    (p.line.toNat = (addressLines text).length ∧ p.character = 0)

instance (text : List Char) (p : Position) : Decidable (HasPlace text p) :=
  inferInstanceAs (Decidable (_ ∨ _))

/-- Whether a position is the one behind a carriage return that ends the text. -/
def BehindLastReturn (text : List Char) (p : Position) : Prop :=
  text.getLast? = some '\r' ∧ p.line.toNat + 1 = (addressLines text).length ∧
    p.character.toNat = length16 (lineAt text p.line.toNat)

instance (text : List Char) (p : Position) : Decidable (BehindLastReturn text p) :=
  inferInstanceAs (Decidable (_ ∧ _))

/-- The text of a line before a column: it fills as many UTF-16 units as the column says, or one
more where the column splits a surrogate pair. -/
structure IsBefore (line : List Char) (column : Nat) (front : List Char) : Prop where
  within : front <+: stripLineEnd line
  whole : ¬SplitsPair line column → length16 front = column
  split : SplitsPair line column → length16 front = column + 1

/-- The byte of a text at which a position stands. A character starts or the text ends there, and
before it are the lines before the position's and the text of its line before its column. -/
structure StandsAt (text : List Char) (p : Position) (n : Nat) : Prop where
  boundary : String.Pos.Raw.IsValid (String.ofList text) ⟨n⟩
  before : ∃ front, IsBefore (lineAt text p.line.toNat) p.character.toNat front ∧
    (utf8 text).take n = utf8 (((addressLines text).take p.line.toNat).flatten ++ front)

theorem lineBody_isPrefix_stripLineEnd (line : List Char) : lineBody line <+: stripLineEnd line :=
  ⟨_, lineBody_append_lone_return line⟩

theorem le_length16_lineBody_iff (h : p.line.toNat < (addressLines text).length) :
    p.character.toNat ≤ length16 (lineBody (lineAt text p.line.toNat)) ↔
      p.character.toNat ≤ length16 (stripLineEnd (lineAt text p.line.toNat)) ∧
        ¬BehindLastReturn text p := by
  have body := lineBody_append_lone_return (lineAt text p.line.toNat)
  by_cases lone : (lineAt text p.line.toNat).getLast? = some '\r'
  · have whole : stripLineEnd (lineAt text p.line.toNat) = lineAt text p.line.toNat := by
      rw [stripLineEnd, if_neg (by simp [lone])]
    have behind : BehindLastReturn text p ↔
        p.character.toNat = length16 (lineAt text p.line.toNat) := by
      obtain ⟨last, line⟩ := (lineAt_returns_iff h).mp lone
      exact ⟨fun b => b.2.2, fun column => ⟨last, line, column⟩⟩
    -- The return is the one unit of the line's text that its body does not have.
    have units := congrArg length16 body
    rw [if_pos lone, length16_append, whole] at units
    have one : length16 ['\r'] = 1 := rfl
    rw [behind, whole]
    omega
  · have elsewhere : ¬BehindLastReturn text p := fun b =>
      lone ((lineAt_returns_iff h).mpr ⟨b.1, b.2.1⟩)
    rw [if_neg lone, List.append_nil] at body
    rw [body, and_iff_left elsewhere]

/-- A text resolves the positions that it has a place for, but for the one behind a carriage return
that ends it. -/
theorem exists_offset_iff (short : (utf8 text).length < UInt32.size) :
    (∃ m, offset text p = .ok m) ↔ HasPlace text p ∧ ¬BehindLastReturn text p := by
  constructor
  · rintro ⟨m, resolved⟩
    rcases offset_eq_ok resolved with ⟨last, zero, _⟩ | ⟨line, found, inside, _⟩
    · have elsewhere : ¬BehindLastReturn text p := fun b => by
        have := b.2.1
        omega
      exact ⟨.inr ⟨last, zero⟩, elsewhere⟩
    · have bound := (List.getElem?_eq_some_iff.mp found).1
      cases Option.some.inj (found.symm.trans (lineAt_found bound))
      obtain ⟨column, elsewhere⟩ := (le_length16_lineBody_iff bound).mp inside
      exact ⟨.inl ⟨bound, column⟩, elsewhere⟩
  · rintro ⟨⟨bound, column⟩ | last, elsewhere⟩
    · have inside := (le_length16_lineBody_iff bound).mpr ⟨column, elsewhere⟩
      exact ⟨_, offset_column (lineAt_found bound) inside (length16_lineBody_lt bound short)⟩
    · exact ⟨_, if_pos last⟩

theorem exists_byteOffset_iff :
    (∃ n, byteOffset text p = .ok n) ↔ ∃ m, offset text p = .ok m := by
  simp only [byteOffset_eq_ok_iff]
  constructor
  · rintro ⟨_, m, resolved, _⟩
    exact ⟨m, resolved⟩
  · rintro ⟨m, resolved⟩
    exact ⟨_, m, resolved, rfl⟩

theorem isBefore_take {line : List Char} {column : Nat}
    (inside : column ≤ length16 (lineBody line)) :
    IsBefore line column (line.take (charsAtColumn (lineBody line) column)) := by
  obtain ⟨tail, whole⟩ := lineBody_isPrefix line
  have chars : charsAtColumn (lineBody line) column = charsAtColumn line column := by
    have same := charsAtColumn_append_of_le inside tail
    rw [whole] at same
    exact same.symm
  have front : line.take (charsAtColumn (lineBody line) column) <+: lineBody line := by
    have body : (lineBody line ++ tail).take (charsAtColumn (lineBody line) column) =
        (lineBody line).take (charsAtColumn (lineBody line) column) :=
      List.take_append_of_le_length (charsAtColumn_le_length _ _)
    rw [whole] at body
    exact body ▸ List.take_prefix _ _
  have all : column ≤ length16 line := by
    have units := congrArg length16 whole
    rw [length16_append] at units
    omega
  refine ⟨front.trans (lineBody_isPrefix_stripLineEnd line), ?_, ?_⟩
  · intro between
    rw [chars]
    exact (length16_take_charsAtColumn all).resolve_right fun h => between h.1
  · intro splits
    rw [chars, splits.length16_take]

theorem standsAt_of_offset (resolved : offset text p = .ok m) :
    StandsAt text p (bytesBefore text m) := by
  refine ⟨bytesBefore_isValid text m, ?_⟩
  rw [← utf8_take]
  rcases offset_eq_ok resolved with ⟨last, zero, rfl⟩ | ⟨line, found, inside, rfl⟩
  · have empty : lineAt text p.line.toNat = [] := by
      rw [lineAt, List.getElem?_eq_none (Nat.le_of_eq last.symm), Option.getD_none]
    have before : IsBefore [] 0 [] := isBefore_take (Nat.zero_le _)
    refine ⟨[], by rwa [empty, zero], ?_⟩
    rw [List.take_length, List.take_of_length_le (Nat.le_of_eq last.symm), addressLines_flatten,
      List.append_nil]
  · have bound := (List.getElem?_eq_some_iff.mp found).1
    cases Option.some.inj (found.symm.trans (lineAt_found bound))
    refine ⟨_, isBefore_take inside, ?_⟩
    have chars := charsAtColumn_le_length (lineBody (lineAt text p.line.toNat)) p.character.toNat
    have body := (lineBody_isPrefix (lineAt text p.line.toNat)).length_le
    rw [take_lineStart_add found (Nat.le_trans chars body), take_lineStart]

theorem offset_le_offset (le : p.le q = true) (hp : offset text p = .ok m)
    (hq : offset text q = .ok n) : m ≤ n := by
  by_cases same : p = q
  · cases hp.symm.trans (same ▸ hq)
    exact Nat.le_refl _
  · have lt := Position.lt_iff_le_and_ne.mpr ⟨le, same⟩
    rcases offset_lt_or_coincide lt hp hq with less | ⟨same, _⟩
    · exact Nat.le_of_lt less
    · exact Nat.le_of_eq same

/-- A text resolves exactly the positions that it has a place for, but for the one behind a carriage
return that ends it. A position stands at the byte it is resolved to, and later positions are
resolved to no earlier bytes. -/
theorem positions_are_resolved (text : List Char) (short : (utf8 text).length < UInt32.size) :
    (∀ p, (∃ n, byteOffset text p = .ok n) ↔ HasPlace text p ∧ ¬BehindLastReturn text p) ∧
      (∀ p n, byteOffset text p = .ok n → StandsAt text p n) ∧
      ∀ p q m n, p.le q = true → byteOffset text p = .ok m → byteOffset text q = .ok n → m ≤ n := by
  refine ⟨fun p => exists_byteOffset_iff.trans (exists_offset_iff short), ?_, ?_⟩
  · intro p n resolved
    obtain ⟨m, chars, rfl⟩ := byteOffset_eq_ok_iff.mp resolved
    exact standsAt_of_offset chars
  · intro p q m n le hp hq
    obtain ⟨m, first, rfl⟩ := byteOffset_eq_ok_iff.mp hp
    obtain ⟨n, second, rfl⟩ := byteOffset_eq_ok_iff.mp hq
    have bound := offset_le_length first
    have bound' := offset_le_length second
    exact (bytesBefore_le_iff text bound bound').mpr (offset_le_offset le first second)

/-- A column inside a surrogate pair, on a line that a carriage return and a line feed end. -/
theorem column_inside_pair_is_resolved :
    let text := ['é', '\n', 'a', '😀', '\r', '\n', '\r']
    (utf8 text).length < UInt32.size ∧ (∃ n, byteOffset text ⟨1, 2⟩ = .ok n) ∧
      byteOffset text ⟨1, 2⟩ = .ok 8 ∧ StandsAt text ⟨1, 2⟩ 8 := by
  intro text
  have short : (utf8 text).length < UInt32.size := by decide
  obtain ⟨resolved, stands, _⟩ := positions_are_resolved text short
  exact ⟨short, (resolved ⟨1, 2⟩).mpr (by decide), rfl, stands _ _ rfl⟩

/-- A carriage return that ends the text ends no line, and yet the column behind it is refused. -/
theorem place_behind_lone_return_is_refused :
    (utf8 ['a', '\r']).length < UInt32.size ∧ HasPlace ['a', '\r'] ⟨0, 2⟩ ∧
      byteOffset ['a', '\r'] ⟨0, 2⟩ = .error (.characterPastEnd 2 0 1) :=
  ⟨by decide, by decide, rfl⟩

end CodeIntel
