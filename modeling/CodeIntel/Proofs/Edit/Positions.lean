import CodeIntel.Proofs.Edit.ByteSpans
import CodeIntel.Proofs.Edit.Lines
import CodeIntel.Proofs.Text.Columns

namespace CodeIntel

open List (Forall₂)

variable {text : List Char} {p q : Position} {m n : Nat}

/-- A position that names a place is the one behind the last line, or a column of a line. -/
theorem offset_eq_ok (h : offset text p = .ok m) :
    (p.line.toNat = (addressLines text).length ∧ p.character = 0 ∧ m = text.length) ∨
      ∃ line, (addressLines text)[p.line.toNat]? = some line ∧
        p.character.toNat ≤ length16 (lineBody line) ∧
        m = lineStart text p.line.toNat + charsAtColumn (lineBody line) p.character.toNat := by
  simp only [offset] at h
  split at h
  next last =>
    cases h
    exact .inl ⟨last.1, last.2, rfl⟩
  next =>
    split at h
    next => cases h
    next line found =>
      split at h
      next => cases h
      next inside =>
        cases h
        have counted := UInt32.le_iff_toNat_le.mp (UInt32.not_lt.mp inside)
        rw [UInt32.toNat_ofNat'] at counted
        exact .inr ⟨line, found, Nat.le_trans counted (Nat.mod_le _ _), rfl⟩

theorem lineStart_le_offset (h : offset text p = .ok m) : lineStart text p.line.toNat ≤ m := by
  rcases offset_eq_ok h with ⟨last, _, rfl⟩ | ⟨line, _, _, rfl⟩
  · exact Nat.le_of_eq (by rw [last, lineStart_length])
  · exact Nat.le_add_right _ _

/-- Whether two positions in ascending order name one place of a text by design: a column that
splits a surrogate pair stands for the one behind the pair, and the position one line past the last
for the end of a last line that ends with no carriage return. -/
inductive Coincide (text : List Char) : Position → Position → Prop
  | pair {l a b : UInt32} {line : List Char} (found : (addressLines text)[l.toNat]? = some line)
      (splits : SplitsPair (lineBody line) a.toNat) (next : b.toNat = a.toNat + 1) :
      Coincide text ⟨l, a⟩ ⟨l, b⟩
  | ending {l l' column : UInt32} {line : List Char}
      (found : (addressLines text)[l.toNat]? = some line)
      (last : l.toNat + 1 = (addressLines text).length) (bare : line.getLast? ≠ some '\r')
      (ends : column.toNat = length16 line ∨
        (SplitsPair line column.toNat ∧ column.toNat + 1 = length16 line))
      (behind : l'.toNat = l.toNat + 1) :
      Coincide text ⟨l, column⟩ ⟨l', 0⟩

theorem line_le_of_offset (h : offset text p = .ok m) :
    p.line.toNat ≤ (addressLines text).length := by
  rcases offset_eq_ok h with ⟨last, _⟩ | ⟨line, found, _⟩
  · exact Nat.le_of_eq last
  · exact Nat.le_of_lt (List.getElem?_eq_some_iff.mp found).1

/-- Only the end of a last line that nothing ends is where a later line starts. -/
theorem bare_of_ends {a b : Nat} {line : List Char} (above : a < b)
    (found : (addressLines text)[a]? = some line)
    (ends : lineStart text b ≤ lineStart text a + (lineBody line).length) :
    lineBody line = line ∧ a + 1 = (addressLines text).length := by
  have next := lineStart_succ found
  have later : lineStart text (a + 1) ≤ lineStart text b := lineStart_mono above
  have whole : lineBody line = line := (lineBody_isPrefix line).eq_of_length_le (by omega)
  refine ⟨whole, ?_⟩
  obtain ⟨ended, rest, cut⟩ := exists_cut text
  rcases cut.eq_rest_or_mem found with ⟨at', _⟩ | ⟨_, mem⟩
  · rw [cut.length, at']
  · exact absurd (cut.getLast?_of_mem mem) (lineBody_eq_self_iff.mp whole).1

theorem offset_lt_or_coincide_of_line_lt {l l' a b : UInt32} (above : l.toNat < l'.toNat)
    (hp : offset text ⟨l, a⟩ = .ok m) (hq : offset text ⟨l', b⟩ = .ok n) :
    m < n ∨ (m = n ∧ Coincide text ⟨l, a⟩ ⟨l', b⟩) := by
  have low : lineStart text l'.toNat ≤ n := lineStart_le_offset hq
  have within : l'.toNat ≤ (addressLines text).length := line_le_of_offset hq
  rcases offset_eq_ok hp with ⟨last, _⟩ | ⟨line, found, inside, rfl⟩
  · exact absurd last (Nat.ne_of_lt (Nat.lt_of_lt_of_le above within))
  · have body := lineStart_add_body_le above found
    have chars := charsAtColumn_le_length (lineBody line) a.toNat
    -- The later line starts no earlier than this body ends, so only the end of the text is left.
    refine (Nat.lt_or_ge _ n).imp_right fun ge => ?_
    simp only at found inside body ge ⊢
    obtain ⟨whole, last⟩ := bare_of_ends above found (by omega)
    have ends := ends_of_charsAtColumn_eq inside (by omega)
    rw [whole] at ends
    have zero : b = 0 := by
      rcases offset_eq_ok hq with ⟨_, zero, _⟩ | ⟨_, found', _⟩
      · exact zero
      · exact absurd (List.getElem?_eq_some_iff.mp found').1 (by simp only; omega)
    rw [zero]
    exact ⟨by omega, .ending found last (lineBody_eq_self_iff.mp whole).2 ends (by omega)⟩

theorem offset_lt_or_coincide_of_character_lt {l a b : UInt32} (less : a.toNat < b.toNat)
    (hp : offset text ⟨l, a⟩ = .ok m) (hq : offset text ⟨l, b⟩ = .ok n) :
    m < n ∨ (m = n ∧ Coincide text ⟨l, a⟩ ⟨l, b⟩) := by
  rcases offset_eq_ok hq with ⟨_, rfl, _⟩ | ⟨line, found, inside, rfl⟩
  · exact absurd less (Nat.not_lt_zero _)
  rcases offset_eq_ok hp with ⟨last, _⟩ | ⟨line', found', _, rfl⟩
  · exact absurd (List.getElem?_eq_some_iff.mp found).1 (Nat.not_lt.mpr (Nat.le_of_eq last.symm))
  · cases Option.some.inj (found.symm.trans found')
    refine (charsAtColumn_lt_or_splits less inside).imp (Nat.add_lt_add_left · _) ?_
    rintro ⟨same, splits, next⟩
    exact ⟨by rw [same], .pair found splits next⟩

/-- The greater of two positions names the later place, unless they coincide. -/
theorem offset_lt_or_coincide (lt : p.lt q = true) (hp : offset text p = .ok m)
    (hq : offset text q = .ok n) : m < n ∨ (m = n ∧ Coincide text p q) := by
  obtain ⟨l, a⟩ := p
  obtain ⟨l', b⟩ := q
  rcases Position.lt_iff.mp lt with above | ⟨rfl, less⟩
  · exact offset_lt_or_coincide_of_line_lt above hp hq
  · exact offset_lt_or_coincide_of_character_lt less hp hq

theorem offset_column {l column : UInt32} {line : List Char}
    (found : (addressLines text)[l.toNat]? = some line)
    (inside : column.toNat ≤ length16 (lineBody line)) (short : length16 (lineBody line) < UInt32.size) :
    offset text ⟨l, column⟩ =
      .ok (lineStart text l.toNat + charsAtColumn (lineBody line) column.toNat) := by
  have bound := (List.getElem?_eq_some_iff.mp found).1
  have counted : ¬UInt32.ofNat (length16 (lineBody line)) < column := by
    rw [UInt32.not_lt, UInt32.le_iff_toNat_le, UInt32.toNat_ofNat_of_lt' short]
    exact inside
  simp only [offset, found]
  rw [if_neg (fun last => Nat.ne_of_lt bound last.1), if_neg counted]
  rfl

/-- Positions that coincide name one place, unless a line is too long for its units to be counted. -/
theorem Coincide.exists_offset (h : Coincide text p q)
    (short : ∀ line ∈ addressLines text, length16 (lineBody line) < UInt32.size) :
    ∃ place, offset text p = .ok place ∧ offset text q = .ok place := by
  cases h with
  | @pair l a b line found splits next =>
    have counted := short line (List.mem_of_getElem? found)
    have inside := splits.succ_le
    refine ⟨_, offset_column found (by omega) counted, ?_⟩
    rw [offset_column found (by omega) counted, next, splits.charsAtColumn_succ]
  | @ending l l' column line found last bare ends behind =>
    have counted := short line (List.mem_of_getElem? found)
    have bound := (List.getElem?_eq_some_iff.mp found).1
    have feed : line.getLast? ≠ some '\n' := by
      have eq : line = lineAt text l.toNat := Option.some.inj (found.symm.trans (lineAt_found bound))
      rw [eq, Ne, lineAt_feeds_iff bound]
      omega
    have whole : lineBody line = line := lineBody_eq_self_iff.mpr ⟨feed, bare⟩
    have all : charsAtColumn (lineBody line) column.toNat = line.length := by
      rw [whole]
      rcases ends with at' | ⟨splits, next⟩
      · exact charsAtColumn_of_length16_le (Nat.le_of_eq at'.symm)
      · rw [← splits.charsAtColumn_succ]
        exact charsAtColumn_of_length16_le (Nat.le_of_eq next.symm)
    have inside : column.toNat ≤ length16 (lineBody line) := by
      rw [whole]
      omega
    have stop : offset text ⟨l', 0⟩ = .ok text.length := if_pos ⟨behind.trans last, rfl⟩
    refine ⟨_, offset_column found inside counted, ?_⟩
    rw [stop, all, ← lineStart_succ found, last, lineStart_length]

/-- The edit with its end moved to its start where it ends before it starts. -/
def TextEdit.collapsed (edit : TextEdit) : TextEdit :=
  if edit.range.stop.lt edit.range.start then
    { edit with range := ⟨edit.range.start, edit.range.start⟩ }
  else edit

theorem Sits.coincide {edit : TextEdit} {patch : Patch Char} (h : Sits text edit patch)
    (reversed : edit.range.stop.lt edit.range.start = true) :
    patch.stop = patch.start ∧ Coincide text edit.range.stop edit.range.start :=
  (offset_lt_or_coincide reversed h.stop h.start).resolve_left (Nat.not_lt.mpr h.upright)

/-- Whether all edits that end before they start do so at one place each. -/
def ReversalsCoincide (text : List Char) (edits : List TextEdit) : Prop :=
  ∀ edit ∈ edits, edit.range.stop.lt edit.range.start = true →
    Coincide text edit.range.stop edit.range.start

/-- Whether the edit, if it ends before it starts, has both its positions at one place. -/
def TextEdit.IsLevel (text : List Char) (edit : TextEdit) : Prop :=
  edit.range.stop.lt edit.range.start = true →
    ∃ m, offset text edit.range.stop = .ok m ∧ offset text edit.range.start = .ok m

theorem place_collapsed {edit : TextEdit} (level : edit.IsLevel text) (number : Nat) :
    place text number edit.collapsed = place text number edit := by
  unfold TextEdit.collapsed
  split
  next reversed =>
    obtain ⟨m, stop, start⟩ := level reversed
    simp only [place, start, stop, mapError_ok, ok_bind, Nat.lt_irrefl, if_false]
  next => rfl

theorem placeFrom_collapsed {edits : List TextEdit} (level : ∀ edit ∈ edits, edit.IsLevel text)
    (number : Nat) :
    placeFrom text number (edits.map TextEdit.collapsed) = placeFrom text number edits := by
  induction edits generalizing number with
  | nil => rfl
  | cons edit rest ih =>
    obtain ⟨first, others⟩ := List.forall_mem_cons.mp level
    rw [List.map_cons, placeFrom, placeFrom, place_collapsed first, ih others]

theorem applied_collapsed {edits : List TextEdit} (level : ∀ edit ∈ edits, edit.IsLevel text) :
    EditFile.applied text (edits.map TextEdit.collapsed) = EditFile.applied text edits := by
  unfold EditFile.applied applyEdits
  rw [placeFrom_collapsed level]

/-- Edits are refused, or else those that end before they start do so at one place each. -/
theorem refused_or_level (text : List Char) (edits : List TextEdit) :
    (∃ reason, EditFile.applied text edits = .error (.invalidEditRange reason)) ∨
      (ReversalsCoincide text edits ∧ ∀ edit ∈ edits, edit.IsLevel text) := by
  cases outcome : applyEdits text edits with
  | error cause => exact .inl ⟨cause.message, by simp [EditFile.applied, outcome]⟩
  | ok result =>
    obtain ⟨_, ⟨_, sits, _⟩, _⟩ := applyEdits_eq_ok_iff.mp outcome
    have sits : ∀ edit ∈ edits, ∃ patch, Sits text edit patch := fun edit mem => by
      obtain ⟨patch, _, place⟩ := mem_of_forall₂_right sits.flip mem
      exact ⟨patch, place⟩
    refine .inr ⟨fun edit mem reversed => ?_, fun edit mem reversed => ?_⟩
    · obtain ⟨_, place⟩ := sits edit mem
      exact (place.coincide reversed).2
    · obtain ⟨patch, place⟩ := sits edit mem
      exact ⟨patch.start, (place.coincide reversed).1 ▸ place.stop, place.start⟩

/-- A list with an edit that ends before it starts is refused, unless the two positions name one
place. Where all such edits are of that kind, the list is taken as if each of them inserted at its
start. Only where a line is too long for its units to be counted may it still be refused. -/
theorem reversed_range_is_refused (text : List Char) (edits : List TextEdit) :
    (¬ReversalsCoincide text edits →
      ∃ reason, EditFile.applied text edits = .error (.invalidEditRange reason)) ∧
    (ReversalsCoincide text edits →
      EditFile.applied text edits = EditFile.applied text (edits.map TextEdit.collapsed) ∨
        ((∃ line ∈ addressLines text, UInt32.size ≤ length16 (lineBody line)) ∧
          ∃ reason, EditFile.applied text edits = .error (.invalidEditRange reason))) := by
  have either := refused_or_level text edits
  refine ⟨fun apart => either.resolve_right fun both => apart both.1, fun coincide => ?_⟩
  by_cases short : ∀ line ∈ addressLines text, length16 (lineBody line) < UInt32.size
  · have level : ∀ edit ∈ edits, edit.IsLevel text := fun edit mem reversed =>
      (coincide edit mem reversed).exists_offset short
    exact .inl (applied_collapsed level).symm
  · rcases either with refused | ⟨_, level⟩
    · simp only [not_forall, Nat.not_lt, exists_prop] at short
      exact .inr ⟨short, refused⟩
    · exact .inl (applied_collapsed level).symm

/-- A way back over a letter is refused, and one back into a surrogate pair is an insertion. -/
theorem reversed_range_is_refused_or_inserts :
    let edit : TextEdit := ⟨⟨⟨0, 2⟩, ⟨0, 1⟩⟩, ['x']⟩
    (¬ReversalsCoincide ['a', 'b', 'c'] [edit] ∧
      ∃ reason, EditFile.applied ['a', 'b', 'c'] [edit] = .error (.invalidEditRange reason)) ∧
    ReversalsCoincide ['😀'] [edit] ∧
      EditFile.applied ['😀'] [edit] = EditFile.applied ['😀'] [⟨⟨⟨0, 2⟩, ⟨0, 2⟩⟩, ['x']⟩] := by
  intro edit
  have apart : ¬ReversalsCoincide ['a', 'b', 'c'] [edit] := by
    intro coincide
    have here : Coincide ['a', 'b', 'c'] ⟨0, 1⟩ ⟨0, 2⟩ := coincide edit List.mem_cons_self rfl
    obtain ⟨place, stop, start⟩ := here.exists_offset (by decide)
    have one : offset ['a', 'b', 'c'] ⟨0, 1⟩ = .ok 1 := rfl
    have two : offset ['a', 'b', 'c'] ⟨0, 2⟩ = .ok 2 := rfl
    cases (one.symm.trans stop).trans (start.symm.trans two)
  have coincide : ReversalsCoincide ['😀'] [edit] := by
    intro other mem _
    obtain rfl := List.mem_singleton.mp mem
    have splits : SplitsPair (lineBody ['😀']) 1 := ⟨[], '😀', [], rfl, rfl, rfl⟩
    exact .pair rfl splits rfl
  refine ⟨⟨apart, (reversed_range_is_refused _ _).1 apart⟩, coincide, ?_⟩
  refine ((reversed_range_is_refused _ _).2 coincide).resolve_right ?_
  rintro ⟨⟨line, mem, long⟩, _⟩
  obtain rfl := List.mem_singleton.mp mem
  exact absurd long (by decide)

/-- From behind a surrogate pair back into it is no way at all. -/
theorem range_back_into_pair_is_applied :
    let edit : TextEdit := ⟨⟨⟨0, 2⟩, ⟨0, 1⟩⟩, ['x']⟩
    edit.range.stop.lt edit.range.start = true ∧
      EditFile.applied ['😀'] [edit] = .ok ['😀', 'x'] :=
  ⟨rfl, rfl⟩

end CodeIntel

namespace CodeIntel

open List (Forall₂)

variable {text newText : List Char}

theorem offset_lineStart {l : UInt32} (h : l.toNat ≤ (addressLines text).length) :
    offset text ⟨l, 0⟩ = .ok (lineStart text l.toNat) := by
  simp only [offset]
  split
  next last => rw [last.1, lineStart_length]
  next below =>
    have lt : l.toNat < (addressLines text).length :=
      Nat.lt_of_le_of_ne h fun eq => below ⟨eq, trivial⟩
    rw [List.getElem?_eq_getElem lt]
    simp [lineStart]

/-- The number of characters before the column that stands for the end of a line's body. It counts
in 32 bits and falls short of the body of a longer line. -/
def bodyChars (line : List Char) : Nat :=
  charsAtColumn (lineBody line) (UInt32.ofNat (length16 (lineBody line))).toNat

theorem bodyChars_le (line : List Char) : bodyChars line ≤ (lineBody line).length :=
  charsAtColumn_le_length _ _

theorem bodyChars_eq {line : List Char} (short : length16 (lineBody line) < UInt32.size) :
    bodyChars line = (lineBody line).length := by
  rw [bodyChars, UInt32.toNat_ofNat_of_lt' short]
  exact charsAtColumn_of_length16_le (Nat.le_refl _)

/-- The column has the whole line before it exactly if nothing ends the line and it is not too long
to be counted. -/
theorem bodyChars_eq_length_iff {line : List Char} :
    bodyChars line = line.length ↔ lineBody line = line ∧ length16 line < UInt32.size := by
  constructor
  · intro all
    have body := lineBody_isPrefix line
    have whole : lineBody line = line := body.eq_of_length_le (all ▸ bodyChars_le line)
    refine ⟨whole, ?_⟩
    rw [bodyChars, whole, UInt32.toNat_ofNat'] at all
    have column := ends_of_charsAtColumn_eq (Nat.mod_le _ _) all
    rw [UInt32.size]
    omega
  · rintro ⟨whole, short⟩
    rw [bodyChars_eq (by rwa [whole]), whole]

theorem offset_bodyEnd {l : UInt32} {line : List Char}
    (found : (addressLines text)[l.toNat]? = some line) :
    offset text ⟨l, EditRequest.bodyLength16 text l.toNat⟩ =
      .ok (lineStart text l.toNat + bodyChars line) := by
  have bound := (List.getElem?_eq_some_iff.mp found).1
  simp only [offset, EditRequest.bodyLength16, found]
  rw [if_neg (fun last => Nat.ne_of_lt bound last.1), if_neg (UInt32.lt_irrefl _)]
  rfl

/-- Where an edit of the lines from `first` to `last` sits, counted from one. -/
def linesPatch (text : List Char) (first last : Nat) (newText : List Char) : Patch Char :=
  if last < (addressLines text).length then
    let terminator :=
      if newText = [] ∨ newText.getLast? = some '\n' then []
      else lineTerminator (lineAt text (last - 1))
    ⟨lineStart text (first - 1), lineStart text last, newText ++ terminator⟩
  else
    let start :=
      if newText = [] ∧ 1 < first then
        lineStart text (first - 2) + bodyChars (lineAt text (first - 2))
      else lineStart text (first - 1)
    ⟨start, lineStart text (last - 1) + bodyChars (lineAt text (last - 1)), newText⟩

theorem visibleLines_le (text : List Char) :
    (visibleLines text).toNat ≤ (addressLines text).length := by
  have nonempty : 0 < (addressLines text).length := List.length_pos_iff.mpr (addressLines_ne_nil text)
  unfold visibleLines
  rw [UInt32.toNat_ofNat']
  refine Nat.le_trans (Nat.mod_le _ _) ?_
  split <;> omega

/-- Whether a text has the lines from `first` to `last`, counted from one. -/
structure HasLines (text : List Char) (first last : UInt32) : Prop where
  low : first ≠ 0
  upright : first ≤ last
  within : last ≤ visibleLines text

theorem HasLines.bounds {first last : UInt32} (h : HasLines text first last) :
    0 < first.toNat ∧ first.toNat ≤ last.toNat ∧ last.toNat ≤ (addressLines text).length :=
  ⟨Nat.pos_of_ne_zero fun zero => h.low (UInt32.toNat_inj.mp zero),
    UInt32.le_iff_toNat_le.mp h.upright,
    Nat.le_trans (UInt32.le_iff_toNat_le.mp h.within) (visibleLines_le text)⟩

theorem hasLines_iff {first last : UInt32} :
    HasLines text first last ↔ ¬(first = 0 ∨ last < first ∨ visibleLines text < last) := by
  rw [not_or, not_or, UInt32.not_lt, UInt32.not_lt]
  exact ⟨fun h => ⟨h.low, h.upright, h.within⟩, fun h => ⟨h.1, h.2.1, h.2.2⟩⟩

theorem offset_lineStart_sub {l k : UInt32} (hk : k.toNat ≤ l.toNat)
    (bound : l.toNat - k.toNat ≤ (addressLines text).length) :
    offset text ⟨l - k, 0⟩ = .ok (lineStart text (l.toNat - k.toNat)) := by
  rw [← UInt32.toNat_sub_of_le _ _ (UInt32.le_iff_toNat_le.mpr hk)] at bound ⊢
  exact offset_lineStart bound

theorem offset_bodyEnd_sub {l k : UInt32} (hk : k.toNat ≤ l.toNat)
    (bound : l.toNat - k.toNat < (addressLines text).length) :
    offset text ⟨l - k, EditRequest.bodyLength16 text (l.toNat - k.toNat)⟩ =
      .ok (lineStart text (l.toNat - k.toNat) + bodyChars (lineAt text (l.toNat - k.toNat))) := by
  rw [← UInt32.toNat_sub_of_le _ _ (UInt32.le_iff_toNat_le.mpr hk)] at bound ⊢
  exact offset_bodyEnd (lineAt_found bound)

theorem bodyEnd_le_lineStart {a b : Nat} (h : a < b) (bound : a < (addressLines text).length) :
    lineStart text a + bodyChars (lineAt text a) ≤ lineStart text b :=
  Nat.le_trans (Nat.add_le_add_left (bodyChars_le _) _) (lineStart_add_body_le h (lineAt_found bound))

/-- Lines that a text has are replaced by an edit that sits there. -/
theorem linesEdit_sits {first last : UInt32} (has : HasLines text first last)
    (newText : List Char) :
    ∃ edit, EditRequest.linesEdit text first last newText = .ok edit ∧
      Sits text edit (linesPatch text first.toNat last.toNat newText) := by
  obtain ⟨low, upright, within⟩ := has.bounds
  have one : (1 : UInt32).toNat = 1 := rfl
  have two : (2 : UInt32).toNat = 2 := rfl
  have start : offset text ⟨first - 1, 0⟩ = .ok (lineStart text (first.toNat - 1)) :=
    offset_lineStart_sub low (by omega)
  unfold EditRequest.linesEdit linesPatch
  simp only [if_neg (hasLines_iff.mp has)]
  split
  next => exact ⟨_, rfl, start, offset_lineStart within, rfl, lineStart_mono (by omega)⟩
  next =>
    have stop : offset text ⟨last - 1, EditRequest.bodyLength16 text (last.toNat - 1)⟩ = _ :=
      offset_bodyEnd_sub (Nat.le_trans low upright) (by omega)
    by_cases deletes : newText = [] ∧ 1 < first
    · have second : 1 < first.toNat := UInt32.lt_iff_toNat_lt.mp deletes.2
      rw [if_pos deletes, if_pos ⟨deletes.1, second⟩]
      have start' : offset text ⟨first - 2, EditRequest.bodyLength16 text (first.toNat - 2)⟩ = _ :=
        offset_bodyEnd_sub second (by omega)
      have before : _ ≤ lineStart text (last.toNat - 1) :=
        bodyEnd_le_lineStart (by omega : first.toNat - 2 < last.toNat - 1) (by omega)
      exact ⟨_, rfl, start', stop, rfl, Nat.le_trans before (Nat.le_add_right _ _)⟩
    · have kept : ¬(newText = [] ∧ 1 < first.toNat) :=
        fun h => deletes ⟨h.1, UInt32.lt_iff_toNat_lt.mpr h.2⟩
      rw [if_neg deletes, if_neg kept]
      have before : _ ≤ lineStart text (last.toNat - 1) :=
        lineStart_mono (by omega : first.toNat - 1 ≤ last.toNat - 1)
      exact ⟨_, rfl, start, stop, rfl, Nat.le_trans before (Nat.le_add_right _ _)⟩

theorem resolveEdits_eq_ok_iff {number : Nat} {requests : List EditRequest}
    {edits : List TextEdit} :
    EditFile.resolveEdits text number requests = .ok edits ↔
      Forall₂ (fun request edit => request.resolve text = .ok edit) requests edits := by
  induction requests generalizing number edits with
  | nil =>
    rw [List.forall₂_nil_left_iff]
    exact ⟨fun h => (Except.ok.inj h).symm, fun h => h ▸ rfl⟩
  | cons request rest ih =>
    simp only [EditFile.resolveEdits, bind_eq_ok_iff, mapError_eq_ok_iff, ih,
      List.forall₂_cons_left_iff]
    constructor
    · rintro ⟨edit, first, more, others, done⟩
      exact ⟨edit, more, first, others, (Except.ok.inj done).symm⟩
    · rintro ⟨edit, more, first, others, rfl⟩
      exact ⟨edit, first, more, others, rfl⟩

/-- A list with one patch put in. -/
def Patch.splice {α : Type} (xs : List α) (p : Patch α) : List α :=
  xs.take p.start ++ p.filling ++ xs.drop p.stop

theorem Sits.applyEdits_singleton {edit : TextEdit} {patch : Patch Char}
    (h : Sits text edit patch) : applyEdits text [edit] = .ok (patch.splice text) := by
  have spread : Patch.Spread text.length [patch] :=
    ⟨List.pairwise_singleton _ _, by simpa using h.upright, by simpa using h.within⟩
  exact applyEdits_eq_ok_iff.mpr ⟨[patch], ⟨[patch], .cons h .nil, .refl _⟩, spread, rfl⟩

/-- Lines that a text has are replaced as their edit says. -/
theorem updated_lines {first last : UInt32} (has : HasLines text first last) (newText : String) :
    EditFile.updated text [.lines first last newText] =
      .ok ((linesPatch text first.toNat last.toNat newText.toList).splice text) := by
  obtain ⟨edit, resolved, sits⟩ := linesEdit_sits has newText.toList
  have edits : EditFile.resolveEdits text 1 [.lines first last newText] = .ok [edit] :=
    resolveEdits_eq_ok_iff.mpr (.cons resolved .nil)
  exact bind_eq_ok_iff.mpr ⟨[edit], edits, applied_eq_ok_iff.mpr sits.applyEdits_singleton⟩

theorem updated_of_not_hasLines {first last : UInt32} (h : ¬HasLines text first last)
    (newText : String) :
    EditFile.updated text [.lines first last newText] =
      .error (.invalidEditRange
        s!"edit 1: lines {first}-{last} are outside the file's {visibleLines text} line(s)") := by
  have refused : EditRequest.linesEdit text first last newText.toList = .error _ :=
    if_pos (not_not.mp (mt hasLines_iff.mpr h))
  simp only [EditFile.updated, EditFile.resolveEdits, EditRequest.resolve, refused]
  rfl

end CodeIntel
