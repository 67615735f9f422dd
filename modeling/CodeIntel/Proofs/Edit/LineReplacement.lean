import CodeIntel.Proofs.Edit.Positions

namespace CodeIntel

section LineReplacement

variable {text : List Char}

/-- What ends a text: a line feed with the carriage return right before it, or nothing. -/
def lineEnding (text : List Char) : List Char :=
  if ['\r', '\n'] <:+ text then ['\r', '\n'] else if ['\n'] <:+ text then ['\n'] else []

theorem suffix_return_feed_iff {body : List Char} :
    ['\r', '\n'] <:+ body ++ ['\n'] ↔ body.getLast? = some '\r' := by
  rw [List.getLast?_eq_some_iff]
  constructor
  · rintro ⟨front, eq⟩
    have same : front ++ ['\r'] ++ ['\n'] = body ++ ['\n'] := by simpa using eq
    exact ⟨front, (List.append_cancel_right same).symm⟩
  · rintro ⟨front, rfl⟩
    exact ⟨front, by simp⟩

theorem stripLineEnd_append_lineEnding {line : List Char} (feed : line.getLast? = some '\n') :
    stripLineEnd line ++ lineEnding line = line := by
  obtain ⟨body, rfl⟩ := List.getLast?_eq_some_iff.mp feed
  simp only [stripLineEnd, lineEnding, suffix_return_feed_iff, List.getLast?_concat, if_true,
    List.dropLast_concat, List.suffix_append]
  split
  next ends =>
    obtain ⟨front, rfl⟩ := List.getLast?_eq_some_iff.mp ends
    simp
  next => rfl

/-- Before a line feed the same is taken for a terminator wherever lines are cut. -/
theorem lineBody_eq_stripLineEnd {line : List Char} (feed : line.getLast? = some '\n') :
    lineBody line = stripLineEnd line := by
  simp only [lineBody, stripLineEnd, dropLastIf, if_pos feed]

theorem lineTerminator_eq_lineEnding {line : List Char} (feed : line.getLast? = some '\n') :
    lineTerminator line = lineEnding line := by
  have behind := congrArg (List.drop (stripLineEnd line).length) (stripLineEnd_append_lineEnding feed)
  rw [List.drop_left] at behind
  rw [lineTerminator, lineBody_eq_stripLineEnd feed, behind]

/-- A carriage return that ends a line without a line feed does not belong to its body. -/
theorem lineBody_append_return {line : List Char} (bare : line.getLast? ≠ some '\n') :
    lineBody line ++ (if line.getLast? = some '\r' then ['\r'] else []) = line := by
  rw [lineBody, dropLastIf_eq_self_iff.mpr bare, dropLastIf]
  split
  next last => exact List.dropLast_append_getLast? _ last
  next => exact List.append_nil line

/-- A carriage return at the end of a line is left out of its body also where it is no part of a
terminator. -/
theorem lineBody_append_lone_return (line : List Char) :
    lineBody line ++ (if line.getLast? = some '\r' then ['\r'] else []) = stripLineEnd line := by
  by_cases feed : line.getLast? = some '\n'
  · have other : line.getLast? ≠ some '\r' := by simp [feed]
    rw [if_neg other, List.append_nil, lineBody_eq_stripLineEnd feed]
  · rw [lineBody_append_return feed, stripLineEnd, if_neg feed]

theorem stripLineEnd_append {front line : List Char} (h : front.getLast? ≠ some '\r')
    (feed : line.getLast? = some '\n') :
    stripLineEnd (front ++ line) = front ++ stripLineEnd line := by
  obtain ⟨body, rfl⟩ := List.getLast?_eq_some_iff.mp feed
  rw [← List.append_assoc]
  simp only [stripLineEnd, List.getLast?_concat, if_true, List.dropLast_concat]
  by_cases empty : body = []
  · subst empty
    simp [h]
  · rw [List.getLast?_append_of_ne_nil _ empty, List.dropLast_append_of_ne_nil empty]
    split <;> rfl

/-- The body of a line that has a line feed ends before the next line starts. -/
theorem bodyEnd_lt_lineStart {n : Nat} (h : n + 1 < (addressLines text).length) :
    lineStart text n + bodyChars (lineAt text n) < lineStart text (n + 1) := by
  have bound := Nat.lt_of_succ_lt h
  have feed := (lineAt_feeds_iff bound).mpr h
  have chars := bodyChars_le (lineAt text n)
  have body := lineBody_isPrefix (lineAt text n)
  have shorter : (lineBody (lineAt text n)).length < (lineAt text n).length := by
    refine Nat.lt_of_not_le fun le => ?_
    exact (lineBody_eq_self_iff.mp (body.eq_of_length_le le)).1 feed
  rw [lineStart_succ (lineAt_found bound)]
  omega

theorem length16_lineBody_lt {n : Nat} (h : n < (addressLines text).length)
    (short : (utf8 text).length < UInt32.size) : length16 (lineBody (lineAt text n)) < UInt32.size := by
  have infix' : lineBody (lineAt text n) <:+: text := by
    have line := List.infix_of_mem_flatten (List.mem_of_getElem? (lineAt_found h))
    rw [addressLines_flatten] at line
    exact (lineBody_isPrefix _).isInfix.trans line
  obtain ⟨front, back, eq⟩ := infix'
  have bytes := length16_le_length_utf8 (lineBody (lineAt text n))
  rw [← eq, utf8_append, utf8_append, List.length_append, List.length_append] at short
  omega

/-- The text up to the end of a line's body is the text before the next line without the terminator
between them. -/
theorem stripLineEnd_take_lineStart {n : Nat} (h : n + 1 < (addressLines text).length)
    (short : (utf8 text).length < UInt32.size) :
    stripLineEnd (text.take (lineStart text (n + 1))) =
      text.take (lineStart text n + bodyChars (lineAt text n)) := by
  have bound := Nat.lt_of_succ_lt h
  have feed := (lineAt_feeds_iff bound).mpr h
  have body := lineBody_isPrefix (lineAt text n)
  rw [bodyChars_eq (length16_lineBody_lt bound short),
    take_lineStart_add (lineAt_found bound) body.length_le, ← List.prefix_iff_eq_take.mp body,
    take_lineStart_succ bound, stripLineEnd_append (getLast?_take_lineStart bound) feed,
    lineBody_eq_stripLineEnd feed]

/-- Behind the body of a last line without a line feed stands at most a carriage return. -/
theorem drop_bodyEnd {n : Nat} (h : n + 1 = (addressLines text).length)
    (short : (utf8 text).length < UInt32.size) :
    text.drop (lineStart text n + bodyChars (lineAt text n)) =
      if (lineAt text n).getLast? = some '\r' then ['\r'] else [] := by
  have bound := Nat.lt_of_succ_le (Nat.le_of_eq h)
  have bare := mt (lineAt_feeds_iff bound).mp (Nat.not_lt.mpr (Nat.le_of_eq h.symm))
  have behind := congrArg (List.drop (lineBody (lineAt text n)).length) (lineBody_append_return bare)
  rw [List.drop_left] at behind
  rw [bodyChars_eq (length16_lineBody_lt bound short),
    drop_lineStart_add (lineAt_found bound) (lineBody_isPrefix _).length_le, h, lineStart_length,
    List.drop_length, List.append_nil, behind]

/-- The text after the lines from `first` to `last`, counted from one and both included, are
replaced. A terminator of the last line comes back behind a new text that holds something and does
not end its line itself. Where the last line has no line feed, the new text stands alone but for a
carriage return at the end of that line, and the line before loses its terminator if there is no new
text. -/
def replaceLines (text : List Char) (first last : Nat) (newText : List Char) : List Char :=
  let lines := linesWithEnds text
  let before := (lines.take (first - 1)).flatten
  let line := lines[last - 1]?.getD []
  let behind := (lines.drop last).flatten
  if line.getLast? = some '\n' then
    if newText = [] ∨ newText.getLast? = some '\n' then before ++ newText ++ behind
    else before ++ newText ++ lineEnding line ++ behind
  else
    let kept := if line.getLast? = some '\r' then ['\r'] else []
    if newText = [] then stripLineEnd before ++ kept else before ++ newText ++ kept

theorem splice_linesPatch {first last : UInt32} (has : HasLines text first last)
    (short : (utf8 text).length < UInt32.size) (newText : List Char) :
    (linesPatch text first.toNat last.toNat newText).splice text =
      replaceLines text first.toNat last.toNat newText := by
  obtain ⟨low, upright, within⟩ := has.bounds
  have bound : last.toNat - 1 < (addressLines text).length := by omega
  have next : last.toNat - 1 + 1 = last.toNat := by omega
  simp only [replaceLines, flatten_take_linesWithEnds, flatten_drop_linesWithEnds,
    getD_linesWithEnds, linesPatch, lineAt_feeds_iff bound, next]
  split
  next fed =>
    have feed := (lineAt_feeds_iff bound).mpr (next.symm ▸ fed)
    rw [lineTerminator_eq_lineEnding feed]
    split <;> simp [Patch.splice]
  next whole =>
    have last' : last.toNat - 1 + 1 = (addressLines text).length := by omega
    simp only [Patch.splice, drop_bodyEnd last' short]
    by_cases empty : newText = []
    · rw [if_pos empty, empty, List.append_nil]
      by_cases second : 1 < first.toNat
      · have before : first.toNat - 1 = first.toNat - 2 + 1 := by omega
        rw [if_pos ⟨rfl, second⟩, before, stripLineEnd_take_lineStart (by omega) short]
      · have only : first.toNat - 1 = 0 := by omega
        rw [if_neg (fun h => second h.2), only, lineStart_zero, List.take_zero]
        rfl
    · rw [if_neg empty, if_neg (fun h => empty h.1)]

theorem toNat_visibleLines (short : (utf8 text).length < UInt32.size) :
    (visibleLines text).toNat = max (linesWithEnds text).length 1 := by
  have lines := length_linesWithEnds_le text
  have chars := Nat.le_trans (length_le_length16 text) (length16_le_length_utf8 text)
  rw [visibleLines_eq, UInt32.toNat_ofNat_of_lt']
  exact Nat.max_lt.mpr ⟨by omega, by decide⟩

/-- One edit of whole lines is refused exactly if its lines are not in the text, and replaces them
otherwise. -/
theorem lines_are_replaced (text : List Char) (short : (utf8 text).length < UInt32.size)
    (first last : UInt32) (newText : String) :
    let count := max (linesWithEnds text).length 1
    let outside := first = 0 ∨ last < first ∨ count < last.toNat
    (outside →
      EditFile.updated text [.lines first last newText] =
        .error (.invalidEditRange
          s!"edit 1: lines {first}-{last} are outside the file's {count} line(s)")) ∧
    (¬outside →
      EditFile.updated text [.lines first last newText] =
        .ok (replaceLines text first.toNat last.toNat newText.toList)) := by
  intro count outside
  have visible : (visibleLines text).toNat = count := toNat_visibleLines short
  have has : HasLines text first last ↔ ¬outside := by
    have below : visibleLines text < last ↔ count < last.toNat := by
      rw [UInt32.lt_iff_toNat_lt, visible]
    rw [hasLines_iff, below]
  constructor
  · intro out
    have shown : toString (visibleLines text) = toString count := congrArg toString visible
    rw [updated_of_not_hasLines (fun h => has.mp h out), shown]
  · intro inside
    have has := has.mpr inside
    rw [updated_lines has, splice_linesPatch has short]

/-- Where the last line has no line feed, deleting it takes the line break before it, and a carriage
return at its end stays. -/
theorem last_line_is_deleted :
    let text := ['a', '\r', '\n', '😀', '\r']
    (utf8 text).length < UInt32.size ∧ EditFile.updated text [.lines 2 2 ""] = .ok ['a', '\r'] :=
  ⟨by decide, (lines_are_replaced _ (by decide) 2 2 "").2 (by decide)⟩

end LineReplacement

variable {text line : List Char}

theorem feed_not_mem_shown {n : Nat} (h : n + 1 < (addressLines text).length) :
    '\n' ∉ stripLineEnd (lineAt text n) := by
  obtain ⟨ended, rest, cut⟩ := exists_cut text
  have found := lineAt_found (Nat.lt_of_succ_lt h)
  rw [cut.length] at h
  rcases cut.eq_rest_or_mem found with ⟨rfl, _⟩ | ⟨_, mem⟩
  · exact absurd h (Nat.lt_irrefl _)
  · obtain ⟨front, plain, eq⟩ := cut.feeds _ mem
    rw [eq]
    simp only [stripLineEnd, List.getLast?_concat, if_true, List.dropLast_concat]
    split
    · exact fun mem => plain (List.dropLast_subset front mem)
    · exact plain

/-- A shown line is one that a position may address, without its terminator. -/
theorem getElem?_splitLines {n : Nat} (h : (splitLines text)[n]? = some line) :
    n < (addressLines text).length ∧ line = stripLineEnd (lineAt text n) := by
  rw [splitLines, List.getElem?_map, Option.map_eq_some_iff] at h
  obtain ⟨raw, found, rfl⟩ := h
  have same : raw = lineAt text n := by
    rw [← getD_linesWithEnds, found, Option.getD_some]
  obtain ⟨ended, rest, cut⟩ := exists_cut text
  have bound := (List.getElem?_eq_some_iff.mp found).1
  rw [cut.shown, List.length_append] at bound
  refine ⟨?_, by rw [same]⟩
  rw [cut.length]
  split at bound
  · exact Nat.lt_succ_of_lt (by simpa using bound)
  · simpa using bound

/-- A shown line put in for itself gets back its terminator. -/
theorem splice_shown_ended {n : Nat} (pos : 0 < n) (ended : n < (addressLines text).length)
    (shown : line = stripLineEnd (lineAt text (n - 1))) (nonempty : line ≠ []) :
    (linesPatch text n n line).splice text = text := by
  have next : n - 1 + 1 = n := Nat.sub_add_cancel pos
  have bound : n - 1 < (addressLines text).length := by omega
  have feed := (lineAt_feeds_iff bound).mpr (next.symm ▸ ended)
  have plain : line.getLast? ≠ some '\n' := by
    intro ends
    exact feed_not_mem_shown (next.symm ▸ ended) (shown ▸ List.mem_of_getLast? ends)
  have whole : line ++ lineTerminator (lineAt text (n - 1)) = lineAt text (n - 1) := by
    rw [shown, lineTerminator_eq_lineEnding feed, stripLineEnd_append_lineEnding feed]
  rw [linesPatch, if_pos ended]
  simp only [Patch.splice, if_neg (not_or.mpr ⟨nonempty, plain⟩)]
  rw [whole, ← take_lineStart_succ bound, next, List.take_append_drop]

/-- A last line without a line feed is put in for itself exactly if no carriage return ends it and
32 bits count its units. -/
theorem splice_shown_rest_iff {n : Nat} (pos : 0 < n) (last : n = (addressLines text).length)
    (shown : line = lineAt text (n - 1)) (nonempty : line ≠ []) :
    (linesPatch text n n line).splice text = text ↔
      line.getLast? ≠ some '\r' ∧ length16 line < UInt32.size := by
  have next : n - 1 + 1 = n := Nat.sub_add_cancel pos
  have bound : n - 1 < (addressLines text).length := by omega
  have bare : line.getLast? ≠ some '\n' := by
    rw [shown, Ne, lineAt_feeds_iff bound]
    omega
  have whole : text.take (lineStart text (n - 1)) ++ line = text := by
    rw [shown, ← take_lineStart_succ bound, next, last, lineStart_length, List.take_length]
  have length : lineStart text (n - 1) + line.length = text.length := by
    rw [shown, ← lineStart_succ (lineAt_found bound), next, last, lineStart_length]
  have chars := Nat.le_trans (bodyChars_le line) (lineBody_isPrefix line).length_le
  rw [linesPatch, if_neg (by omega)]
  simp only [Patch.splice, if_neg (fun h => nonempty h.1 : ¬(line = [] ∧ 1 < n)), ← shown]
  rw [whole, List.append_right_eq_self, List.drop_eq_nil_iff]
  calc text.length ≤ lineStart text (n - 1) + bodyChars line
      ↔ bodyChars line = line.length := by omega
    _ ↔ lineBody line = line ∧ length16 line < UInt32.size := bodyChars_eq_length_iff
    _ ↔ line.getLast? ≠ some '\r' ∧ length16 line < UInt32.size := by
      rw [lineBody_eq_self_iff, and_iff_right bare]

theorem splice_shown_iff {n : Nat} (pos : 0 < n) (bound : n - 1 < (addressLines text).length)
    (shown : line = stripLineEnd (lineAt text (n - 1))) (nonempty : line ≠ []) :
    (linesPatch text n n line).splice text = text ↔
      n < (addressLines text).length ∨
        (line.getLast? ≠ some '\r' ∧ length16 line < UInt32.size) := by
  by_cases ended : n < (addressLines text).length
  · exact iff_of_true (splice_shown_ended pos ended shown nonempty) (.inl ended)
  · have last : n = (addressLines text).length := by omega
    have whole : stripLineEnd (lineAt text (n - 1)) = lineAt text (n - 1) := by
      apply if_neg
      rw [lineAt_feeds_iff bound]
      omega
    rw [splice_shown_rest_iff pos last (shown.trans whole) nonempty, or_iff_right ended]

theorem length_splitLines (text : List Char) :
    (splitLines text).length = (linesWithEnds text).length :=
  List.length_map _

theorem splitLines_ne_nil (h : text ≠ []) : splitLines text ≠ [] := by
  intro empty
  have lines : linesWithEnds text = [] := List.map_eq_nil_iff.mp empty
  have flat := linesWithEnds_flatten text
  rw [lines] at flat
  exact h flat.symm

theorem visibleLines_eq_shown (h : text ≠ []) :
    visibleLines text = UInt32.ofNat (splitLines text).length := by
  have lines := List.length_pos_iff.mpr (splitLines_ne_nil h)
  rw [visibleLines_eq, ← length_splitLines, Nat.max_eq_left lines]

/-- The lines that are shown and those that are edited are the same, and as many as 32 bits count.
A shown line that holds something, put in for itself, leaves the text as it is, unless it is a last
line without a line feed that a carriage return ends or that is too long for its units to be
counted. -/
theorem shown_line_put_in_for_itself (text : List Char) :
    (text = [] → splitLines text = [] ∧ visibleLines text = 1) ∧
    (text ≠ [] → visibleLines text = UInt32.ofNat (splitLines text).length) ∧
    ∀ (n : UInt32) (line : List Char), n ≠ 0 → (splitLines text)[n.toNat - 1]? = some line →
      line ≠ [] →
      (EditFile.updated text [.lines n n (String.ofList line)] = .ok text ↔
        n ≤ visibleLines text ∧
          (n.toNat < (splitLines text).length ∨ text.getLast? = some '\n' ∨
            (line.getLast? ≠ some '\r' ∧ length16 line < UInt32.size))) := by
  refine ⟨?_, visibleLines_eq_shown, ?_⟩
  · rintro rfl
    exact ⟨rfl, rfl⟩
  · intro n line low found nonempty
    obtain ⟨bound, shown⟩ := getElem?_splitLines found
    have pos : 0 < n.toNat := Nat.pos_of_ne_zero fun zero => low (UInt32.toNat_inj.mp zero)
    have has : HasLines text n n ↔ n ≤ visibleLines text :=
      ⟨fun h => h.within, fun h => ⟨low, UInt32.le_refl n, h⟩⟩
    have counted : n.toNat ≤ (linesWithEnds text).length := by
      have place := (List.getElem?_eq_some_iff.mp found).1
      rw [length_splitLines] at place
      omega
    by_cases within : n ≤ visibleLines text
    · rw [updated_lines (has.mpr within), Except.ok.injEq, String.toList_ofList,
        splice_shown_iff pos bound shown nonempty, lt_length_addressLines_iff pos counted,
        and_iff_right within, length_splitLines, or_assoc]
    · rw [updated_of_not_hasLines (mt has.mp within)]
      exact iff_of_false nofun fun h => within h.1

theorem last_shown_line_put_in_for_itself :
    (splitLines ['a', '\r', '\n', '\n', '😀'])[2]? = some ['😀'] ∧
      EditFile.updated ['a', '\r', '\n', '\n', '😀'] [.lines 3 3 (String.ofList ['😀'])] =
        .ok ['a', '\r', '\n', '\n', '😀'] :=
  ⟨by decide, ((shown_line_put_in_for_itself _).2.2 3 ['😀'] (by decide) (by decide)
    (by decide)).mpr (by decide)⟩

/-- A carriage return that ends the text is shown as part of its line and doubled by putting the
line in for itself. -/
theorem lone_return_is_doubled :
    splitLines ['a', '\r'] = [['a', '\r']] ∧
      EditFile.updated ['a', '\r'] [.lines 1 1 (String.ofList ['a', '\r'])] =
        .ok ['a', '\r', '\r'] :=
  ⟨rfl, rfl⟩

end CodeIntel
