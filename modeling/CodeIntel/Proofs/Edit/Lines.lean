import CodeIntel.Edit.Request
import CodeIntel.Proofs.Edit.Substitution

namespace CodeIntel

/-- A text cut into the lines that a line feed ends and the rest behind the last line feed. Readers
show the rest as a line unless it is empty; positions may address it in any case. -/
structure Cut (text : List Char) (ended : List (List Char)) (rest : List Char) : Prop where
  addressed : addressLines text = ended ++ [rest]
  shown : linesWithEnds text = ended ++ if rest = [] then [] else [rest]
  feeds : ∀ line ∈ ended, ∃ front, '\n' ∉ front ∧ line = front ++ ['\n']
  unended : '\n' ∉ rest

theorem exists_cut (text : List Char) : ∃ ended rest, Cut text ended rest := by
  induction text with
  | nil => exact ⟨[], [], rfl, rfl, nofun, nofun⟩
  | cons c cs ih =>
    obtain ⟨ended, rest, addressed, shown, feeds, unended⟩ := ih
    by_cases feed : c = '\n'
    · subst feed
      refine ⟨['\n'] :: ended, rest, ?_, ?_, ?_, unended⟩
      · simp [addressLines, addressed]
      · simp [linesWithEnds, shown]
      · exact List.forall_mem_cons.mpr ⟨⟨[], nofun, rfl⟩, feeds⟩
    -- Another character joins the first line, which is the rest where nothing is ended.
    · cases ended with
      | nil =>
        refine ⟨[], c :: rest, ?_, ?_, nofun, ?_⟩
        · simp [addressLines, feed, addressed]
        · by_cases empty : rest = [] <;> simp [linesWithEnds, shown, empty]
        · exact List.not_mem_cons_of_ne_of_not_mem (Ne.symm feed) unended
      | cons line ended =>
        refine ⟨(c :: line) :: ended, rest, ?_, ?_, ?_, unended⟩
        · simp [addressLines, feed, addressed]
        · simp [linesWithEnds, shown]
        · obtain ⟨⟨front, plain, rfl⟩, others⟩ := List.forall_mem_cons.mp feeds
          have plain' : '\n' ∉ c :: front :=
            List.not_mem_cons_of_ne_of_not_mem (Ne.symm feed) plain
          exact List.forall_mem_cons.mpr ⟨⟨c :: front, plain', rfl⟩, others⟩

theorem linesWithEnds_feed {front : List Char} (plain : '\n' ∉ front) (text : List Char) :
    linesWithEnds (front ++ '\n' :: text) = (front ++ ['\n']) :: linesWithEnds text := by
  induction front with
  | nil => simp [linesWithEnds]
  | cons c front ih =>
    obtain ⟨other, plain⟩ := not_or.mp (mt List.mem_cons.mpr plain)
    have line := ih plain
    rw [List.cons_append, linesWithEnds, line, List.cons_append]
    exact fun feed => other feed.symm

/-- Lines that line feeds end, put together, are cut into the same lines again. -/
theorem linesWithEnds_of_feeds {lines : List (List Char)}
    (feeds : ∀ line ∈ lines, ∃ front, '\n' ∉ front ∧ line = front ++ ['\n']) :
    linesWithEnds lines.flatten = lines := by
  induction lines with
  | nil => rfl
  | cons line rest ih =>
    obtain ⟨⟨front, plain, rfl⟩, others⟩ := List.forall_mem_cons.mp feeds
    have cut := linesWithEnds_feed plain rest.flatten
    rw [ih others] at cut
    simpa using cut

theorem dropLastIf_isPrefix (last : Char) (cs : List Char) : dropLastIf last cs <+: cs := by
  unfold dropLastIf
  split
  · exact List.dropLast_prefix cs
  · exact List.prefix_rfl

theorem dropLastIf_eq_self_iff {last : Char} {cs : List Char} :
    dropLastIf last cs = cs ↔ cs.getLast? ≠ some last := by
  unfold dropLastIf
  split
  next ends =>
    obtain ⟨front, rfl⟩ := List.getLast?_eq_some_iff.mp ends
    simp
  next other => exact ⟨fun _ => other, fun _ => rfl⟩

theorem lineBody_isPrefix (line : List Char) : lineBody line <+: line :=
  (dropLastIf_isPrefix _ _).trans (dropLastIf_isPrefix _ _)

/-- A line is its body if nothing ends it. -/
theorem lineBody_eq_self_iff {line : List Char} :
    lineBody line = line ↔ line.getLast? ≠ some '\n' ∧ line.getLast? ≠ some '\r' := by
  unfold lineBody
  constructor
  · intro whole
    have bare : dropLastIf '\n' line = line :=
      (dropLastIf_isPrefix _ _).eq_of_length_le (by
        conv_lhs => rw [← whole]
        exact (dropLastIf_isPrefix _ _).length_le)
    rw [bare] at whole
    exact ⟨dropLastIf_eq_self_iff.mp bare, dropLastIf_eq_self_iff.mp whole⟩
  · rintro ⟨noFeed, noReturn⟩
    rw [dropLastIf_eq_self_iff.mpr noFeed, dropLastIf_eq_self_iff.mpr noReturn]

section Starts

variable {text : List Char}

/-- The number of characters before a line, or of all if there is no such line. -/
def lineStart (text : List Char) (n : Nat) : Nat := ((addressLines text).take n).flatten.length

theorem take_flatten_append_drop_flatten (text : List Char) (n : Nat) :
    ((addressLines text).take n).flatten ++ ((addressLines text).drop n).flatten = text := by
  rw [← List.flatten_append, List.take_append_drop, addressLines_flatten]

theorem take_lineStart (text : List Char) (n : Nat) :
    text.take (lineStart text n) = ((addressLines text).take n).flatten := by
  have front : (((addressLines text).take n).flatten ++
      ((addressLines text).drop n).flatten).take (lineStart text n) = _ := List.take_left
  rwa [take_flatten_append_drop_flatten] at front

theorem drop_lineStart (text : List Char) (n : Nat) :
    text.drop (lineStart text n) = ((addressLines text).drop n).flatten := by
  have back : (((addressLines text).take n).flatten ++
      ((addressLines text).drop n).flatten).drop (lineStart text n) = _ := List.drop_left
  rwa [take_flatten_append_drop_flatten] at back

@[simp]
theorem lineStart_zero (text : List Char) : lineStart text 0 = 0 := rfl

theorem lineStart_length (text : List Char) :
    lineStart text (addressLines text).length = text.length := by
  rw [lineStart, List.take_length, addressLines_flatten]

theorem lineStart_succ {n : Nat} {line : List Char} (found : (addressLines text)[n]? = some line) :
    lineStart text (n + 1) = lineStart text n + line.length := by
  rw [lineStart, List.take_add_one, found]
  simp [lineStart]

theorem lineStart_mono {m n : Nat} (h : m ≤ n) : lineStart text m ≤ lineStart text n := by
  obtain ⟨k, rfl⟩ := Nat.exists_eq_add_of_le h
  rw [lineStart, lineStart, List.take_add, List.flatten_append, List.length_append]
  omega

/-- A line's body ends before any later line starts. -/
theorem lineStart_add_body_le {a b : Nat} (h : a < b) {line : List Char}
    (found : (addressLines text)[a]? = some line) :
    lineStart text a + (lineBody line).length ≤ lineStart text b := by
  have body := (lineBody_isPrefix line).length_le
  have next := lineStart_succ found
  have later : lineStart text (a + 1) ≤ lineStart text b := lineStart_mono h
  omega

theorem drop_lineStart_add {n k : Nat} {line : List Char}
    (found : (addressLines text)[n]? = some line) (h : k ≤ line.length) :
    text.drop (lineStart text n + k) = line.drop k ++ text.drop (lineStart text (n + 1)) := by
  obtain ⟨hn, rfl⟩ := List.getElem?_eq_some_iff.mp found
  rw [← List.drop_drop, drop_lineStart, drop_lineStart, List.drop_eq_getElem_cons hn,
    List.flatten_cons, List.drop_append_of_le_length h]

theorem take_lineStart_add {n k : Nat} {line : List Char}
    (found : (addressLines text)[n]? = some line) (h : k ≤ line.length) :
    text.take (lineStart text n + k) = text.take (lineStart text n) ++ line.take k := by
  obtain ⟨hn, rfl⟩ := List.getElem?_eq_some_iff.mp found
  rw [List.take_add, drop_lineStart, List.drop_eq_getElem_cons hn, List.flatten_cons,
    List.take_append_of_le_length h]

end Starts

namespace Cut

variable {text rest : List Char} {ended : List (List Char)}

theorem eq_append (cut : Cut text ended rest) : text = ended.flatten ++ rest := by
  rw [← addressLines_flatten text, cut.addressed]
  simp

theorem length (cut : Cut text ended rest) : (addressLines text).length = ended.length + 1 := by
  rw [cut.addressed, List.length_append, List.length_singleton]

theorem eq_rest_or_mem (cut : Cut text ended rest) {n : Nat} {line : List Char}
    (found : (addressLines text)[n]? = some line) :
    (n = ended.length ∧ line = rest) ∨ (n < ended.length ∧ line ∈ ended) := by
  rw [cut.addressed] at found
  rcases Nat.lt_or_ge n ended.length with lt | ge
  · rw [List.getElem?_append_left lt] at found
    exact .inr ⟨lt, List.mem_of_getElem? found⟩
  · rw [List.getElem?_append_right ge, List.getElem?_singleton] at found
    split at found
    next zero => exact .inl ⟨by omega, (Option.some.inj found).symm⟩
    next => cases found

theorem getLast?_of_mem (cut : Cut text ended rest) {line : List Char} (mem : line ∈ ended) :
    line.getLast? = some '\n' := by
  obtain ⟨front, _, rfl⟩ := cut.feeds line mem
  exact List.getLast?_concat

theorem getLast?_eq (cut : Cut text ended rest)
    (h : rest ≠ []) : text.getLast? = rest.getLast? := by
  rw [cut.eq_append, List.getLast?_append_of_ne_nil _ h]

/-- A text ends with a line feed if it has lines and no rest behind them. -/
theorem getLast?_of_nil (cut : Cut text ended [])
    (h : ended ≠ []) : text.getLast? = some '\n' := by
  obtain ⟨front, line, rfl⟩ := (List.eq_nil_or_concat ended).resolve_left h
  obtain ⟨body, _, feed⟩ := cut.feeds line (by simp)
  rw [cut.eq_append, feed]
  simp

end Cut

section Lines

variable {text : List Char}

/-- A line counted from zero, with its terminator. -/
def lineAt (text : List Char) (n : Nat) : List Char := (addressLines text)[n]?.getD []

theorem lineAt_found {n : Nat} (h : n < (addressLines text).length) :
    (addressLines text)[n]? = some (lineAt text n) := by
  rw [lineAt, List.getElem?_eq_getElem h, Option.getD_some]

/-- Every line but the last one that a position may address has a line feed. -/
theorem lineAt_feeds_iff {n : Nat} (h : n < (addressLines text).length) :
    (lineAt text n).getLast? = some '\n' ↔ n + 1 < (addressLines text).length := by
  obtain ⟨ended, rest, cut⟩ := exists_cut text
  rw [cut.length, Nat.add_lt_add_iff_right]
  rcases cut.eq_rest_or_mem (lineAt_found h) with ⟨rfl, eq⟩ | ⟨lt, mem⟩
  · rw [eq]
    have bare : rest.getLast? ≠ some '\n' := fun feed => cut.unended (List.mem_of_getLast? feed)
    exact iff_of_false bare (Nat.lt_irrefl _)
  · exact iff_of_true (cut.getLast?_of_mem mem) lt

/-- A carriage return with no line feed behind it ends a line only where it ends the text. -/
theorem lineAt_returns_iff {n : Nat} (h : n < (addressLines text).length) :
    (lineAt text n).getLast? = some '\r' ↔
      text.getLast? = some '\r' ∧ n + 1 = (addressLines text).length := by
  obtain ⟨ended, rest, cut⟩ := exists_cut text
  rw [cut.length, Nat.add_right_cancel_iff]
  rcases cut.eq_rest_or_mem (lineAt_found h) with ⟨last, eq⟩ | ⟨lt, mem⟩
  · rw [eq]
    by_cases empty : rest = []
    · subst empty
      have other : text.getLast? ≠ some '\r' := by
        by_cases none : ended = []
        · simp [cut.eq_append, none]
        · simp [cut.getLast?_of_nil none]
      simp [other]
    · simp [cut.getLast?_eq empty, last]
  · simp [cut.getLast?_of_mem mem, Nat.ne_of_lt lt]

theorem length_lineAt_pos {n : Nat} (h : n + 1 < (addressLines text).length) :
    0 < (lineAt text n).length := by
  have feed := (lineAt_feeds_iff (Nat.lt_of_succ_lt h)).mpr h
  exact List.length_pos_of_mem (List.mem_of_getLast? feed)

theorem lineStart_lt {m n : Nat} (h : m < n) (bound : n < (addressLines text).length) :
    lineStart text m < lineStart text n := by
  have nonempty := length_lineAt_pos (Nat.lt_of_le_of_lt h bound)
  have next := lineStart_succ (lineAt_found (Nat.lt_trans h bound))
  have later : lineStart text (m + 1) ≤ lineStart text n := lineStart_mono h
  omega

theorem take_lineStart_succ {n : Nat} (h : n < (addressLines text).length) :
    text.take (lineStart text (n + 1)) = text.take (lineStart text n) ++ lineAt text n := by
  have found := lineAt_found h
  rw [lineStart_succ found, take_lineStart_add found (Nat.le_refl _), List.take_length]

theorem getLast?_take_lineStart {n : Nat} (h : n < (addressLines text).length) :
    (text.take (lineStart text n)).getLast? ≠ some '\r' := by
  cases n with
  | zero => simp
  | succ n =>
    have feed : (lineAt text n).getLast? = some '\n' :=
      (lineAt_feeds_iff (Nat.lt_of_succ_lt h)).mpr h
    rw [take_lineStart_succ (Nat.lt_of_succ_lt h), List.getLast?_append, feed]
    simp

end Lines

section Shown

/-- The lines that are shown and those that positions address are cut at the same places. -/
theorem flatten_take_linesWithEnds (text : List Char) (n : Nat) :
    ((linesWithEnds text).take n).flatten = text.take (lineStart text n) := by
  obtain ⟨ended, rest, cut⟩ := exists_cut text
  rw [take_lineStart, cut.addressed, cut.shown]
  split
  next empty =>
    rw [empty, List.append_nil, List.take_append, List.flatten_append]
    cases n - ended.length <;> simp
  next => rfl

theorem flatten_drop_linesWithEnds (text : List Char) (n : Nat) :
    ((linesWithEnds text).drop n).flatten = text.drop (lineStart text n) := by
  have whole : ((linesWithEnds text).take n).flatten ++ ((linesWithEnds text).drop n).flatten =
      text.take (lineStart text n) ++ text.drop (lineStart text n) := by
    rw [← List.flatten_append, List.take_append_drop, List.take_append_drop, linesWithEnds_flatten]
  rw [flatten_take_linesWithEnds] at whole
  exact List.append_cancel_left whole

theorem getD_linesWithEnds (text : List Char) (n : Nat) :
    (linesWithEnds text)[n]?.getD [] = lineAt text n := by
  obtain ⟨ended, rest, cut⟩ := exists_cut text
  rw [lineAt, cut.addressed, cut.shown]
  split
  next empty =>
    rw [empty, List.append_nil]
    rcases Nat.lt_or_ge n ended.length with lt | ge
    · rw [List.getElem?_append_left lt]
    · rw [List.getElem?_append_right ge, List.getElem?_eq_none ge]
      cases n - ended.length <;> rfl
  next => rfl

theorem visibleLines_eq (text : List Char) :
    visibleLines text = UInt32.ofNat (max (linesWithEnds text).length 1) := by
  obtain ⟨ended, rest, cut⟩ := exists_cut text
  simp only [visibleLines, cut.length, cut.shown, List.length_append]
  by_cases empty : rest = []
  · subst empty
    cases ended with
    | nil => simp [cut.eq_append]
    | cons line lines =>
      rw [if_pos (cut.getLast?_of_nil (List.cons_ne_nil line lines)), if_pos rfl]
      simp
  · have other : text.getLast? ≠ some '\n' := by
      rw [cut.getLast?_eq empty]
      exact fun feed => cut.unended (List.mem_of_getLast? feed)
    rw [if_neg other, if_neg empty, List.length_singleton]

theorem visibleLines_le_shown (text : List Char) :
    (visibleLines text).toNat ≤ max (linesWithEnds text).length 1 := by
  rw [visibleLines_eq, UInt32.toNat_ofNat']
  exact Nat.mod_le _ _

/-- A shown line, counted from one, has a line feed unless it is the last one and no line feed ends
the text. -/
theorem lt_length_addressLines_iff {n : Nat} (pos : 0 < n)
    (bound : n ≤ (linesWithEnds text).length) :
    n < (addressLines text).length ↔
      n < (linesWithEnds text).length ∨ text.getLast? = some '\n' := by
  obtain ⟨ended, rest, cut⟩ := exists_cut text
  rw [cut.shown, List.length_append] at bound ⊢
  rw [cut.length]
  by_cases empty : rest = []
  · subst empty
    rw [if_pos rfl, List.length_nil] at bound ⊢
    have lines : ended ≠ [] := List.ne_nil_of_length_pos (Nat.lt_of_lt_of_le pos bound)
    simp only [cut.getLast?_of_nil lines, or_true, iff_true]
    omega
  · have bare : text.getLast? ≠ some '\n' := by
      rw [cut.getLast?_eq empty]
      exact fun feed => cut.unended (List.mem_of_getLast? feed)
    simp only [if_neg empty, List.length_singleton, bare, or_false]

theorem length_linesWithEnds_le (text : List Char) : (linesWithEnds text).length ≤ text.length := by
  fun_induction linesWithEnds text with
  | case1 => exact Nat.le_refl _
  | case2 cs ih => simpa using ih
  | case3 c cs _ empty ih => simp
  | case4 c cs _ line rest lines ih =>
    rw [lines] at ih
    simp only [List.length_cons] at ih ⊢
    omega

end Shown

end CodeIntel
