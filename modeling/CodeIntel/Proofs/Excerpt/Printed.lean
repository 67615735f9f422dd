import CodeIntel.Excerpt
import Mathlib.Data.List.Sort

namespace CodeIntel

/-- The digits of a line's number. Lines are counted from zero and numbered from one. -/
def lineDigits (n : Nat) : List Char := (n + 1).repr.toList

/-- The digits that the greatest number of some lines has. -/
def numberColumn (ns : List Nat) : Nat := (lineDigits (ns.foldr max 0)).length

/-- A line of a file as it is printed. Where there is a column for numbers, the number of the line
stands in it, at its right end, and a bar behind it. -/
def printedLine (lines : List (List Char)) (column? : Option Nat) (n : Nat) : List Char :=
  match column? with
  | some column => (lineDigits n).leftpad column ' ' ++ '|' :: (lines.getD n [] ++ ['\n'])
  | none => lines.getD n [] ++ ['\n']

/-- Parts of a file, each given by its lines, with a mark between two parts and, if numbers are
wanted, one column for all of them. -/
def printed (lines : List (List Char)) (numbers : Bool) (parts : List (List Nat)) : List Char :=
  let column? := if numbers then some (numberColumn parts.flatten) else none
  gapMark.intercalate (parts.map fun ns => ns.flatMap (printedLine lines column?))

/-- The lines of a file with `count` lines that lie in a span, in ascending order. -/
def LineSpan.linesIn (count : Nat) (span : LineSpan) : List Nat :=
  (List.range count).filter fun n => span.first.toNat ≤ n ∧ n ≤ span.last.toNat

namespace Passage

variable {lines : List (List Char)} {count : Nat} {span : LineSpan} {p : Passage}
  {passages : List Passage}

/-- The lines of a passage. -/
def numbers (p : Passage) : List Nat := List.range' p.first (p.last + 1 - p.first)

/-- A passage has a line, and a file with `count` lines has all of its lines. -/
def Within (count : Nat) (p : Passage) : Prop := p.first ≤ p.last ∧ p.last < count

theorem mem_numbers_iff {n : Nat} : n ∈ p.numbers ↔ p.first ≤ n ∧ n ≤ p.last := by
  rw [numbers, List.mem_range'_1]
  omega

theorem numbers_ne_nil (within : p.Within count) : p.numbers ≠ [] :=
  List.ne_nil_of_mem (mem_numbers_iff.mpr ⟨within.1, Nat.le_refl p.last⟩)

theorem numbers_eq_cons (within : p.Within count) : ∃ rest, p.numbers = p.first :: rest := by
  have size : p.last + 1 - p.first = p.last - p.first + 1 := Nat.sub_add_comm within.1
  exact ⟨_, by rw [numbers, size, List.range'_succ]⟩

theorem numbers_eq_concat (within : p.Within count) : ∃ front, p.numbers = front ++ [p.last] := by
  have size : p.last + 1 - p.first = p.last - p.first + 1 := Nat.sub_add_comm within.1
  have last : p.first + 1 * (p.last - p.first) = p.last := by
    have := within.1
    omega
  exact ⟨_, by rw [numbers, size, List.range'_concat, last]⟩

theorem within_of_ofSpan? (h : ofSpan? count span = some p) : p.Within count := by
  unfold ofSpan? at h
  extract_lets last at h
  split at h
  · cases h
  next inside =>
    cases h
    show span.first.toNat ≤ last ∧ last < count
    omega

theorem linesIn_of_some (h : ofSpan? count span = some p) : span.linesIn count = p.numbers := by
  have within := within_of_ofSpan? h
  unfold ofSpan? at h
  extract_lets last at h
  split at h
  · cases h
  next inside =>
    cases h
    apply (List.pairwise_lt_range.filter _).eq_of_mem_iff List.pairwise_lt_range'
    intro n
    rw [← numbers, mem_numbers_iff]
    simp only [List.mem_filter, List.mem_range, decide_eq_true_eq]
    omega

theorem linesIn_of_none (h : ofSpan? count span = none) : span.linesIn count = [] := by
  unfold ofSpan? at h
  extract_lets last at h
  split at h
  next outside =>
    apply List.filter_eq_nil_iff.mpr
    intro n mem
    have bound := List.mem_range.mp mem
    simp only [decide_eq_true_eq]
    omega
  · cases h

/-- Spans without a line in the file have no passage, and each other one has its own. -/
theorem linesIn_of_spans (count : Nat) (spans : List LineSpan) :
    (spans.map (LineSpan.linesIn count)).filter (· ≠ []) =
      (spans.filterMap (ofSpan? count)).map numbers := by
  induction spans with
  | nil => rfl
  | cons span rest ih =>
    rw [List.map_cons]
    cases h : ofSpan? count span with
    | none => simpa [linesIn_of_none h, h] using ih
    | some p =>
      have some_line := numbers_ne_nil (within_of_ofSpan? h)
      rw [linesIn_of_some h, List.filter_cons_of_pos (by simpa using some_line),
        List.filterMap_cons_some h, List.map_cons, ih]

theorem shownLines_eq {lines : List (List Char)} (width? : Option Nat) {first size : Nat}
    (inside : first + size ≤ lines.length) :
    shownLines width? (first + 1) ((lines.drop first).take size) =
      (List.range' first size).flatMap (printedLine lines width?) := by
  induction size generalizing first with
  | zero => simp [shownLines]
  | succ size ih =>
    have bound : first < lines.length := by omega
    have line : shownLine width? (first + 1) lines[first] = printedLine lines width? first := by
      cases width? with
      | none => simp [shownLine, printedLine, bound]
      | some width => simp [shownLine, printedLine, padded, lineDigits, List.leftpad, bound]
    rw [List.drop_eq_getElem_cons bound, List.take_succ_cons, shownLines, ih (by omega),
      List.range'_succ, List.flatMap_cons, line]

theorem shown_eq (width? : Option Nat) (within : p.Within lines.length) :
    p.shown lines width? = p.numbers.flatMap (printedLine lines width?) :=
  shownLines_eq width? (by have ⟨_, _⟩ := within; omega)

end Passage

section Column

variable {n k : Nat} {ns : List Nat}

theorem length_lineDigits_mono {m : Nat} (h : n ≤ m) :
    (lineDigits n).length ≤ (lineDigits m).length := by
  have pos : 0 < (m + 1).repr.length := Nat.length_repr_pos
  have fits : m + 1 < 10 ^ (m + 1).repr.length := (Nat.length_repr_le_iff pos).mp (Nat.le_refl _)
  exact (Nat.length_repr_le_iff pos).mpr (by omega)

theorem length_lineDigits_le_numberColumn (mem : n ∈ ns) :
    (lineDigits n).length ≤ numberColumn ns := by
  apply length_lineDigits_mono
  induction ns with
  | nil => cases mem
  | cons m rest ih =>
    rcases List.mem_cons.mp mem with rfl | mem
    · exact Nat.le_max_left ..
    · exact Nat.le_trans (ih mem) (Nat.le_max_right ..)

/-- Every number that is shown ends at the end of the column. -/
theorem length_leftpad_lineDigits (mem : n ∈ ns) :
    ((lineDigits n).leftpad (numberColumn ns) ' ').length = numberColumn ns := by
  rw [List.length_leftpad, Nat.max_eq_left (length_lineDigits_le_numberColumn mem)]

theorem greatest_mem (some_line : ns ≠ []) : ns.foldr max 0 ∈ ns := by
  induction ns with
  | nil => exact absurd rfl some_line
  | cons n rest ih =>
    by_cases alone : rest = []
    · simp [alone]
    · rw [List.foldr_cons]
      rcases Nat.le_total n (rest.foldr max 0) with le | le
      · rw [Nat.max_eq_right le]
        exact List.mem_cons_of_mem n (ih alone)
      · rw [Nat.max_eq_left le]
        exact List.mem_cons_self

theorem numberColumn_le_iff (some_line : ns ≠ []) :
    numberColumn ns ≤ k ↔ ∀ n ∈ ns, (lineDigits n).length ≤ k :=
  ⟨fun h _ mem => Nat.le_trans (length_lineDigits_le_numberColumn mem) h,
    fun h => h _ (greatest_mem some_line)⟩

end Column

namespace Passage

variable {lines : List (List Char)} {count k : Nat} {passages : List Passage}

theorem foldl_width_le_iff {width : Nat} :
    passages.foldl (fun width p => max width (p.last + 1).repr.length) width ≤ k ↔
      width ≤ k ∧ ∀ p ∈ passages, (lineDigits p.last).length ≤ k := by
  induction passages generalizing width with
  | nil => simp
  | cons p rest ih =>
    rw [List.foldl_cons, ih, Nat.max_le, List.forall_mem_cons, and_assoc]
    rfl

/-- The last lines of passages have the greatest numbers. -/
theorem numberWidth_eq (within : ∀ p ∈ passages, p.Within count) (present : passages ≠ []) :
    numberWidth passages = numberColumn (passages.map numbers).flatten := by
  obtain ⟨first, rest, rfl⟩ := List.exists_cons_of_ne_nil present
  have some_line : ((first :: rest).map numbers).flatten ≠ [] := by
    have := numbers_ne_nil (within first List.mem_cons_self)
    simp [this]
  apply eq_of_forall_ge_iff
  intro k
  rw [numberColumn_le_iff some_line]
  refine foldl_width_le_iff.trans ?_
  simp only [Nat.zero_le, true_and, List.mem_flatten, List.mem_map, forall_exists_index, and_imp]
  constructor
  · rintro h n _ p mem rfl shown
    exact Nat.le_trans (length_lineDigits_mono (mem_numbers_iff.mp shown).2) (h p mem)
  · intro h p mem
    exact h p.last _ p mem rfl (mem_numbers_iff.mpr ⟨(within p mem).1, Nat.le_refl _⟩)

/-- Passages are shown one after the other, each with its own lines. -/
theorem intercalate_shown_eq (within : ∀ p ∈ passages, p.Within lines.length) (numbers : Bool) :
    let width? := if numbers then some (numberWidth passages) else none
    gapMark.intercalate (passages.map (shown lines width?)) =
      printed lines numbers (passages.map Passage.numbers) := by
  intro width?
  by_cases present : passages = []
  · subst present
    rfl
  · have column : width? =
        if numbers then some (numberColumn (passages.map Passage.numbers).flatten) else none := by
      rw [← numberWidth_eq within present]
    simp only [printed, ← column, List.map_map]
    congr 1
    exact List.map_congr_left fun p mem => shown_eq width? (within p mem)

end Passage

/-- Excerpts show, for each span that has a line in the file, the lines of the file in it. -/
theorem excerpts_eq_printed (lines : List (List Char)) (spans : List LineSpan) (numbers : Bool) :
    excerpts lines spans numbers =
      printed lines numbers ((spans.map (LineSpan.linesIn lines.length)).filter (· ≠ [])) := by
  rw [Passage.linesIn_of_spans]
  apply Passage.intercalate_shown_eq
  intro p mem
  obtain ⟨span, _, found⟩ := List.mem_filterMap.mp mem
  exact Passage.within_of_ofSpan? found

theorem printed_filter_ne_nil (lines : List (List Char)) (numbers : Bool) (ns : List Nat) :
    printed lines numbers ([ns].filter (· ≠ [])) = printed lines numbers [ns] := by
  by_cases empty : ns = []
  · subst empty
    rfl
  · simp [empty]

/-- The excerpt of one span has the lines of the file in it. -/
theorem excerpt_eq_printed (lines : List (List Char)) (span : LineSpan) (numbers : Bool) :
    excerpt lines span numbers = printed lines numbers [span.linesIn lines.length] :=
  (excerpts_eq_printed lines [span] numbers).trans (printed_filter_ne_nil lines numbers _)

end CodeIntel
