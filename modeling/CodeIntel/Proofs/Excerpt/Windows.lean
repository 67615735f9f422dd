import CodeIntel.Proofs.Excerpt.Printed

namespace CodeIntel

theorem toNat_subSaturating (a b : UInt32) : (subSaturating a b).toNat = a.toNat - b.toNat := by
  unfold subSaturating
  split
  next le => exact UInt32.toNat_sub_of_le _ _ le
  next lt =>
    have : a.toNat < b.toNat := UInt32.not_le.mp lt
    simp only [UInt32.toNat_zero]
    omega

theorem toNat_addSaturating (a b : UInt32) :
    (addSaturating a b).toNat = min (a.toNat + b.toNat) (UInt32.size - 1) := by
  unfold addSaturating
  split
  next fits =>
    rw [UInt32.toNat_add, Nat.mod_eq_of_lt fits]
    omega
  next beyond =>
    have greatest : (UInt32.ofNat (UInt32.size - 1)).toNat = UInt32.size - 1 := by decide
    omega

theorem toNat_min (a b : UInt32) : (min a b).toNat = min a.toNat b.toNat := by
  rw [show min a b = if a ≤ b then a else b from rfl, Nat.min_def]
  simp only [UInt32.le_iff_toNat_le]
  split <;> rfl

theorem toNat_max (a b : UInt32) : (max a b).toNat = max a.toNat b.toNat := by
  rw [show max a b = if a ≤ b then b else a from rfl, Nat.max_def]
  simp only [UInt32.le_iff_toNat_le]
  split <;> rfl

/-- The last line of a file with `count` lines, as far as 32 bits hold its number. -/
def lastLine (count : Nat) : Nat := (count - 1) % UInt32.size

theorem lastLine_eq_iff {count : Nat} : lastLine count = count - 1 ↔ count ≤ UInt32.size := by
  have pos : 0 < UInt32.size := by decide
  unfold lastLine
  rw [Nat.mod_eq_iff_lt (Nat.ne_of_gt pos)]
  omega

theorem lastLine_lt {count : Nat} (h : 0 < count) : lastLine count < count := by
  have := Nat.mod_le (count - 1) UInt32.size
  unfold lastLine
  omega

/-- Whether a line is in the window of some lines: `context` lines more stand on either side, and
both ends are clamped to the lines up to `bottom`. -/
def InWindow (context bottom first last n : Nat) : Prop :=
  min (first - context) bottom ≤ n ∧ n ≤ min (last + context) bottom

instance (context bottom first last n : Nat) : Decidable (InWindow context bottom first last n) :=
  inferInstanceAs (Decidable (_ ∧ _))

namespace LineSpan

variable {a b c span : LineSpan} {spans : List LineSpan} {count n : Nat}

/-- Whether a line lies in the span. -/
def Has (span : LineSpan) (n : Nat) : Prop := span.first.toNat ≤ n ∧ n ≤ span.last.toNat

/-- Whether the span has a line. -/
def Upright (span : LineSpan) : Prop := span.first.toNat ≤ span.last.toNat

theorem toNat_first_widen (span : LineSpan) (context : UInt32) (count : Nat) :
    (span.widen context count).first.toNat =
      min (span.first.toNat - context.toNat) (lastLine count) := by
  have last : (UInt32.ofNat (count - 1)).toNat = lastLine count := UInt32.toNat_ofNat'
  simp only [widen, toNat_min, toNat_subSaturating, last]

theorem toNat_last_widen (span : LineSpan) (context : UInt32) (count : Nat) :
    (span.widen context count).last.toNat =
      min (span.last.toNat + context.toNat) (lastLine count) := by
  have bound : lastLine count < UInt32.size := Nat.mod_lt _ (by decide)
  have last : (UInt32.ofNat (count - 1)).toNat = lastLine count := UInt32.toNat_ofNat'
  simp only [widen, toNat_min, toNat_addSaturating, last]
  omega

theorem has_widen_iff {context : UInt32} :
    (span.widen context count).Has n ↔
      InWindow context.toNat (lastLine count) span.first.toNat span.last.toNat n := by
  rw [Has, toNat_first_widen, toNat_last_widen, InWindow]

theorem Upright.widen (h : span.Upright) (context : UInt32) (count : Nat) :
    (span.widen context count).Upright := by
  unfold Upright at *
  rw [toNat_first_widen, toNat_last_widen]
  omega

theorem le_iff : le a b = true ↔
    a.first.toNat < b.first.toNat ∨
      a.first.toNat = b.first.toNat ∧ a.last.toNat ≤ b.last.toNat := by
  simp only [le, Bool.or_eq_true, Bool.and_eq_true, decide_eq_true_eq, UInt32.lt_iff_toNat_lt,
    UInt32.le_iff_toNat_le, UInt32.toNat_inj]

theorem le_total (a b : LineSpan) : le a b = true ∨ le b a = true := by
  rw [le_iff, le_iff]
  omega

theorem le_trans (a b c : LineSpan) (hab : le a b = true) (hbc : le b c = true) :
    le a c = true := by
  rw [le_iff] at *
  omega

/-- Spans with a line, first lines in ascending order. -/
def Rising (spans : List LineSpan) : Prop :=
  (∀ span ∈ spans, span.Upright) ∧ spans.Pairwise fun a b => a.first.toNat ≤ b.first.toNat

/-- Whether spans are in ascending order, at least one line between each and the next. -/
def Apart (spans : List LineSpan) : Prop :=
  spans.Pairwise fun a b => a.last.toNat + 1 < b.first.toNat

theorem touches_iff : b.first ≤ addSaturating a.last 1 ↔ b.first.toNat ≤ a.last.toNat + 1 := by
  have bound := UInt32.toNat_lt_size b.first
  rw [UInt32.le_iff_toNat_le, toNat_addSaturating]
  simp only [UInt32.toNat_one]
  omega

theorem Rising.rest {current : LineSpan} {rest : List LineSpan}
    (rising : Rising (current :: rest)) :
    Rising rest :=
  ⟨fun s mem => rising.1 s (List.mem_cons_of_mem current mem), rising.2.tail⟩

/-- The span at hand may take in the next one. -/
theorem Rising.joined {current next : LineSpan} {rest : List LineSpan}
    (rising : Rising (current :: next :: rest)) :
    Rising (⟨current.first, max current.last next.last⟩ :: rest) := by
  have first := (List.pairwise_cons.mp rising.2).1
  refine ⟨List.forall_mem_cons.mpr ⟨?_, rising.rest.rest.1⟩,
    List.pairwise_cons.mpr ⟨fun s mem => first s (by simp [mem]), rising.rest.rest.2⟩⟩
  have upright : current.first.toNat ≤ current.last.toNat := rising.1 current (by simp)
  show current.first.toNat ≤ (max current.last next.last).toNat
  rw [toNat_max]
  omega

theorem has_joined_iff {current next : LineSpan} {rest : List LineSpan}
    (rising : Rising (current :: next :: rest))
    (touches : next.first.toNat ≤ current.last.toNat + 1) :
    (LineSpan.mk current.first (max current.last next.last)).Has n ↔
      current.Has n ∨ next.Has n := by
  have order := (List.pairwise_cons.mp rising.2).1 next (by simp)
  have upright : next.first.toNat ≤ next.last.toNat := rising.1 next (by simp)
  simp only [Has, toNat_max]
  omega

/-- What is merged has the lines of the spans and no others. -/
theorem has_mergeFrom_iff {current : LineSpan} {rest : List LineSpan}
    (rising : Rising (current :: rest)) :
    (∃ s ∈ mergeFrom current rest, s.Has n) ↔ ∃ s ∈ current :: rest, s.Has n := by
  induction rest generalizing current with
  | nil => rfl
  | cons next rest ih =>
    unfold mergeFrom
    split
    next touches =>
      rw [ih rising.joined]
      simp only [List.exists_mem_cons_iff, has_joined_iff rising (touches_iff.mp touches), or_assoc]
    next =>
      rw [List.exists_mem_cons_iff, ih rising.rest, List.exists_mem_cons_iff (a := current)]

theorem upright_of_mem_mergeFrom {current : LineSpan} {rest : List LineSpan}
    (rising : Rising (current :: rest)) :
    ∀ s ∈ mergeFrom current rest, s.Upright ∧ current.first.toNat ≤ s.first.toNat := by
  induction rest generalizing current with
  | nil =>
    intro s mem
    obtain rfl := List.mem_singleton.mp mem
    exact ⟨rising.1 s mem, Nat.le_refl _⟩
  | cons next rest ih =>
    have order := (List.pairwise_cons.mp rising.2).1 next (by simp)
    unfold mergeFrom
    split
    · exact ih rising.joined
    · refine List.forall_mem_cons.mpr ⟨⟨rising.1 current (by simp), Nat.le_refl _⟩, ?_⟩
      intro s mem
      have ⟨upright, later⟩ := ih rising.rest s mem
      exact ⟨upright, Nat.le_trans order later⟩

/-- What is left after merging neither overlaps nor touches. -/
theorem apart_mergeFrom {current : LineSpan} {rest : List LineSpan}
    (rising : Rising (current :: rest)) : Apart (mergeFrom current rest) := by
  induction rest generalizing current with
  | nil => exact List.pairwise_singleton ..
  | cons next rest ih =>
    unfold mergeFrom
    split
    · exact ih rising.joined
    next separate =>
      refine List.pairwise_cons.mpr ⟨?_, ih rising.rest⟩
      intro s mem
      have later := (upright_of_mem_mergeFrom rising.rest s mem).2
      have gap := mt touches_iff.mpr separate
      omega

theorem rising_sortBy (upright : ∀ s ∈ spans, s.Upright) : Rising (sortBy le spans) := by
  refine ⟨fun s mem => upright s ((sortBy_perm le spans).mem_iff.mp mem), ?_⟩
  refine (sortBy_pairwise le_total le_trans spans).imp fun {a b} order => ?_
  rw [le_iff] at order
  omega

/-- Merged spans have the lines of those that are merged, each has a line, and they are apart. -/
theorem merge_spec (upright : ∀ s ∈ spans, s.Upright) :
    (∀ n, (∃ s ∈ merge spans, s.Has n) ↔ ∃ s ∈ spans, s.Has n) ∧
      (∀ s ∈ merge spans, s.Upright) ∧ Apart (merge spans) := by
  have rising := rising_sortBy upright
  have same (s : LineSpan) : s ∈ sortBy le spans ↔ s ∈ spans := (sortBy_perm le spans).mem_iff
  unfold merge
  split
  next none =>
    rw [none] at same
    exact ⟨fun n => by simp [← same], by simp, .nil⟩
  next current rest sorted =>
    rw [sorted] at rising same
    refine ⟨fun n => ?_, fun s mem => (upright_of_mem_mergeFrom rising s mem).1,
      apart_mergeFrom rising⟩
    rw [has_mergeFrom_iff rising]
    simp only [same]

end LineSpan

/-- Whether a line belongs to a range: it is the line where the range starts, or a later one that
starts before the range ends. -/
def Range.Covers (r : Range) (n : Nat) : Prop :=
  n = r.start.line.toNat ∨ r.start.line.toNat < n ∧
    (n < r.stop.line.toNat ∨ n = r.stop.line.toNat ∧ 0 < r.stop.character.toNat)

instance (r : Range) (n : Nat) : Decidable (r.Covers n) := inferInstanceAs (Decidable (_ ∨ _))

/-- The span of a range has the lines that the range covers. -/
theorem Range.covers_iff {r : Range} {n : Nat} : r.Covers n ↔ (LineSpan.ofRange r).Has n := by
  unfold Covers LineSpan.ofRange LineSpan.Has
  split
  next ends =>
    obtain ⟨later, zero⟩ := ends
    have later := UInt32.lt_iff_toNat_lt.mp later
    have one : (1 : UInt32) ≤ r.stop.line := by
      rw [UInt32.le_iff_toNat_le]
      exact Nat.lt_of_le_of_lt (Nat.zero_le _) later
    simp only [UInt32.toNat_sub_of_le _ _ one, UInt32.toNat_one, zero, UInt32.toNat_zero]
    omega
  next within =>
    simp only [toNat_max]
    rw [not_and, UInt32.lt_iff_toNat_lt, ← UInt32.toNat_inj, UInt32.toNat_zero] at within
    omega

/-- Lines printed one after the other, with a mark between two lines that do not follow one another
in the file. -/
def withGaps (line : Nat → List Char) : List Nat → List Char
  | [] => []
  | [n] => line n
  | n :: m :: rest => line n ++ (if m = n + 1 then [] else gapMark) ++ withGaps line (m :: rest)

section Gaps

variable {line : Nat → List Char}

theorem withGaps_range' (line : Nat → List Char) (first size : Nat) :
    withGaps line (List.range' first size) = (List.range' first size).flatMap line := by
  induction size generalizing first with
  | zero => rfl
  | succ size ih =>
    cases size with
    | zero => simp [withGaps]
    | succ size =>
      rw [List.range'_succ, List.range'_succ, withGaps, ← List.range'_succ, ih]
      simp

theorem withGaps_append (line : Nat → List Char) (front : List Nat) (n m : Nat) (rest : List Nat) :
    withGaps line (front ++ n :: m :: rest) =
      withGaps line (front ++ [n]) ++ (if m = n + 1 then [] else gapMark) ++
        withGaps line (m :: rest) := by
  induction front with
  | nil => rfl
  | cons k front ih =>
    cases front with
    | nil => simp [withGaps]
    | cons k' front =>
      simp only [List.cons_append] at ih ⊢
      rw [withGaps, ih, withGaps]
      simp

/-- Passages that are apart, one after the other. -/
theorem withGaps_passages {count : Nat} {passages : List Passage}
    (within : ∀ p ∈ passages, p.Within count)
    (apart : passages.Pairwise fun p q => p.last + 1 < q.first) :
    withGaps line (passages.flatMap Passage.numbers) =
      gapMark.intercalate (passages.map fun p => p.numbers.flatMap line) := by
  induction passages with
  | nil => rfl
  | cons p passages ih =>
    obtain ⟨here, within⟩ := List.forall_mem_cons.mp within
    obtain ⟨later, apart⟩ := List.pairwise_cons.mp apart
    have alone : withGaps line p.numbers = p.numbers.flatMap line := withGaps_range' ..
    cases passages with
    | nil => simpa using alone
    | cons q passages =>
      obtain ⟨front, ends⟩ := Passage.numbers_eq_concat here
      obtain ⟨tail, starts⟩ := Passage.numbers_eq_cons (within q List.mem_cons_self)
      have gap : ¬ q.first = p.last + 1 := Nat.ne_of_gt (later q List.mem_cons_self)
      let others := (q :: passages).flatMap Passage.numbers
      have later : others = q.first :: (tail ++ passages.flatMap Passage.numbers) := by
        simp [others, starts]
      calc withGaps line (p.numbers ++ others)
          = withGaps line (front ++ p.last :: others) := by simp [ends]
        _ = withGaps line p.numbers ++ gapMark ++ withGaps line others := by
          rw [later, withGaps_append, if_neg gap, ← ends]
        _ = p.numbers.flatMap line ++ gapMark ++
            gapMark.intercalate ((q :: passages).map fun p => p.numbers.flatMap line) := by
          rw [alone, ih within apart]
        _ = _ := by simp [List.intercalate]

end Gaps

/-- Some lines of a file as they are printed, with a mark wherever lines are left out between. -/
def printedLines (lines : List (List Char)) (numbers : Bool) (ns : List Nat) : List Char :=
  withGaps (printedLine lines (if numbers then some (numberColumn ns) else none)) ns

namespace LineSpan

variable {lines : List (List Char)} {spans : List LineSpan} {shown : List Nat}

/-- The lines of a span, where the file has them all. -/
def passage (span : LineSpan) : Passage := ⟨span.first.toNat, span.last.toNat⟩

theorem ofSpan?_of_inside {span : LineSpan} {count : Nat} (upright : span.Upright)
    (inside : span.last.toNat < count) : Passage.ofSpan? count span = some span.passage := by
  have last : min span.last.toNat (count - 1) = span.last.toNat := by omega
  unfold Upright at upright
  simp only [Passage.ofSpan?, last]
  rw [if_neg (by omega), passage]

/-- Excerpts of spans that are apart show the lines in them in ascending order, with a mark wherever
lines are left out. -/
theorem excerpts_of_apart (upright : ∀ s ∈ spans, s.Upright)
    (inside : ∀ s ∈ spans, s.last.toNat < lines.length) (apart : Apart spans)
    (ascending : shown.Pairwise (· < ·)) (same : ∀ n, n ∈ shown ↔ ∃ s ∈ spans, s.Has n)
    (numbers : Bool) : excerpts lines spans numbers = printedLines lines numbers shown := by
  let passages := spans.map passage
  have found : spans.filterMap (Passage.ofSpan? lines.length) = passages := by
    show _ = spans.map passage
    rw [← List.filterMap_eq_map]
    exact List.filterMap_congr fun s mem => ofSpan?_of_inside (upright s mem) (inside s mem)
  have within : ∀ p ∈ passages, p.Within lines.length := by
    intro p mem
    obtain ⟨s, chosen, rfl⟩ := List.mem_map.mp mem
    exact ⟨upright s chosen, inside s chosen⟩
  have separate : passages.Pairwise fun p q => p.last + 1 < q.first := List.pairwise_map.mpr apart
  have all : shown = passages.flatMap Passage.numbers := by
    apply ascending.eq_of_mem_iff
    · refine List.pairwise_flatMap.mpr ⟨fun p _ => List.pairwise_lt_range', ?_⟩
      refine separate.imp fun {p q} gap n here m there => ?_
      rw [Passage.mem_numbers_iff] at here there
      omega
    · intro n
      simp [same, passages, Passage.mem_numbers_iff, Has, passage]
  rw [excerpts_eq_printed, Passage.linesIn_of_spans, found, all, printed, printedLines,
    withGaps_passages within separate]
  simp [List.flatMap_def, Function.comp_def]

end LineSpan

section Blank

/-- A window without context around a line. -/
theorem filter_inWindow_line {bottom count n : Nat} (inside : bottom < count) :
    (List.range count).filter (InWindow 0 bottom n n) = [min n bottom] := by
  refine (List.pairwise_lt_range.filter _).eq_of_mem_iff (List.pairwise_singleton ..) fun m => ?_
  rw [List.mem_filter, List.mem_range, decide_eq_true_iff, List.mem_singleton, InWindow]
  omega

theorem linesWithEnds_feeds (n : Nat) :
    linesWithEnds (List.replicate n '\n') = List.replicate n ['\n'] := by
  induction n with
  | zero => rfl
  | succ n ih => rw [List.replicate_succ, linesWithEnds, ih, List.replicate_succ]

/-- A text of line feeds has as many blank lines. -/
theorem splitLines_feeds (n : Nat) : splitLines (List.replicate n '\n') = List.replicate n [] := by
  rw [splitLines, linesWithEnds_feeds, List.map_replicate]
  rfl

/-- A blank line that is shown alone. -/
theorem printedLine_blank (count n : Nat) :
    printedLine (List.replicate count []) (some (numberColumn [n])) n =
      lineDigits n ++ ['|', '\n'] := by
  have blank : (List.replicate count ([] : List Char)).getD n [] = [] := by
    rw [List.getD_eq_getElem?_getD, List.getElem?_replicate]
    split <;> rfl
  have column : (lineDigits n).leftpad (numberColumn [n]) ' ' = lineDigits n := by
    simp [numberColumn, List.leftpad]
  simp only [printedLine, column, blank, List.nil_append]

end Blank

end CodeIntel
