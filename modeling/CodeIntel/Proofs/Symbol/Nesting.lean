import CodeIntel.Proofs.Symbol.Innermost

namespace CodeIntel

namespace Range

variable {r outer : Range} {p : Position}

/-- Whether a position lies in the range, its end left out. -/
def holds (r : Range) (p : Position) : Bool := r.start.le p && p.lt r.stop

theorem contains_iff : r.contains p = true ↔ r.start.le p = true ∧ p.le r.stop = true := by
  simp [contains]

theorem holds_iff : r.holds p = true ↔ r.contains p = true ∧ r.stop ≠ p := by
  rw [contains_iff, holds, Bool.and_eq_true, Position.lt_iff_le_and_ne, ne_comm, and_assoc]

/-- Within a range that ends at a position, what contains it ends there too. -/
theorem stop_eq_of_isWithin (within : r.isWithin outer = true) (ends : outer.stop = p)
    (inside : r.contains p = true) : r.stop = p := by
  rw [isWithin_iff, ends] at within
  exact Position.le_antisymm within.2 (contains_iff.mp inside).2

end Range

namespace DocumentSymbol

mutual

/-- Whether symbols lie in the ranges of those that they stand in. -/
def isNested : DocumentSymbol → Bool
  | mk _ _ _ range _ children =>
    range.start.le range.stop && (children.all fun t => t.range.isWithin range) &&
      areNested children

/-- The same of symbols side by side, each of which ends where the next one starts or before. -/
def areNested : List DocumentSymbol → Bool
  | [] => true
  | s :: rest =>
    isNested s && areNested rest && rest.all fun t => s.range.stop.le t.range.start

end

variable {p : Position} {s t found : DocumentSymbol} {symbols rest : List DocumentSymbol}

theorem isNested_iff : s.isNested = true ↔ s.range.start.le s.range.stop = true ∧
    (∀ t ∈ s.children, t.range.isWithin s.range = true) ∧ areNested s.children = true := by
  cases s
  simp [isNested, range, children, and_assoc]

theorem areNested_cons : areNested (s :: rest) = true ↔
    s.isNested = true ∧ areNested rest = true ∧
      ∀ t ∈ rest, s.range.stop.le t.range.start = true := by
  simp [areNested, and_assoc]

theorem isNested_of_mem (nested : areNested symbols = true) (mem : s ∈ symbols) :
    s.isNested = true := by
  induction symbols with
  | nil => cases mem
  | cons first rest ih =>
    obtain ⟨here, later, _⟩ := areNested_cons.mp nested
    rcases List.mem_cons.mp mem with rfl | mem
    · exact here
    · exact ih later mem

theorem isNested_closed (s : DocumentSymbol) (nested : s.isNested = true) :
    ∀ t ∈ s.children, t.range.isWithin s.range = true ∧ t.isNested = true := by
  obtain ⟨_, within, inner⟩ := isNested_iff.mp nested
  exact fun t mem => ⟨within t mem, isNested_of_mem inner mem⟩

theorem nested_of_mem_family (nested : s.isNested = true) (mem : t ∈ family s) :
    t.range.isWithin s.range = true ∧ t.isNested = true :=
  closed_of_mem_family isNested_closed s nested mem

theorem nested_of_mem_all (nested : areNested symbols = true) (mem : t ∈ all symbols) :
    ∃ s ∈ symbols, t.range.isWithin s.range = true ∧ t.isNested = true :=
  closed_of_mem_all isNested_closed symbols (fun _ => isNested_of_mem nested) mem

/-- A position at which a symbol ends lies in each range around that symbol. -/
theorem contains_of_ends (nested : t.isNested = true) (ends : t.range.stop = p)
    {outer : Range} (within : t.range.isWithin outer = true) : outer.contains p = true := by
  have proper := (isNested_iff.mp nested).1
  have here : t.range.contains p = true := by
    rw [Range.contains_iff, ← ends]
    exact ⟨proper, Position.le_iff.mpr (by omega)⟩
  exact Range.contains_of_isWithin within here

/-- What is found in a symbol that ends at the position ends there too. -/
theorem innermostIn_ends (nested : s.isNested = true) (ends : s.range.stop = p)
    (h : innermostIn p s = some found) : found.range.stop = p := by
  obtain ⟨mem, inside, _⟩ := innermostIn_spec s h
  exact Range.stop_eq_of_isWithin (nested_of_mem_family nested mem).1 ends inside

mutual

/-- If some symbol of a family ends at the position, what is found there ends at it. -/
theorem exists_innermostIn_ends (s : DocumentSymbol) (nested : s.isNested = true)
    (mem : t ∈ family s) (ends : t.range.stop = p) :
    ∃ found, innermostIn p s = some found ∧ found.range.stop = p := by
  cases s with
  | mk name kind detail range selection children =>
    obtain ⟨within, proper⟩ := nested_of_mem_family nested mem
    have inside := contains_of_ends proper ends within
    rcases mem_family_iff.mp mem with rfl | mem
    · cases h : innermostIn p (mk name kind detail range selection children) with
      | none => cases inside.symm.trans (innermostIn_eq_none_iff.mp h)
      | some found => exact ⟨found, rfl, innermostIn_ends nested ends h⟩
    · obtain ⟨found, deeper, stop⟩ :=
        exists_innermost_ends children (isNested_iff.mp nested).2.2 mem ends
      exact ⟨found, innermostIn_eq_some_iff.mpr ⟨inside, .inl deeper⟩, stop⟩

theorem exists_innermost_ends (symbols : List DocumentSymbol) (nested : areNested symbols = true)
    (mem : t ∈ all symbols) (ends : t.range.stop = p) :
    ∃ found, innermost p symbols = some found ∧ found.range.stop = p := by
  cases symbols with
  | nil => cases mem
  | cons s rest =>
    obtain ⟨first, later, before⟩ := areNested_cons.mp nested
    rw [innermost_cons]
    rcases mem_all_cons.mp mem with here | there
    · obtain ⟨found, h, stop⟩ := exists_innermostIn_ends s first here ends
      exact ⟨found, by rw [h, Option.some_or], stop⟩
    · cases h : innermostIn p s with
      | none => exact exists_innermost_ends rest later there ends
      | some found =>
        -- A symbol that contains the end of a later one ends where that one starts and ends.
        obtain ⟨outer, isLater, within, proper⟩ := nested_of_mem_all later there
        have inOuter := Range.contains_iff.mp (contains_of_ends proper ends within)
        have inFirst := Range.contains_iff.mp (innermostIn_eq_some_iff.mp h).1
        have upTo := Position.le_trans (before outer isLater) inOuter.1
        exact ⟨found, rfl, innermostIn_ends first (Position.le_antisymm upTo inFirst.2) h⟩

end

/-- Where symbols lie in one another and side by side, a symbol that has not ended yet is found at
a position, if there is one, exactly if none ends there. If one does, what is found ends there: it
hides the symbols that start there. -/
theorem symbol_is_found_unless_one_ends (symbols : List DocumentSymbol)
    (nested : areNested symbols = true) (p : Position) :
    ((∃ t ∈ all symbols, t.range.holds p = true) →
      ((∃ s ∈ all symbols, innermost p symbols = some s ∧ s.range.holds p = true) ↔
        ∀ t ∈ all symbols, t.range.stop ≠ p)) ∧
    ((∃ t ∈ all symbols, t.range.stop = p) →
      ∃ s ∈ all symbols, innermost p symbols = some s ∧ s.range.stop = p) := by
  constructor
  · rintro ⟨t, mem, holds⟩
    constructor
    · rintro ⟨s, _, h, stillOpen⟩ u there ends
      obtain ⟨found, h', stop⟩ := exists_innermost_ends symbols nested there ends
      rw [h', Option.some.injEq] at h
      exact (Range.holds_iff.mp stillOpen).2 (h ▸ stop)
    · intro none
      obtain ⟨outer, top, within, _⟩ := nested_of_mem_all nested mem
      have inside := Range.contains_of_isWithin within (Range.holds_iff.mp holds).1
      cases h : innermost p symbols with
      | none => cases inside.symm.trans (innermost_eq_none_iff.mp h outer top)
      | some s =>
        obtain ⟨here, contains, _⟩ := innermost_spec symbols h
        exact ⟨s, here, rfl, Range.holds_iff.mpr ⟨contains, none s here⟩⟩
  · rintro ⟨t, mem, ends⟩
    obtain ⟨s, h, stop⟩ := exists_innermost_ends symbols nested mem ends
    exact ⟨s, (innermost_spec symbols h).1, h, stop⟩

/-- A method is found where it starts, in a class that starts where a function ends. -/
theorem started_method_is_found :
    let leaf (name : String) (r : Range) : DocumentSymbol := .mk name 12 none r r []
    let first := leaf "f" ⟨⟨0, 0⟩, ⟨1, 0⟩⟩
    let method := leaf "Run" ⟨⟨2, 4⟩, ⟨4, 5⟩⟩
    let server : DocumentSymbol := .mk "Server" 5 none ⟨⟨1, 0⟩, ⟨9, 1⟩⟩ ⟨⟨1, 5⟩, ⟨1, 11⟩⟩ [method]
    let symbols := [first, server]
    areNested symbols = true ∧ method ∈ all symbols ∧ method.range.holds ⟨2, 4⟩ = true ∧
      (∀ t ∈ all symbols, t.range.stop ≠ ⟨2, 4⟩) ∧
      ∃ s ∈ all symbols, innermost ⟨2, 4⟩ symbols = some s ∧ s.range.holds ⟨2, 4⟩ = true := by
  intro leaf first method server symbols
  have nested : areNested symbols = true := by decide +kernel
  have mem : method ∈ all symbols := by
    simp [symbols, server, all, family, mem_family_self]
  have starts : method.range.holds ⟨2, 4⟩ = true := by decide
  have none : ∀ t ∈ all symbols, t.range.stop ≠ ⟨2, 4⟩ := by decide +kernel
  have found := (symbol_is_found_unless_one_ends symbols nested ⟨2, 4⟩).1 ⟨method, mem, starts⟩
  exact ⟨nested, mem, starts, none, found.mpr none⟩

/-- Of two functions that touch, the first is found where the second starts. -/
theorem ended_function_hides_next :
    let leaf (name : String) (r : Range) : DocumentSymbol := .mk name 12 none r r []
    let first := leaf "f" ⟨⟨0, 0⟩, ⟨1, 0⟩⟩
    let next := leaf "g" ⟨⟨1, 0⟩, ⟨2, 0⟩⟩
    areNested [first, next] = true ∧ next.range.start = ⟨1, 0⟩ ∧
      next.range.holds ⟨1, 0⟩ = true ∧ innermost ⟨1, 0⟩ [first, next] = some first ∧
      first.range.holds ⟨1, 0⟩ = false := by
  refine ⟨by decide +kernel, rfl, by decide, by rfl, by decide⟩

end DocumentSymbol

end CodeIntel
