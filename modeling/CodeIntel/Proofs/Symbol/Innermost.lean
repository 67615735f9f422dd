import CodeIntel.Client.Results

namespace CodeIntel

namespace Range

variable {r outer : Range} {p : Position}

/-- Whether a range reaches over neither end of another one. -/
def isWithin (r outer : Range) : Bool := outer.start.le r.start && r.stop.le outer.stop

def isStrictlyWithin (r outer : Range) : Bool := r.isWithin outer && r ≠ outer

theorem isWithin_iff : r.isWithin outer = true ↔
    outer.start.le r.start = true ∧ r.stop.le outer.stop = true := by
  simp [isWithin]

theorem isWithin_self (r : Range) : r.isWithin r = true := by
  simp [isWithin, Position.le_iff]

theorem isWithin_trans {middle : Range} (h : r.isWithin middle = true)
    (h' : middle.isWithin outer = true) : r.isWithin outer = true := by
  rw [isWithin_iff] at *
  exact ⟨Position.le_trans h'.1 h.1, Position.le_trans h.2 h'.2⟩

theorem isWithin_antisymm (h : r.isWithin outer = true) (h' : outer.isWithin r = true) :
    r = outer := by
  rw [isWithin_iff] at *
  obtain ⟨start, stop⟩ := r
  obtain ⟨start', stop'⟩ := outer
  exact mk.injEq .. ▸ ⟨Position.le_antisymm h'.1 h.1, Position.le_antisymm h.2 h'.2⟩

theorem isStrictlyWithin_iff : r.isStrictlyWithin outer = true ↔
    r.isWithin outer = true ∧ r ≠ outer := by
  simp [isStrictlyWithin]

theorem not_isStrictlyWithin_of_isWithin (h : outer.isWithin r = true) :
    r.isStrictlyWithin outer = false := by
  refine Bool.eq_false_iff.mpr fun strict => ?_
  obtain ⟨within, ne⟩ := isStrictlyWithin_iff.mp strict
  exact ne (isWithin_antisymm within h)

theorem contains_of_isWithin (h : r.isWithin outer = true) (inside : r.contains p = true) :
    outer.contains p = true := by
  rw [isWithin_iff] at h
  simp only [contains, Bool.and_eq_true] at *
  exact ⟨Position.le_trans h.1 inside.1, Position.le_trans inside.2 h.2⟩

end Range

namespace DocumentSymbol

mutual

/-- A symbol and all symbols inside it. -/
def family : DocumentSymbol → List DocumentSymbol
  | mk name kind detail range selection children =>
    mk name kind detail range selection children :: all children

/-- All symbols of a document, wherever they stand. -/
def all : List DocumentSymbol → List DocumentSymbol
  | [] => []
  | s :: rest => family s ++ all rest

end

mutual

/-- Whether the ranges of symbols lie in one another as the symbols do. -/
def isOrderly : DocumentSymbol → Bool
  | mk _ _ _ range _ children =>
    (children.all fun t => t.range.isWithin range) && areOrderly children

/-- The same of symbols side by side: none that stands further on, or inside such a one, lies
strictly within an earlier symbol or one inside it. -/
def areOrderly : List DocumentSymbol → Bool
  | [] => true
  | s :: rest =>
    isOrderly s && areOrderly rest &&
      (family s).all fun r => (all rest).all fun t => !t.range.isStrictlyWithin r.range

end

variable {p : Position} {s t found : DocumentSymbol} {symbols rest : List DocumentSymbol}

theorem mem_family_self (s : DocumentSymbol) : s ∈ family s := by
  cases s
  simp [family]

theorem mem_family_iff : t ∈ family s ↔ t = s ∨ t ∈ all s.children := by
  cases s
  simp [family, children]

theorem mem_all_cons : t ∈ all (s :: rest) ↔ t ∈ family s ∨ t ∈ all rest := by simp [all]

theorem mem_all_of_mem (h : s ∈ symbols) : s ∈ all symbols := by
  induction symbols with
  | nil => cases h
  | cons first rest ih =>
    rw [mem_all_cons]
    rcases List.mem_cons.mp h with rfl | h
    · exact .inl (mem_family_self s)
    · exact .inr (ih h)

theorem innermostIn_eq_some_iff : innermostIn p s = some found ↔ s.range.contains p = true ∧
    (innermost p s.children = some found ∨ innermost p s.children = none ∧ found = s) := by
  cases s with
  | mk name kind detail range selection children =>
    rw [innermostIn]
    simp only [DocumentSymbol.range, DocumentSymbol.children]
    split
    next inside =>
      cases innermost p children with
      | some inner => simp [inside]
      | none => simp [inside, eq_comm]
    next outside => simp [outside]

theorem innermostIn_eq_none_iff : innermostIn p s = none ↔ s.range.contains p = false := by
  cases h : innermostIn p s with
  | some found => simp [(innermostIn_eq_some_iff.mp h).1]
  | none =>
    refine iff_of_true rfl (Bool.eq_false_iff.mpr fun inside => ?_)
    cases deeper : innermost p s.children with
    | some inner =>
      cases h.symm.trans (innermostIn_eq_some_iff.mpr ⟨inside, .inl deeper⟩)
    | none => cases h.symm.trans (innermostIn_eq_some_iff.mpr ⟨inside, .inr ⟨deeper, rfl⟩⟩)

theorem innermost_cons (p : Position) (s : DocumentSymbol) (rest : List DocumentSymbol) :
    innermost p (s :: rest) = (innermostIn p s).or (innermost p rest) := by
  rw [innermost]
  cases innermostIn p s <;> rfl

/-- A symbol is found if one of those that stand in no other contains the position. -/
theorem innermost_eq_none_iff : innermost p symbols = none ↔
    ∀ s ∈ symbols, s.range.contains p = false := by
  induction symbols with
  | nil => simp [innermost]
  | cons s rest ih =>
    rw [innermost_cons, Option.or_eq_none_iff, innermostIn_eq_none_iff, ih, List.forall_mem_cons]

theorem isOrderly_iff : s.isOrderly = true ↔
    (∀ t ∈ s.children, t.range.isWithin s.range = true) ∧ areOrderly s.children = true := by
  cases s
  simp [isOrderly, range, children]

theorem areOrderly_cons : areOrderly (s :: rest) = true ↔
    s.isOrderly = true ∧ areOrderly rest = true ∧
      ∀ r ∈ family s, ∀ t ∈ all rest, t.range.isStrictlyWithin r.range = false := by
  simp [areOrderly, and_assoc]

mutual

/-- What is found in a symbol is one of its family, contains the position, and has nothing inside
that does. -/
theorem innermostIn_spec (s : DocumentSymbol) (h : innermostIn p s = some found) :
    found ∈ family s ∧ found.range.contains p = true ∧
      ∀ t ∈ found.children, t.range.contains p = false := by
  cases s with
  | mk name kind detail range selection children =>
    rw [mem_family_iff]
    obtain ⟨inside, deeper | ⟨none, rfl⟩⟩ := innermostIn_eq_some_iff.mp h
    · exact (innermost_spec children deeper).imp_left .inr
    · exact ⟨.inl rfl, inside, innermost_eq_none_iff.mp none⟩

theorem innermost_spec (symbols : List DocumentSymbol) (h : innermost p symbols = some found) :
    found ∈ all symbols ∧ found.range.contains p = true ∧
      ∀ t ∈ found.children, t.range.contains p = false := by
  cases symbols with
  | nil => cases h
  | cons s rest =>
    rw [mem_all_cons]
    rw [innermost_cons] at h
    rcases Option.or_eq_some_iff.mp h with here | ⟨_, later⟩
    · exact (innermostIn_spec s here).imp_left .inl
    · exact (innermost_spec rest later).imp_left .inr

end

section Closed

variable {P : DocumentSymbol → Prop}

mutual

/-- What is passed on from symbols to those in them, which lie within them, reaches all of a family,
and all of it lies within its first. -/
theorem closed_of_mem_family
    (closed : ∀ s, P s → ∀ t ∈ s.children, t.range.isWithin s.range = true ∧ P t)
    (s : DocumentSymbol) (h : P s) (mem : t ∈ family s) :
    t.range.isWithin s.range = true ∧ P t := by
  cases s with
  | mk name kind detail range selection children =>
    rcases mem_family_iff.mp mem with rfl | mem
    · exact ⟨Range.isWithin_self _, h⟩
    · have inner : ∀ c ∈ children, P c := fun c here => (closed _ h c here).2
      obtain ⟨child, here, reaches, holds⟩ := closed_of_mem_all closed children inner mem
      exact ⟨Range.isWithin_trans reaches (closed _ h child here).1, holds⟩

theorem closed_of_mem_all
    (closed : ∀ s, P s → ∀ t ∈ s.children, t.range.isWithin s.range = true ∧ P t)
    (symbols : List DocumentSymbol) (h : ∀ s ∈ symbols, P s) (mem : t ∈ all symbols) :
    ∃ s ∈ symbols, t.range.isWithin s.range = true ∧ P t := by
  cases symbols with
  | nil => cases mem
  | cons s rest =>
    obtain ⟨first, later⟩ := List.forall_mem_cons.mp h
    rcases mem_all_cons.mp mem with here | there
    · exact ⟨s, List.mem_cons_self, closed_of_mem_family closed s first here⟩
    · obtain ⟨outer, mem, reaches⟩ := closed_of_mem_all closed rest later there
      exact ⟨outer, List.mem_cons_of_mem s mem, reaches⟩

end

end Closed

theorem isOrderly_of_mem (orderly : areOrderly symbols = true) (mem : s ∈ symbols) :
    s.isOrderly = true := by
  induction symbols with
  | nil => cases mem
  | cons first rest ih =>
    obtain ⟨here, later, _⟩ := areOrderly_cons.mp orderly
    rcases List.mem_cons.mp mem with rfl | mem
    · exact here
    · exact ih later mem

theorem isOrderly_closed (s : DocumentSymbol) (orderly : s.isOrderly = true) :
    ∀ t ∈ s.children, t.range.isWithin s.range = true ∧ t.isOrderly = true := by
  obtain ⟨within, inner⟩ := isOrderly_iff.mp orderly
  exact fun t mem => ⟨within t mem, isOrderly_of_mem inner mem⟩

theorem isWithin_of_mem_family (s : DocumentSymbol) (orderly : s.isOrderly = true)
    (h : t ∈ family s) : t.range.isWithin s.range = true :=
  (closed_of_mem_family isOrderly_closed s orderly h).1

/-- Each symbol lies within one of those that stand in no other. -/
theorem exists_isWithin_of_mem_all (symbols : List DocumentSymbol)
    (orderly : areOrderly symbols = true) (h : t ∈ all symbols) :
    ∃ s ∈ symbols, t.range.isWithin s.range = true := by
  obtain ⟨s, mem, within, _⟩ :=
    closed_of_mem_all isOrderly_closed symbols (fun _ => isOrderly_of_mem orderly) h
  exact ⟨s, mem, within⟩

/-- Where no symbol that stands in no other contains the position, no symbol does. -/
theorem contains_eq_false_of_mem_all (orderly : areOrderly symbols = true)
    (none : innermost p symbols = none) (h : t ∈ all symbols) : t.range.contains p = false := by
  obtain ⟨s, mem, within⟩ := exists_isWithin_of_mem_all symbols orderly h
  refine Bool.eq_false_iff.mpr fun inside => ?_
  rw [innermost_eq_none_iff] at none
  exact absurd (Range.contains_of_isWithin within inside) (by simp [none s mem])

mutual

/-- Of the family of a symbol, what is found has no other one strictly within it that contains the
position. -/
theorem innermostIn_least (s : DocumentSymbol) (orderly : s.isOrderly = true)
    (h : innermostIn p s = some found) (mem : t ∈ family s) (inside : t.range.contains p = true) :
    t.range.isStrictlyWithin found.range = false := by
  cases s with
  | mk name kind detail range selection children =>
    have ⟨_, inner⟩ := isOrderly_iff.mp orderly
    obtain ⟨_, deeper | ⟨none, rfl⟩⟩ := innermostIn_eq_some_iff.mp h
    · rcases mem_family_iff.mp mem with rfl | mem
      · have there : found ∈ family (mk name kind detail range selection children) :=
          mem_family_iff.mpr (.inr (innermost_spec children deeper).1)
        exact Range.not_isStrictlyWithin_of_isWithin (isWithin_of_mem_family _ orderly there)
      · exact innermost_least children inner deeper mem inside
    · rcases mem_family_iff.mp mem with rfl | mem
      · exact Range.not_isStrictlyWithin_of_isWithin (Range.isWithin_self _)
      · cases inside.symm.trans (contains_eq_false_of_mem_all inner none mem)

theorem innermost_least (symbols : List DocumentSymbol) (orderly : areOrderly symbols = true)
    (h : innermost p symbols = some found) (mem : t ∈ all symbols)
    (inside : t.range.contains p = true) : t.range.isStrictlyWithin found.range = false := by
  cases symbols with
  | nil => cases h
  | cons s rest =>
    obtain ⟨first, later, apart⟩ := areOrderly_cons.mp orderly
    rw [innermost_cons] at h
    rcases Option.or_eq_some_iff.mp h with here | ⟨nothing, there⟩ <;>
      rcases mem_all_cons.mp mem with mem | mem
    · exact innermostIn_least s first here mem inside
    · exact apart found (innermostIn_spec s here).1 t mem
    · have outside := innermostIn_eq_none_iff.mp nothing
      have within := isWithin_of_mem_family s first mem
      cases outside.symm.trans (Range.contains_of_isWithin within inside)
    · exact innermost_least rest later there mem inside

end

@[simp]
theorem range_leaf (s : FoundSymbol) : (leaf s).range = s.range := rfl

theorem family_leaf (s : FoundSymbol) : family (leaf s) = [leaf s] := by simp [leaf, family, all]

theorem all_leaves (found : List FoundSymbol) : all (found.map leaf) = found.map leaf := by
  induction found with
  | nil => rfl
  | cons s rest ih => rw [List.map_cons, all, family_leaf, ih, List.singleton_append]

/-- Of symbols in a plain list the first that contains the position is found. -/
theorem innermost_leaves (p : Position) (found : List FoundSymbol) :
    innermost p (found.map leaf) = (found.find? fun s => s.range.contains p).map leaf := by
  induction found with
  | nil => rfl
  | cons s rest ih =>
    rw [List.map_cons, innermost_cons, ih, List.find?_cons]
    cases inside : s.range.contains p with
    | true =>
      have here : innermostIn p (leaf s) = some (leaf s) :=
        innermostIn_eq_some_iff.mpr ⟨inside, .inr ⟨rfl, rfl⟩⟩
      rw [here]
      rfl
    | false =>
      have outside : innermostIn p (leaf s) = none := innermostIn_eq_none_iff.mpr inside
      rw [outside]
      rfl

theorem areOrderly_leaves (found : List FoundSymbol) : areOrderly (found.map leaf) = true ↔
    found.Pairwise fun s t => t.range.isStrictlyWithin s.range = false := by
  induction found with
  | nil => simp [areOrderly]
  | cons s rest ih =>
    have alone : (leaf s).isOrderly = true := by simp [leaf, isOrderly, areOrderly]
    simp [areOrderly_cons, ih, alone, family_leaf, all_leaves, and_comm]

/-- What is found contains the position and has nothing inside that does; something is found if a
symbol that stands in no other contains the position. Where the symbols lie in one another as their
ranges do, this is so if any symbol contains it, and none of those that do lies strictly within the
one found. In a plain list, the first one that contains the position is found, and it is enough that
no symbol stands behind one that it lies strictly within. -/
theorem innermost_symbol_is_least (p : Position) :
    (∀ symbols : List DocumentSymbol,
      (∀ s, innermost p symbols = some s → s ∈ all symbols ∧ s.range.contains p = true ∧
        ∀ t ∈ s.children, t.range.contains p = false) ∧
      ((innermost p symbols).isSome ↔ ∃ s ∈ symbols, s.range.contains p = true) ∧
      (areOrderly symbols = true →
        ((innermost p symbols).isSome ↔ ∃ s ∈ all symbols, s.range.contains p = true) ∧
        ∀ s, innermost p symbols = some s → ∀ t ∈ all symbols, t.range.contains p = true →
          t.range.isStrictlyWithin s.range = false)) ∧
    ∀ found : List FoundSymbol,
      innermost p (found.map leaf) = (found.find? fun s => s.range.contains p).map leaf ∧
      (areOrderly (found.map leaf) = true ↔
        found.Pairwise fun s t => t.range.isStrictlyWithin s.range = false) := by
  refine ⟨fun symbols => ⟨fun s h => innermost_spec symbols h, ?_, fun orderly => ⟨?_, ?_⟩⟩,
    fun found => ⟨innermost_leaves p found, areOrderly_leaves found⟩⟩
  · rw [Option.isSome_iff_ne_none, Ne, innermost_eq_none_iff]
    simp
  · constructor
    · intro some
      obtain ⟨s, h⟩ := Option.isSome_iff_exists.mp some
      have spec := innermost_spec symbols h
      exact ⟨s, spec.1, spec.2.1⟩
    · rintro ⟨s, mem, inside⟩
      rw [Option.isSome_iff_ne_none]
      intro none
      cases inside.symm.trans (contains_eq_false_of_mem_all orderly none mem)
  · exact fun s h t mem inside => innermost_least symbols orderly h mem inside

/-- Two functions that touch, and a method in its class. -/
theorem method_in_class_is_least :
    let leaf (name : String) (r : Range) : DocumentSymbol := .mk name 12 none r r []
    let first := leaf "f" ⟨⟨0, 0⟩, ⟨1, 0⟩⟩
    let method := leaf "Run" ⟨⟨2, 4⟩, ⟨4, 5⟩⟩
    let server : DocumentSymbol := .mk "Server" 5 none ⟨⟨1, 0⟩, ⟨9, 1⟩⟩ ⟨⟨1, 5⟩, ⟨1, 11⟩⟩ [method]
    let symbols := [first, server]
    areOrderly symbols = true ∧ innermost ⟨3, 0⟩ symbols = some method ∧
      (∀ t ∈ all symbols, t.range.contains ⟨3, 0⟩ = true →
        t.range.isStrictlyWithin method.range = false) := by
  intro leaf first method server symbols
  have orderly : areOrderly symbols = true := by decide +kernel
  have found : innermost ⟨3, 0⟩ symbols = some method := by rfl
  have least := ((innermost_symbol_is_least ⟨3, 0⟩).1 symbols).2.2 orderly
  exact ⟨orderly, found, least.2 method found⟩

/-- A plain list that names a class before its method: the class is found at a position inside the
method. -/
theorem outer_symbol_hides_inner :
    let position (line character : Nat) : Json :=
      .object [("character", .nat character), ("line", .nat line)]
    let place (start stop : Json) : Json := .object
      [("range", .object [("end", stop), ("start", start)]), ("uri", .string "file:///a")]
    let symbol (name : String) (kind : Nat) (place : Json) : Json :=
      .object [("kind", .nat kind), ("location", place), ("name", .string name)]
    let answer : Json := .array
      [symbol "Server" 5 (place (position 0 0) (position 9 1)),
        symbol "Run" 6 (place (position 2 4) (position 4 5))]
    ∃ symbols outer inner, readDocumentSymbols answer = .ok symbols ∧
      innermost ⟨3, 0⟩ symbols = some outer ∧ inner ∈ all symbols ∧
      inner.range.contains ⟨3, 0⟩ = true ∧ inner.range.isStrictlyWithin outer.range = true := by
  intro position place symbol answer
  let server : DocumentSymbol :=
    .mk "Server" 5 none ⟨⟨0, 0⟩, ⟨9, 1⟩⟩ ⟨⟨0, 0⟩, ⟨9, 1⟩⟩ []
  let method : DocumentSymbol := .mk "Run" 6 none ⟨⟨2, 4⟩, ⟨4, 5⟩⟩ ⟨⟨2, 4⟩, ⟨4, 5⟩⟩ []
  have read : readDocumentSymbols answer = .ok [server, method] := by rfl
  refine ⟨[server, method], server, method, read, by rfl, ?_, by decide, by decide⟩
  exact mem_all_of_mem (List.mem_cons_of_mem _ List.mem_cons_self)

end DocumentSymbol

end CodeIntel
