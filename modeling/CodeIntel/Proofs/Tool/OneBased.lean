import CodeIntel.Proofs.Basic
import CodeIntel.Proofs.Frame.Decoding
import CodeIntel.Proofs.Table
import CodeIntel.Tool.Definition
import CodeIntel.Tool.Lenses

namespace CodeIntel

section Numbers

variable {m n : Nat} {mark : Char} {rest rest' : List Char}

theorem not_mem_repr (sign : mark.isDigit = false) (n : Nat) : ∀ c ∈ n.repr.toList, ¬ c = mark := by
  rintro _ mem rfl
  exact absurd (isDigit_of_mem_repr mem) (by simp [sign])

theorem eq_of_repr_toList (same : m.repr.toList = n.repr.toList) : m = n := by
  rw [Nat.toList_repr, Nat.toList_repr] at same
  have values := congrArg (Nat.ofDigitChars 10 · 0) same
  rwa [Nat.ofDigitChars_ten_toDigits, Nat.ofDigitChars_ten_toDigits] at values

/-- A number is told from what stands behind it by the first character that is no digit. -/
theorem repr_cons_inj (sign : mark.isDigit = false)
    (same : m.repr.toList ++ mark :: rest = n.repr.toList ++ mark :: rest') :
    m = n ∧ rest = rest' := by
  obtain ⟨numbers, _, rests⟩ := append_cons_unique_of_first (P := (· = mark)) same rfl rfl
    (not_mem_repr sign m) (not_mem_repr sign n)
  exact ⟨eq_of_repr_toList numbers, rests⟩

/-- So it is from what stands before it, by the last one. -/
theorem cons_repr_inj (sign : mark.isDigit = false)
    (same : rest ++ mark :: m.repr.toList = rest' ++ mark :: n.repr.toList) :
    rest = rest' ∧ m = n := by
  obtain ⟨rests, _, numbers⟩ := append_cons_unique_of_last (P := (· = mark)) same rfl rfl
    (not_mem_repr sign m) (not_mem_repr sign n)
  exact ⟨rests, eq_of_repr_toList numbers⟩

end Numbers

/-- The number after a number, in 32 bits, is the next one unless the number is the greatest. -/
theorem toNat_add_one_eq_iff {n : UInt32} : (n + 1).toNat = n.toNat + 1 ↔ n ≠ 0xFFFFFFFF := by
  have greatest : n = 0xFFFFFFFF ↔ n.toNat = 4294967295 := UInt32.toNat_inj.symm
  have bound := n.toNat_lt
  rw [Ne, greatest, UInt32.toNat_add]
  change (n.toNat + 1) % 4294967296 = n.toNat + 1 ↔ _
  omega

theorem eq_of_toNat_add_one {m n : UInt32} (same : (m + 1).toNat = (n + 1).toNat) : m = n := by
  have := m.toNat_lt
  have := n.toNat_lt
  rw [UInt32.toNat_add, UInt32.toNat_add] at same
  change (m.toNat + 1) % 4294967296 = (n.toNat + 1) % 4294967296 at same
  exact UInt32.toNat_inj.mp (by omega)

namespace Position

/-- A line and a column as they are shown. -/
def shown (line column : Nat) : String := s!"L{line}:C{column}"

/-- Whether the line and the column, counted from one, have 32 bits as well. -/
def HasNext (p : Position) : Prop := p.line ≠ 0xFFFFFFFF ∧ p.character ≠ 0xFFFFFFFF

theorem eq_of_numbers {p q : Position} (lines : (p.line + 1).toNat = (q.line + 1).toNat)
    (columns : (p.character + 1).toNat = (q.character + 1).toNat) : p = q := by
  cases p
  cases q
  exact Position.mk.injEq .. ▸ ⟨eq_of_toNat_add_one lines, eq_of_toNat_add_one columns⟩

theorem numbers_eq_iff (p : Position) :
    (p.line + 1).toNat = p.line.toNat + 1 ∧ (p.character + 1).toNat = p.character.toNat + 1 ↔
      p.HasNext :=
  and_congr toNat_add_one_eq_iff toNat_add_one_eq_iff

variable {line column line' column' : Nat} {rest rest' : List Char}

theorem shown_toList (line column : Nat) :
    (shown line column).toList = 'L' :: (line.repr.toList ++ ':' :: 'C' :: column.repr.toList) := by
  simp [shown, toString]

theorem shown_inj (same : shown line column = shown line' column') :
    line = line' ∧ column = column' := by
  have chars := congrArg String.toList same
  rw [shown_toList, shown_toList] at chars
  obtain ⟨lines, rests⟩ := repr_cons_inj (by decide) (List.cons.inj chars).2
  exact ⟨lines, eq_of_repr_toList (List.cons.inj rests).2⟩

theorem text_eq (p : Position) : p.text = shown (p.line + 1).toNat (p.character + 1).toNat := rfl

theorem text_injective : Function.Injective text := fun _ _ same =>
  eq_of_numbers (shown_inj same).1 (shown_inj same).2

theorem text_eq_iff (p : Position) :
    p.text = shown (p.line.toNat + 1) (p.character.toNat + 1) ↔ p.HasNext := by
  rw [← numbers_eq_iff]
  exact ⟨shown_inj, fun ⟨lines, columns⟩ => by rw [text_eq, lines, columns]⟩

end Position

namespace Range

/-- A range as it is shown by the numbers of its two positions. -/
def shown (line column lastLine lastColumn : Nat) : String :=
  s!"{Position.shown line column}-{Position.shown lastLine lastColumn}"

variable {a b c d a' b' c' d' : Nat}

theorem shown_toList (a b c d : Nat) : (shown a b c d).toList =
    'L' :: (a.repr.toList ++ ':' :: 'C' :: (b.repr.toList ++ '-' :: (Position.shown c d).toList)) := by
  simp [shown, toString, Position.shown_toList]

theorem shown_inj (same : shown a b c d = shown a' b' c' d') :
    (a = a' ∧ b = b') ∧ c = c' ∧ d = d' := by
  have chars := congrArg String.toList same
  rw [shown_toList, shown_toList] at chars
  obtain ⟨as, rests⟩ := repr_cons_inj (by decide) (List.cons.inj chars).2
  obtain ⟨bs, rests⟩ := repr_cons_inj (by decide) (List.cons.inj rests).2
  exact ⟨⟨as, bs⟩, Position.shown_inj (String.toList_injective rests)⟩

theorem text_eq (r : Range) : r.text = shown (r.start.line + 1).toNat (r.start.character + 1).toNat
    (r.stop.line + 1).toNat (r.stop.character + 1).toNat := rfl

theorem text_injective : Function.Injective text := by
  intro r s same
  obtain ⟨⟨lines, columns⟩, lines', columns'⟩ := shown_inj same
  cases r
  cases s
  exact Range.mk.injEq .. ▸
    ⟨Position.eq_of_numbers lines columns, Position.eq_of_numbers lines' columns'⟩

theorem text_eq_iff (r : Range) :
    r.text = shown (r.start.line.toNat + 1) (r.start.character.toNat + 1)
        (r.stop.line.toNat + 1) (r.stop.character.toNat + 1) ↔ r.start.HasNext ∧ r.stop.HasNext := by
  rw [← Position.numbers_eq_iff, ← Position.numbers_eq_iff]
  refine ⟨shown_inj, ?_⟩
  rintro ⟨⟨lines, columns⟩, lines', columns'⟩
  rw [text_eq, lines, columns, lines', columns']

end Range

namespace WorkspaceSymbol

/-- A symbol as it is told from others, with the numbers of its line and column. -/
def described (s : WorkspaceSymbol) (root : Path) (line column : Nat) : String :=
  s!"{s.qualifiedName} ({symbolKindName s.kind}) at {s.path.shown root}:{line}:{column}"

variable {s s' : WorkspaceSymbol} {root root' : Path} {line column line' column' : Nat}

theorem described_toList (s : WorkspaceSymbol) (root : Path) (line column : Nat) :
    (s.described root line column).toList =
      (s!"{s.qualifiedName} ({symbolKindName s.kind}) at {s.path.shown root}".toList ++
        ':' :: line.repr.toList) ++ ':' :: column.repr.toList := by
  simp [described, toString]

/-- Whatever stands before them, the last two numbers are the line and the column. -/
theorem described_inj (same : s.described root line column = s'.described root' line' column') :
    line = line' ∧ column = column' := by
  have chars := congrArg String.toList same
  rw [described_toList, described_toList] at chars
  obtain ⟨fronts, columns⟩ := cons_repr_inj (by decide) chars
  exact ⟨(cons_repr_inj (by decide) fronts).2, columns⟩

theorem describe_eq (s : WorkspaceSymbol) (root : Path) :
    s.describe root = s.described root (s.range.start.line + 1).toNat
      (s.range.start.character + 1).toNat := by
  simp only [describe, described, toString, String.append_assoc]

theorem start_eq_of_describe (same : s.describe root = s'.describe root') :
    s.range.start = s'.range.start := by
  rw [describe_eq, describe_eq] at same
  exact Position.eq_of_numbers (described_inj same).1 (described_inj same).2

theorem describe_eq_iff (s : WorkspaceSymbol) (root : Path) :
    s.describe root = s.described root (s.range.start.line.toNat + 1)
        (s.range.start.character.toNat + 1) ↔ s.range.start.HasNext := by
  rw [← Position.numbers_eq_iff, describe_eq]
  exact ⟨described_inj, fun ⟨lines, columns⟩ => by rw [lines, columns]⟩

end WorkspaceSymbol

/-- Whether the first and the last line of a range, counted from one, have 32 bits as well. -/
def Range.LinesHaveNext (r : Range) : Prop := r.start.line ≠ 0xFFFFFFFF ∧ r.stop.line ≠ 0xFFFFFFFF

theorem Range.lines_eq_iff (r : Range) :
    (r.start.line + 1).toNat = r.start.line.toNat + 1 ∧
        (r.stop.line + 1).toNat = r.stop.line.toNat + 1 ↔ r.LinesHaveNext :=
  and_congr toNat_add_one_eq_iff toNat_add_one_eq_iff

namespace Lenses

/-- The title and the name of the command of a lens, as they are listed. -/
def commandTexts (lens : CodeLens) : String × String :=
  match lens.command with
  | some command => (command.title, command.command)
  | none => ("(unresolved)", "(none)")

/-- A lens in a list, with the numbers of its first and its last line. -/
def listed (number : Nat) (texts : String × String) (first last : Nat) : String :=
  s!"[{number}] {texts.1} (L{first}-L{last}) command: {texts.2}"

variable {number first last first' last' : Nat} {texts : String × String} {lens lens' : CodeLens}

theorem listed_toList (number : Nat) (texts : String × String) (first last : Nat) :
    (listed number texts first last).toList = s!"[{number}] {texts.1} (L".toList ++
      (first.repr.toList ++ '-' :: 'L' :: (last.repr.toList ++
        ')' :: s!" command: {texts.2}".toList)) := by
  simp [listed, toString]

theorem listed_inj (same : listed number texts first last = listed number texts first' last') :
    first = first' ∧ last = last' := by
  have chars := congrArg String.toList same
  rw [listed_toList, listed_toList] at chars
  obtain ⟨firsts, rests⟩ := repr_cons_inj (by decide) (List.append_cancel_left chars)
  exact ⟨firsts, (repr_cons_inj (by decide) (List.cons.inj rests).2).1⟩

theorem entry_eq (number : Nat) (lens : CodeLens) :
    entry number lens = listed number (commandTexts lens) (lens.range.start.line + 1).toNat
      (lens.range.stop.line + 1).toNat := by
  simp only [entry, listed, commandTexts, toString, String.append_assoc]
  rfl

/-- Of one number and one command, a lens is listed differently for different lines. -/
theorem lines_eq_of_entry (same : entry number lens = entry number lens')
    (command : lens.command = lens'.command) :
    lens.range.start.line = lens'.range.start.line ∧
      lens.range.stop.line = lens'.range.stop.line := by
  have texts : commandTexts lens = commandTexts lens' := by rw [commandTexts, commandTexts, command]
  rw [entry_eq, entry_eq, texts] at same
  obtain ⟨firsts, lasts⟩ := listed_inj same
  exact ⟨eq_of_toNat_add_one firsts, eq_of_toNat_add_one lasts⟩

theorem entry_eq_iff (number : Nat) (lens : CodeLens) :
    entry number lens = listed number (commandTexts lens) (lens.range.start.line.toNat + 1)
        (lens.range.stop.line.toNat + 1) ↔ lens.range.LinesHaveNext := by
  rw [← Range.lines_eq_iff, entry_eq]
  exact ⟨listed_inj, fun ⟨firsts, lasts⟩ => by rw [firsts, lasts]⟩

end Lenses

namespace Definition

/-- The facts about a definition, with the numbers of its first and its last line. -/
def facts (path : Path) (first last : Nat) : Json :=
  .object [("endLine", .nat last), ("path", .string path.text), ("startLine", .nat first)]

variable {path path' : Path} {range range' : Range} {first last first' last' : Nat}

theorem facts_inj (same : facts path first last = facts path' first' last') :
    first = first' ∧ last = last' := by
  simp only [facts, Json.nat, Json.object.injEq, List.cons.injEq, Prod.mk.injEq, Json.number.injEq,
    Number.int.injEq, Int.natCast_inj, true_and, and_true] at same
  exact ⟨same.2.2, same.1⟩

theorem metadata_eq (path : Path) (range : Range) :
    metadata path range =
      facts path (range.start.line + 1).toNat (range.stop.line + 1).toNat := by
  have later : ¬ "startLine" < "path" := by decide
  have first : "endLine" < "path" := by decide
  simp only [metadata, facts, Json.ofMembers, Json.sortMembers, List.foldl_cons, List.foldl_nil,
    insertEntry, if_neg later, if_pos first, String.reduceEq, if_false]

theorem lines_eq_of_metadata (same : metadata path range = metadata path' range') :
    range.start.line = range'.start.line ∧ range.stop.line = range'.stop.line := by
  rw [metadata_eq, metadata_eq] at same
  exact ⟨eq_of_toNat_add_one (facts_inj same).1, eq_of_toNat_add_one (facts_inj same).2⟩

theorem metadata_eq_iff (path : Path) (range : Range) :
    metadata path range = facts path (range.start.line.toNat + 1) (range.stop.line.toNat + 1) ↔
      range.LinesHaveNext := by
  rw [← Range.lines_eq_iff, metadata_eq]
  exact ⟨facts_inj, fun ⟨firsts, lasts⟩ => by rw [firsts, lasts]⟩

end Definition

/-- Wherever lines and columns are shown counted from one, they are shown as what they are just if
their numbers have 32 bits; and what is shown always tells different ones apart. -/
theorem places_are_counted_from_one (p : Position) (range : Range) (s : WorkspaceSymbol)
    (root : Path) (number : Nat) (lens : CodeLens) (path : Path) :
    ((∀ p' : Position, p.text = p'.text → p = p') ∧
      (p.text = Position.shown (p.line.toNat + 1) (p.character.toNat + 1) ↔ p.HasNext)) ∧
    ((∀ range' : Range, range.text = range'.text → range = range') ∧
      (range.text = Range.shown (range.start.line.toNat + 1) (range.start.character.toNat + 1)
        (range.stop.line.toNat + 1) (range.stop.character.toNat + 1) ↔
          range.start.HasNext ∧ range.stop.HasNext)) ∧
    ((∀ (s' : WorkspaceSymbol) (root' : Path), s.describe root = s'.describe root' →
        s.range.start = s'.range.start) ∧
      (s.describe root = s.described root (s.range.start.line.toNat + 1)
        (s.range.start.character.toNat + 1) ↔ s.range.start.HasNext)) ∧
    ((∀ lens' : CodeLens, Lenses.entry number lens = Lenses.entry number lens' →
        lens.command = lens'.command → lens.range.start.line = lens'.range.start.line ∧
          lens.range.stop.line = lens'.range.stop.line) ∧
      (Lenses.entry number lens = Lenses.listed number (Lenses.commandTexts lens)
        (lens.range.start.line.toNat + 1) (lens.range.stop.line.toNat + 1) ↔
          lens.range.LinesHaveNext)) ∧
    (∀ (path' : Path) (range' : Range),
        Definition.metadata path range = Definition.metadata path' range' →
          range.start.line = range'.start.line ∧ range.stop.line = range'.stop.line) ∧
    (Definition.metadata path range = Definition.facts path (range.start.line.toNat + 1)
      (range.stop.line.toNat + 1) ↔ range.LinesHaveNext) := by
  refine ⟨⟨fun _ same => Position.text_injective same, p.text_eq_iff⟩,
    ⟨fun _ same => Range.text_injective same, range.text_eq_iff⟩, ⟨?_, s.describe_eq_iff root⟩,
    ⟨?_, Lenses.entry_eq_iff number lens⟩, ?_, Definition.metadata_eq_iff path range⟩
  · exact fun _ _ => WorkspaceSymbol.start_eq_of_describe
  · exact fun _ => Lenses.lines_eq_of_entry
  · exact fun _ _ => Definition.lines_eq_of_metadata

/-- The last line but one of all that have a number. -/
theorem last_counted_line_is_shown :
    Position.text ⟨0xFFFFFFFE, 0⟩ = Position.shown 0xFFFFFFFF 1 := by
  have last : Position.HasNext ⟨0xFFFFFFFE, 0⟩ := ⟨by decide, by decide⟩
  let symbol : WorkspaceSymbol := ⟨"f", 12, none, .ofString "/f.go", .origin⟩
  exact (places_are_counted_from_one ⟨0xFFFFFFFE, 0⟩ .origin symbol (.ofString "/") 0
    ⟨.origin, none, none⟩ symbol.path).1.2.mpr last

/-- The line behind it is shown as line zero. -/
theorem last_line_is_shown_as_zero :
    Position.text ⟨0xFFFFFFFF, 0⟩ = Position.shown 0 1 ∧
      Position.text ⟨0xFFFFFFFF, 0⟩ ≠ Position.shown 0x100000000 1 := by
  decide

end CodeIntel
