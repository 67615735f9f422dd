import CodeIntel.Symbol.Query
import Mathlib.Data.List.DropRight
import Mathlib.Data.List.TakeWhile

namespace CodeIntel

variable {cs inner : List Char}

/-- Whether a text is left of another one without the blanks at its two ends. -/
structure Trims (cs inner : List Char) : Prop where
  ends : ∃ front back, cs = front ++ inner ++ back ∧ (∀ c ∈ front, isBlank c = true) ∧
    ∀ c ∈ back, isBlank c = true
  first : ∀ c, inner.head? = some c → isBlank c = false
  last : ∀ c, inner.getLast? = some c → isBlank c = false

theorem Trims.eq (h : Trims cs inner) : inner = trimBlank cs := by
  obtain ⟨front, back, rfl, blank, blank'⟩ := h.ends
  have behind : trimBlankLeft (front ++ inner ++ back) = (inner ++ back).dropWhile isBlank := by
    rw [trimBlankLeft, List.append_assoc, List.dropWhile_append_of_pos blank]
  rw [trimBlank, behind, trimBlankRight]
  cases inner with
  | nil => simp [List.dropWhile_eq_nil_iff.mpr blank']
  | cons c inner =>
    have first : ¬isBlank c = true := by simp [h.first c rfl]
    have last : ¬isBlank ((c :: inner).getLast (List.cons_ne_nil c inner)) = true := by
      simp [h.last _ (List.getLast?_eq_some_getLast _)]
    rw [List.cons_append, List.dropWhile_cons_of_neg first, ← List.cons_append, List.reverse_append,
      List.dropWhile_append_of_pos (by simpa using blank')]
    exact (List.rdropWhile_eq_self_iff.mpr fun _ => last).symm

namespace SymbolQuery

/-- Whether a name becomes another one as each of its double colons, from the left, becomes a dot. -/
inductive Dots : List Char → List Char → Prop
  | single {piece : List Char} (free : ¬[':', ':'] <:+: piece) : Dots piece piece
  | double {piece name dots : List Char} (first : ¬[':', ':'] <:+: piece ++ [':'])
      (rest : Dots name dots) : Dots (piece ++ ':' :: ':' :: name) (piece ++ '.' :: dots)

/-- Whether a name is normalized to another one: blanks at its ends go, double colons become dots,
and then the marks of a receiver go. -/
def Normalizes (name normal : List Char) : Prop :=
  ∃ inner dots, Trims name inner ∧ Dots inner dots ∧
    normal = dots.filter fun c => c ∉ ['(', ')', '*']

variable {isSeparator : Char → Bool}

variable {q : SymbolQuery} {s : WorkspaceSymbol}

/-- Whether the query is, normalized, the name of the symbol, or that behind the name of its
container and a dot. -/
def Names (q : SymbolQuery) (s : WorkspaceSymbol) : Prop :=
  ∃ name, Normalizes s.name.toList name ∧
    (['.'].intercalate q.segments = name ∨
      ∃ container outer, s.container = some container ∧ container ≠ "" ∧
        Normalizes container.toList outer ∧ ['.'].intercalate q.segments = outer ++ '.' :: name)

end SymbolQuery

end CodeIntel
