import CodeIntel.Json.Reader
import CodeIntel.Proofs.Json.Text

namespace CodeIntel.Json

open Token (escaped? hexValue? hex4? isHighSurrogate isLowSurrogate readString)
open Loose (skipString)

/-- A character that stands for itself between quotes. -/
structure IsBare (c : Char) : Prop where
  notQuote : c ≠ '"'
  notBackslash : c ≠ '\\'
  plain : IsPlain c

instance (c : Char) : Decidable (IsBare c) :=
  decidable_of_iff (c ≠ '"' ∧ c ≠ '\\' ∧ IsPlain c)
    ⟨fun h => ⟨h.1, h.2.1, h.2.2⟩, fun h => ⟨h.notQuote, h.notBackslash, h.plain⟩⟩

/-- The ways to write a character with a backslash. -/
inductive Escape : List Char → Char → Prop
  | letter {e c : Char} (value : escaped? e = some c) : Escape ['\\', e] c
  | code {a b c d : Char} {n : Nat} (value : hex4? a b c d = some n)
      (notLow : isLowSurrogate n = false) (notHigh : isHighSurrogate n = false) :
      Escape ['\\', 'u', a, b, c, d] (Char.ofNat n)
  | pair {a b c d a' b' c' d' : Char} {high low : Nat} (value : hex4? a b c d = some high)
      (notLow : isLowSurrogate high = false) (isHigh : isHighSurrogate high = true)
      (value' : hex4? a' b' c' d' = some low) (isLow : isLowSurrogate low = true) :
      Escape ['\\', 'u', a, b, c, d, '\\', 'u', a', b', c', d']
        (Char.ofNat (0x10000 + (high - 0xD800) * 0x400 + (low - 0xDC00)))

/-- What stands between the quotes of a string, and the characters of the string. -/
inductive Spells : List Char → List Char → Prop
  | nil : Spells [] []
  | bare {c : Char} {body cs : List Char} (isBare : IsBare c) (rest : Spells body cs) :
      Spells (c :: body) (c :: cs)
  | escape {code body cs : List Char} {c : Char} (isEscape : Escape code c)
      (rest : Spells body cs) : Spells (code ++ body) (c :: cs)

/-- What has the form of a string between its quotes, though it need not stand for one. -/
inductive IsLiteral : List Char → Prop
  | nil : IsLiteral []
  | bare {c : Char} {body : List Char} (isBare : IsBare c) (rest : IsLiteral body) :
      IsLiteral (c :: body)
  | letter {e : Char} {body : List Char} (value : (escaped? e).isSome) (rest : IsLiteral body) :
      IsLiteral ('\\' :: e :: body)
  | code {a b c d : Char} {body : List Char} (value : (hex4? a b c d).isSome)
      (rest : IsLiteral body) : IsLiteral ('\\' :: 'u' :: a :: b :: c :: d :: body)

variable {acc body body' code cs cs' rest rest' text u v : List Char} {c e x : Char} {s : String}

theorem isBare_of_not (notQuote : c ≠ '"') (h : ¬(c = '\\' ∨ c.toNat < 0x20)) : IsBare c :=
  ⟨notQuote, fun eq => h (.inl eq), Nat.le_of_not_lt fun lt => h (.inr lt)⟩

theorem escaped?_ne_u (value : escaped? e = some c) : e ≠ 'u' := by
  rintro rfl
  cases value

theorem readString_bare (isBare : IsBare c) (acc rest : List Char) :
    readString acc (c :: rest) = readString (c :: acc) rest := by
  have plain : ¬c.toNat < 0x20 := Nat.not_lt.mpr isBare.plain
  rw [readString]
  · simp [isBare.notBackslash, plain]
  · exact isBare.notQuote
  · rintro _ _ _ _ _ rfl
    exact absurd rfl isBare.notBackslash
  · rintro _ _ rfl
    exact absurd rfl isBare.notBackslash

theorem readString_letter (value : escaped? e = some c) (acc rest : List Char) :
    readString acc ('\\' :: e :: rest) = readString (c :: acc) rest := by
  rw [readString]
  · rw [value]
  · rintro _ _ _ _ _ rfl
    exact absurd rfl (escaped?_ne_u value)

theorem readString_escape (isEscape : Escape code c) (acc rest : List Char) :
    readString acc (code ++ rest) = readString (c :: acc) rest := by
  cases isEscape with
  | letter value => exact readString_letter value acc rest
  | code value notLow notHigh => simp [readString, value, notLow, notHigh]
  | pair value notLow isHigh value' isLow =>
    simp [readString, value, notLow, isHigh, value', isLow]

theorem Spells.readString (h : Spells body cs) (acc rest : List Char) :
    readString acc (body ++ '"' :: rest) = some (String.ofList (acc.reverse ++ cs), rest) := by
  induction h generalizing acc with
  | nil => simp [Token.readString]
  | bare isBare _ ih =>
    rw [List.cons_append, readString_bare isBare, ih]
    simp
  | escape isEscape _ ih =>
    rw [List.append_assoc, readString_escape isEscape, ih]
    simp

/-- What a string is read from, and what of it. -/
def Reads (acc text : List Char) (s : String) (rest : List Char) : Prop :=
  ∃ body cs, Spells body cs ∧ text = body ++ '"' :: rest ∧ s = String.ofList (acc.reverse ++ cs)

theorem Reads.bare (isBare : IsBare c) (h : Reads (c :: acc) text s rest) :
    Reads acc (c :: text) s rest := by
  obtain ⟨body, cs, spells, rfl, rfl⟩ := h
  exact ⟨c :: body, c :: cs, .bare isBare spells, rfl, by simp⟩

theorem Reads.escape (isEscape : Escape code c) (h : Reads (c :: acc) text s rest) :
    Reads acc (code ++ text) s rest := by
  obtain ⟨body, cs, spells, rfl, rfl⟩ := h
  exact ⟨code ++ body, c :: cs, .escape isEscape spells, by simp, by simp⟩

theorem reads_of_readString (h : readString acc text = some (s, rest)) :
    Reads acc text s rest := by
  fun_induction readString acc text with
  | case1 | case3 | case4 | case5 | case7 | case8 | case10 | case12 => cases h
  | case2 acc rest' =>
    cases h
    exact ⟨[], [], .nil, rfl, by simp⟩
  | case6 acc a b c d high value notLow isHigh a' b' c' d' rest' low value' isLow ih =>
    have notLow := Bool.eq_false_iff.mpr notLow
    exact (ih h).escape (.pair value notLow isHigh value' isLow)
  | case9 acc a b c d rest' n value notLow notHigh ih =>
    have notLow := Bool.eq_false_iff.mpr notLow
    have notHigh := Bool.eq_false_iff.mpr notHigh
    exact (ih h).escape (.code value notLow notHigh)
  | case11 acc e rest' _ c value ih => exact (ih h).escape (.letter value)
  | case13 acc c rest' notQuote _ _ plain ih =>
    exact (ih h).bare (isBare_of_not notQuote (by simpa using plain))

theorem readString_eq_some_iff :
    readString [] text = some (s, rest) ↔
      ∃ body cs, Spells body cs ∧ text = body ++ '"' :: rest ∧ s = String.ofList cs := by
  constructor
  · exact reads_of_readString
  · rintro ⟨body, cs, spells, rfl, rfl⟩
    exact spells.readString [] rest

theorem skipString_bare (isBare : IsBare c) (rest : List Char) :
    skipString (c :: rest) = skipString rest := by
  have plain : ¬c.toNat < 0x20 := Nat.not_lt.mpr isBare.plain
  rw [skipString]
  · simp [isBare.notBackslash, plain]
  · exact isBare.notQuote
  · rintro _ _ _ _ _ rfl
    exact absurd rfl isBare.notBackslash
  · rintro _ _ rfl
    exact absurd rfl isBare.notBackslash

theorem skipString_letter (value : (escaped? e).isSome) (rest : List Char) :
    skipString ('\\' :: e :: rest) = skipString rest := by
  rw [skipString]
  · rw [if_pos value]
  · rintro _ _ _ _ _ rfl
    cases value

theorem IsLiteral.skipString (h : IsLiteral body) (rest : List Char) :
    skipString (body ++ '"' :: rest) = some rest := by
  induction h with
  | nil => rw [List.nil_append, Loose.skipString]
  | bare isBare _ ih => rw [List.cons_append, skipString_bare isBare, ih]
  | letter value _ ih => rw [List.cons_append, List.cons_append, skipString_letter value, ih]
  | code value _ ih => simp [Loose.skipString, value, ih]

theorem exists_isLiteral (h : skipString text = some rest) :
    ∃ body, IsLiteral body ∧ text = body ++ '"' :: rest := by
  fun_induction skipString text with
  | case1 | case4 | case6 | case7 => cases h
  | case2 rest' =>
    cases h
    exact ⟨[], .nil, rfl⟩
  | case3 a b c d rest' value ih =>
    obtain ⟨body, isLiteral, rfl⟩ := ih h
    exact ⟨_, .code value isLiteral, rfl⟩
  | case5 e rest' _ value ih =>
    obtain ⟨body, isLiteral, rfl⟩ := ih h
    exact ⟨_, .letter value isLiteral, rfl⟩
  | case8 c rest' notQuote _ _ plain ih =>
    obtain ⟨body, isLiteral, rfl⟩ := ih h
    exact ⟨_, .bare (isBare_of_not notQuote (by simpa using plain)) isLiteral, rfl⟩

/-- The first quote that no backslash stands before ends a literal. -/
theorem IsLiteral.unique (h : IsLiteral body) (h' : IsLiteral body')
    (same : body ++ '"' :: rest = body' ++ '"' :: rest') : body = body' ∧ rest = rest' := by
  have ends := h.skipString rest
  rw [same, h'.skipString rest'] at ends
  cases ends
  exact ⟨List.append_cancel_right same, rfl⟩

theorem IsLiteral.append (h : IsLiteral body) (h' : IsLiteral body') : IsLiteral (body ++ body') := by
  induction h with
  | nil => exact h'
  | bare isBare _ ih => exact .bare isBare ih
  | letter value _ ih => exact .letter value ih
  | code value _ ih => exact .code value ih

theorem Escape.length_pos (h : Escape code c) : 0 < code.length := by
  cases h <;> exact Nat.succ_pos _

theorem Spells.eq_nil (h : Spells [] cs) : cs = [] := by
  generalize empty : [] = body at h
  cases h with
  | nil => rfl
  | bare => cases empty
  | escape isEscape _ =>
    have long := isEscape.length_pos
    rw [(List.append_eq_nil_iff.mp empty.symm).1] at long
    cases long

theorem Escape.isLiteral (h : Escape code c) : IsLiteral code := by
  cases h with
  | letter value => exact .letter (by simp [value]) .nil
  | code value _ _ => exact .code (by simp [value]) .nil
  | pair value _ _ value' _ => exact .code (by simp [value]) (.code (by simp [value']) .nil)

theorem Spells.isLiteral (h : Spells body cs) : IsLiteral body := by
  induction h with
  | nil => exact .nil
  | bare isBare _ ih => exact .bare isBare ih
  | escape isEscape _ ih => exact isEscape.isLiteral.append ih

theorem Spells.append (h : Spells body cs) (h' : Spells body' cs') :
    Spells (body ++ body') (cs ++ cs') := by
  induction h with
  | nil => exact h'
  | bare isBare _ ih => exact .bare isBare ih
  | escape isEscape _ ih =>
    rw [List.append_assoc]
    exact .escape isEscape ih

theorem spells_of_bare (h : ∀ c ∈ cs, IsBare c) : Spells cs cs := by
  induction cs with
  | nil => exact .nil
  | cons c cs ih =>
    obtain ⟨here, later⟩ := List.forall_mem_cons.mp h
    exact .bare here (ih later)

/-- Without backslashes a literal is the string that it spells. -/
theorem Spells.eq_of_no_backslash (h : Spells body cs) (apart : '\\' ∉ body) : cs = body := by
  induction h with
  | nil => rfl
  | bare _ _ ih => rw [ih fun mem => apart (List.mem_cons_of_mem _ mem)]
  | escape isEscape _ _ =>
    refine absurd (List.mem_append_left _ ?_) apart
    cases isEscape <;> exact List.mem_cons_self ..

/-- Each part of a string is spelled by a part of its literal. -/
theorem Spells.parts (h : Spells body (cs ++ cs')) :
    ∃ u v, body = u ++ v ∧ Spells u cs ∧ Spells v cs' := by
  induction cs generalizing body with
  | nil => exact ⟨[], body, rfl, .nil, h⟩
  | cons c cs ih =>
    cases h with
    | bare isBare rest =>
      obtain ⟨u, v, rfl, front, back⟩ := ih rest
      exact ⟨c :: u, v, rfl, .bare isBare front, back⟩
    | escape isEscape rest =>
      obtain ⟨u, v, rfl, front, back⟩ := ih rest
      exact ⟨_ ++ u, v, (List.append_assoc ..).symm, .escape isEscape front, back⟩

/-- A character that no escape is written with. -/
def InNoEscape (x : Char) : Prop := ∀ code c, Escape code c → x ∉ code

theorem hexValue?_of_hex4? {a b c d : Char} {n : Nat} (h : hex4? a b c d = some n) :
    ∀ x ∈ [a, b, c, d], hexValue? x ≠ none := by
  unfold hex4? at h
  obtain ⟨a', first, h⟩ := Option.bind_eq_some_iff.mp h
  obtain ⟨b', second, h⟩ := Option.bind_eq_some_iff.mp h
  obtain ⟨c', third, h⟩ := Option.bind_eq_some_iff.mp h
  obtain ⟨d', fourth, h⟩ := Option.bind_eq_some_iff.mp h
  simp [first, second, third, fourth]

theorem inNoEscape_of (notMark : x ≠ '\\' ∧ x ≠ 'u') (notLetter : escaped? x = none)
    (notDigit : hexValue? x = none) : InNoEscape x := by
  have notDigits {a b c d : Char} {n : Nat} (value : hex4? a b c d = some n) : x ∉ [a, b, c, d] :=
    fun mem => hexValue?_of_hex4? value x mem notDigit
  intro code c isEscape mem
  cases isEscape with
  | letter value =>
    rcases List.mem_cons.mp mem with rfl | mem
    · exact notMark.1 rfl
    · rw [List.mem_singleton.mp mem, value] at notLetter
      cases notLetter
  | code value _ _ =>
    have here := notDigits value
    simp_all
  | pair value _ _ value' _ =>
    have here := notDigits value
    have later := notDigits value'
    simp_all

/-- A character that no escape is written with divides a literal where it divides the string. -/
theorem Spells.split_at (apart : InNoEscape x) (h : Spells (u ++ x :: v) cs) :
    ∃ cu cv, cs = cu ++ x :: cv ∧ Spells u cu ∧ Spells v cv := by
  generalize whole : u ++ x :: v = body at h
  induction h generalizing u with
  | nil => simp at whole
  | @bare c body cs isBare rest ih =>
    cases u with
    | nil =>
      cases whole
      exact ⟨[], cs, rfl, .nil, rest⟩
    | cons d u =>
      obtain ⟨rfl, split⟩ := List.cons.inj whole
      obtain ⟨cu, cv, rfl, front, back⟩ := ih split
      exact ⟨d :: cu, cv, rfl, .bare isBare front, back⟩
  | @escape code body cs c isEscape rest ih =>
    rcases List.append_eq_append_iff.mp whole with ⟨w, rfl, split⟩ | ⟨u', rfl, split⟩
    · cases w with
      | nil =>
        obtain ⟨cu, cv, rfl, front, back⟩ := @ih [] split
        refine ⟨c :: cu, cv, rfl, ?_, back⟩
        simpa using Spells.escape isEscape front
      | cons d w =>
        obtain ⟨rfl, _⟩ := List.cons.inj split
        exact absurd (List.mem_append_right u (List.mem_cons_self ..)) (apart _ _ isEscape)
    · obtain ⟨cu, cv, rfl, front, back⟩ := ih split.symm
      exact ⟨c :: cu, cv, rfl, .escape isEscape front, back⟩

end CodeIntel.Json
