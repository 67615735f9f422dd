import CodeIntel.Proofs.Json.Rewriting
import CodeIntel.Proofs.Settings.Variables

namespace CodeIntel.Settings

open Json

/-- What a text is made of, if each reference is taken as a whole. -/
inductive Piece
  | char (c : Char)
  | reference (name : List Char)

theorem length_of_reference? {cs name behind : List Char} (h : reference? cs = some (name, behind)) :
    behind.length < cs.length := by
  obtain ⟨_, rfl⟩ := reference?_eq_some_iff.mp h
  rw [List.length_append, length_reference]
  omega

/-- A text taken apart from the first character on. -/
def pieces : List Char → List Piece
  | [] => []
  | c :: cs =>
    match _found : reference? (c :: cs) with
    | some (name, behind) => .reference name :: pieces behind
    | none => .char c :: pieces cs
termination_by cs => cs.length
decreasing_by
  · exact length_of_reference? _found
  · exact Nat.lt_succ_self _

def Piece.fill (value : List Char → List Char) : Piece → List Char
  | .char c => [c]
  | .reference name => value name

/-- A text with values in the stead of references. -/
def fill (value : List Char → List Char) (text : List Char) : List Char :=
  (pieces text).flatMap (Piece.fill value)

variable {text front back body name behind cs s u v : List Char} {c : Char}
  {value meaning : List Char → List Char}

@[simp]
theorem pieces_nil : pieces [] = [] := by rw [pieces]

theorem pieces_cons (none : reference? (c :: cs) = none) :
    pieces (c :: cs) = .char c :: pieces cs := by
  rw [pieces]
  split
  next found => rw [none] at found; cases found
  next => rfl

theorem reference_eq (name : List Char) :
    reference name = '\x7b' :: (['e', 'n', 'v', ':'] ++ name ++ ['\x7d']) := rfl

theorem pieces_reference (isName : IsName name) (behind : List Char) :
    pieces (reference name ++ behind) = .reference name :: pieces behind := by
  have found := reference?_reference isName behind
  rw [reference_eq, List.cons_append] at found ⊢
  rw [pieces]
  split
  next found' =>
    rw [found] at found'
    cases found'
    rfl
  next none => rw [found] at none; cases none

theorem reference?_cons_of_ne (ne : c ≠ '\x7b') (cs : List Char) : reference? (c :: cs) = none := by
  rw [reference?_eq_none_iff]
  rintro name behind _ eq
  rw [reference_eq] at eq
  exact ne (List.cons.inj eq).1

theorem pieces_skip (apart : '\x7b' ∉ front) (cs : List Char) :
    pieces (front ++ cs) = front.map .char ++ pieces cs := by
  induction front with
  | nil => rfl
  | cons c front ih =>
    obtain ⟨here, later⟩ := not_or.mp (mt List.mem_cons.mpr apart)
    rw [List.cons_append, pieces_cons (reference?_cons_of_ne (Ne.symm here) _), ih later]
    rfl

/-- Whether no reference begins in a text and ends behind it. -/
def EndsWithin (front back : List Char) : Prop :=
  ∀ u name behind, IsName name → front ++ back = u ++ reference name ++ behind →
    u.length < front.length → ∃ v, front = u ++ reference name ++ v

theorem EndsWithin.tail (h : EndsWithin (u ++ v) back) : EndsWithin v back := by
  intro u' name behind isName split starts
  have split' : u ++ v ++ back = u ++ u' ++ reference name ++ behind := by
    simpa using split
  obtain ⟨v', whole⟩ := h (u ++ u') name behind isName split' (by simp; omega)
  exact ⟨v', by simpa using whole⟩

theorem pieces_append (within : EndsWithin front back) :
    pieces (front ++ back) = pieces front ++ pieces back := by
  induction count : front.length using Nat.strongRecOn generalizing front with
  | ind n ih =>
    subst count
    cases front with
    | nil => simp
    | cons c front =>
      cases found : reference? (c :: front ++ back) with
      | some reference =>
        obtain ⟨name, behind⟩ := reference
        obtain ⟨isName, split⟩ := reference?_eq_some_iff.mp found
        obtain ⟨v, whole⟩ := within [] name behind isName split (Nat.succ_pos _)
        rw [List.nil_append] at whole
        rw [whole] at within ⊢
        have shorter : v.length < (c :: front).length := by
          rw [whole, List.length_append, length_reference]
          omega
        rw [List.append_assoc, pieces_reference isName, pieces_reference isName,
          ih _ shorter within.tail rfl]
        rfl
      | none =>
        have none' : reference? (c :: front) = none := by
          rw [reference?_eq_none_iff] at found ⊢
          rintro name behind isName eq
          exact found name (behind ++ back) isName (by rw [eq, List.append_assoc])
        rw [List.cons_append] at found ⊢
        have within' : EndsWithin front back := EndsWithin.tail (u := [c]) within
        rw [pieces_cons found, pieces_cons none', ih _ (Nat.lt_succ_self _) within' rfl]
        rfl

/-- A text without references is made of its characters. -/
theorem pieces_of_none (none : ∀ before name behind, IsName name →
    text ≠ before ++ reference name ++ behind) : pieces text = text.map .char := by
  induction text with
  | nil => simp
  | cons c cs ih =>
    have here : reference? (c :: cs) = Option.none :=
      reference?_eq_none_iff.mpr fun name behind => none [] name behind
    rw [pieces_cons here, ih fun before name behind isName eq =>
      none (c :: before) name behind isName (congrArg (c :: ·) eq)]
    rfl

theorem IsFirst.pieces {before : List Char} (h : IsFirst text before name behind) :
    pieces text = before.map .char ++ .reference name :: Settings.pieces behind := by
  induction before generalizing text with
  | nil =>
    rw [h.split, List.nil_append]
    exact pieces_reference h.isName behind
  | cons c before ih =>
    have later : IsFirst (before ++ reference name ++ behind) before name behind := by
      refine ⟨h.isName, rfl, fun before' name' behind' isName' split => ?_⟩
      have first := h.first (c :: before') name' behind' isName' (by rw [h.split]; simp [← split])
      exact Nat.le_of_succ_le_succ first
    have none : reference? (c :: (before ++ reference name ++ behind)) = none := by
      refine reference?_eq_none_iff.mpr fun name' behind' isName' split => ?_
      have first := h.first [] name' behind' isName' (by rw [h.split]; simpa using split)
      exact absurd first (Nat.not_succ_le_zero _)
    rw [h.split, List.cons_append, List.cons_append, pieces_cons none, ih later]
    rfl

/-- The pieces of a text are its parts. -/
theorem Cut.pieces {parts : List Part} {tail : List Char} (cut : Cut text parts tail) :
    pieces text = parts.flatMap (fun part => part.gap.map .char ++ [.reference part.name]) ++
      tail.map .char := by
  induction cut with
  | rest none => exact pieces_of_none none
  | part first _ ih =>
    rw [first.pieces, ih]
    simp

theorem fill_chars (cs : List Char) : (cs.map Piece.char).flatMap (Piece.fill value) = cs := by
  induction cs with
  | nil => rfl
  | cons c cs ih => rw [List.map_cons, List.flatMap_cons, ih]; rfl

@[simp]
theorem fill_nil : fill value [] = [] := by simp [fill]

theorem fill_cons (none : reference? (c :: cs) = none) :
    fill value (c :: cs) = c :: fill value cs := by
  rw [fill, pieces_cons none]
  rfl

theorem fill_reference (isName : IsName name) (behind : List Char) :
    fill value (reference name ++ behind) = value name ++ fill value behind := by
  rw [fill, pieces_reference isName]
  rfl

theorem fill_skip (apart : '\x7b' ∉ front) (cs : List Char) :
    fill value (front ++ cs) = front ++ fill value cs := by
  rw [fill, pieces_skip apart, List.flatMap_append, fill_chars]
  rfl

theorem fill_append (within : EndsWithin front back) :
    fill value (front ++ back) = fill value front ++ fill value back := by
  rw [fill, pieces_append within, List.flatMap_append]
  rfl

theorem fill_of_none (none : ∀ before name behind, IsName name →
    text ≠ before ++ reference name ++ behind) : fill value text = text := by
  rw [fill, pieces_of_none none, fill_chars]

theorem Cut.fill {parts : List Part} {tail : List Char} (cut : Cut text parts tail) :
    fill value text = parts.flatMap (fun part => part.gap ++ value part.name) ++ tail := by
  rw [Settings.fill, cut.pieces, List.flatMap_append, fill_chars, List.flatMap_assoc]
  simp [fill_chars, Piece.fill]

theorem inNoEscape_opening : InNoEscape '\x7b' :=
  inNoEscape_of (by decide) (by decide) (by decide)

theorem inNoEscape_closing : InNoEscape '\x7d' :=
  inNoEscape_of (by decide) (by decide) (by decide)

/-- A reference begins and ends with characters that are in no escape. -/
theorem spells_reference (h : Spells (u ++ reference name ++ v) s) : ∃ cu cr cv,
    s = cu ++ cr ++ cv ∧ Spells u cu ∧ Spells (reference name) cr ∧ Spells v cv := by
  have whole : u ++ reference name ++ v =
      u ++ '\x7b' :: (['e', 'n', 'v', ':'] ++ name ++ '\x7d' :: v) := by
    simp [reference_eq]
  rw [whole] at h
  obtain ⟨cu, rest, rfl, front, h⟩ := h.split_at inNoEscape_opening
  obtain ⟨cn, cv, rfl, middle, back⟩ := h.split_at inNoEscape_closing
  have closed := middle.append (Spells.bare (c := '\x7d') (by decide) .nil)
  refine ⟨cu, '\x7b' :: (cn ++ ['\x7d']), cv, by simp, front, ?_, back⟩
  exact .bare (by decide) closed

/-- A text that ends outside of strings. -/
inductive Closed : List Char → Prop
  | nil : Closed []
  | other {c : Char} {cs : List Char} (notQuote : c ≠ '"') (rest : Closed cs) : Closed (c :: cs)
  | literal {body cs : List Char} (isLiteral : IsLiteral body) (rest : Closed cs) :
      Closed ('"' :: (body ++ '"' :: cs))

/-- A literal with no escape in a reference, neither in one that is written nor in one that is
spelled. -/
def Unescaped (body : List Char) : Prop :=
  ∀ u r v cu cr cv, body = u ++ r ++ v → Spells u cu → Spells r cr → Spells v cv →
    (∃ name, IsName name ∧ (r = reference name ∨ cr = reference name)) → r = cr

/-- A text whose references all stand in strings, as they are. -/
structure Tidy (text : List Char) : Prop where
  inside : ∀ before name behind, IsName name → text = before ++ reference name ++ behind →
    ∃ front u v back s, Closed front ∧ Spells (u ++ reference name ++ v) s ∧
      before = front ++ '"' :: u ∧ behind = v ++ '"' :: back
  unescaped : ∀ front body back, Closed front → text = front ++ '"' :: (body ++ '"' :: back) →
    Unescaped body

variable {before x : List Char}

theorem Unescaped.tail (h : Unescaped (front ++ body)) (spells : Spells front s) :
    Unescaped body := by
  rintro u r v cu cr cv rfl spells_u spells_r spells_v ref
  exact h (front ++ u) r v _ cr cv (by simp) (spells.append spells_u) spells_r spells_v ref

theorem unescaped_of_no_backslash (apart : '\\' ∉ body) : Unescaped body := by
  rintro u r v cu cr cv rfl _ spells_r _ _
  refine (spells_r.eq_of_no_backslash fun mem => apart ?_).symm
  exact List.mem_append_left v (List.mem_append_right u mem)

/-- A string begins with a reference only where its literal does. -/
theorem Unescaped.reference?_eq_none (unescaped : Unescaped body) (spells : Spells body s)
    (none : reference? body = none) : reference? s = Option.none := by
  rw [reference?_eq_none_iff] at none ⊢
  rintro name behind isName rfl
  obtain ⟨r, v, rfl, spells_r, spells_v⟩ := spells.parts
  have same : r = reference name :=
    unescaped [] r v [] _ behind rfl .nil spells_r spells_v ⟨name, isName, .inr rfl⟩
  exact none name v isName (congrArg (· ++ v) same)

/-- Filling a literal fills the string that it spells. -/
theorem Unescaped.spells_fill (unescaped : Unescaped body) (spells : Spells body s)
    (values : ∀ name, .reference name ∈ pieces body → Spells (value name) (meaning name)) :
    Spells (fill value body) (fill meaning s) := by
  induction count : body.length using Nat.strongRecOn generalizing body s with
  | ind n ih =>
    subst count
    cases found : reference? body with
    | some reference =>
      obtain ⟨name, behind⟩ := reference
      obtain ⟨isName, rfl⟩ := reference?_eq_some_iff.mp found
      have shorter : behind.length < (Settings.reference name ++ behind).length :=
        length_of_reference? found
      obtain ⟨cu, cr, cv, rfl, spells_u, spells_r, spells_v⟩ : ∃ cu cr cv, s = cu ++ cr ++ cv ∧
          Spells [] cu ∧ Spells (Settings.reference name) cr ∧ Spells behind cv :=
        spells_reference spells
      have same : Settings.reference name = cr :=
        unescaped [] _ behind cu cr cv rfl spells_u spells_r spells_v ⟨name, isName, .inl rfl⟩
      rw [pieces_reference isName] at values
      obtain ⟨here, later⟩ : Spells (value name) (meaning name) ∧ _ :=
        ⟨values name (List.mem_cons_self ..), fun name mem => values name (List.mem_cons_of_mem _ mem)⟩
      have rest := ih _ shorter (unescaped.tail spells_r) spells_v later rfl
      rw [spells_u.eq_nil, List.nil_append, ← same, fill_reference isName, fill_reference isName]
      exact here.append rest
    | none =>
      have none := unescaped.reference?_eq_none spells found
      cases spells with
      | nil =>
        rw [fill_nil, fill_nil]
        exact .nil
      | @bare c body s isBare spells_rest =>
        have unescaped' : Unescaped ([c] ++ body) := unescaped
        have spells_c : Spells [c] [c] := .bare isBare .nil
        rw [pieces_cons found] at values
        rw [fill_cons found, fill_cons none]
        refine .bare isBare (ih _ (Nat.lt_succ_self _) (unescaped'.tail spells_c) spells_rest ?_ rfl)
        exact fun name mem => values name (List.mem_cons_of_mem _ mem)
      | @escape code body s c isEscape spells_rest =>
        have apart : '\x7b' ∉ code := inNoEscape_opening code c isEscape
        have shorter : body.length < (code ++ body).length := by
          have long := isEscape.length_pos
          rw [List.length_append]
          omega
        have spells_code : Spells (code ++ []) [c] := .escape isEscape .nil
        rw [List.append_nil] at spells_code
        rw [pieces_skip apart] at values
        rw [fill_skip apart, fill_cons none]
        refine .escape isEscape (ih _ shorter (unescaped.tail spells_code) spells_rest ?_ rfl)
        exact fun name mem => values name (List.mem_append_right _ mem)

/-- A text that ends outside of strings, with a quote behind it, and begins with a whole string: it
is empty, or it has that string as a whole. -/
theorem Closed.of_literal (closed : Closed front) (isLiteral : IsLiteral body)
    (eq : '"' :: (body ++ '"' :: back) = front ++ '"' :: x) :
    (front = [] ∧ x = body ++ '"' :: back) ∨
      ∃ front', Closed front' ∧ front = '"' :: (body ++ '"' :: front') ∧ back = front' ++ '"' :: x := by
  cases closed with
  | nil => exact .inl ⟨rfl, (List.cons.inj eq).2.symm⟩
  | other notQuote _ => exact absurd (List.cons.inj eq).1.symm notQuote
  | @literal body' front' isLiteral' rest =>
    have split : body ++ '"' :: back = body' ++ '"' :: (front' ++ '"' :: x) := by
      simpa using (List.cons.inj eq).2
    obtain ⟨rfl, rfl⟩ := isLiteral.unique isLiteral' split
    exact .inr ⟨front', rest, rfl, rfl⟩

theorem Tidy.reference?_eq_none (tidy : Tidy text) : reference? text = none := by
  rw [reference?_eq_none_iff]
  rintro name behind isName split
  obtain ⟨front, u, _, _, _, _, _, empty, _⟩ := tidy.inside [] name behind isName split
  simp at empty

theorem Tidy.of_other (tidy : Tidy (c :: cs)) (notQuote : c ≠ '"') : Tidy cs where
  inside := by
    rintro before name behind isName rfl
    obtain ⟨front, u, v, back, s, closed, spells, eq, rfl⟩ :=
      tidy.inside (c :: before) name behind isName rfl
    cases closed with
    | nil => exact absurd (List.cons.inj eq).1 notQuote
    | other _ rest =>
      obtain ⟨_, rfl⟩ := List.cons.inj eq
      exact ⟨_, u, v, back, s, rest, spells, rfl, rfl⟩
    | literal _ _ => exact absurd (List.cons.inj eq).1 notQuote
  unescaped := by
    rintro front body back closed rfl
    exact tidy.unescaped (c :: front) body back (.other notQuote closed) rfl

/-- Where a reference stands in a text that begins with a string. -/
theorem Tidy.inside_literal (tidy : Tidy ('"' :: (body ++ '"' :: back))) (isLiteral : IsLiteral body)
    (isName : IsName name)
    (split : '"' :: (body ++ '"' :: back) = before ++ reference name ++ behind) :
    (∃ u v s, before = '"' :: u ∧ body = u ++ reference name ++ v ∧ Spells body s) ∨
      ∃ front u v back' s, Closed front ∧ Spells (u ++ reference name ++ v) s ∧
        before = '"' :: (body ++ '"' :: (front ++ '"' :: u)) ∧ behind = v ++ '"' :: back' := by
  obtain ⟨front, u, v, back', s, closed, spells, rfl, rfl⟩ :=
    tidy.inside before name behind isName split
  have split' : '"' :: (body ++ '"' :: back) =
      front ++ '"' :: (u ++ reference name ++ v ++ '"' :: back') := by
    simpa using split
  rcases closed.of_literal isLiteral split' with ⟨rfl, eq⟩ | ⟨front', closed', rfl, rfl⟩
  · obtain ⟨rfl, _⟩ := spells.isLiteral.unique isLiteral eq
    exact .inl ⟨u, v, s, rfl, rfl, spells⟩
  · exact .inr ⟨front', u, v, back', s, closed', spells, by simp, rfl⟩

theorem Tidy.inside_body (tidy : Tidy ('"' :: (body ++ '"' :: back))) (isLiteral : IsLiteral body)
    (isName : IsName name) (split : body ++ '"' :: back = u ++ reference name ++ behind)
    (starts : u.length < body.length) :
    ∃ v s, body = u ++ reference name ++ v ∧ Spells body s := by
  have split' : '"' :: (body ++ '"' :: back) = '"' :: u ++ reference name ++ behind := by
    simpa using split
  rcases tidy.inside_literal isLiteral isName split' with
    ⟨u', v, s, eq, whole, spells⟩ | ⟨_, _, _, _, _, _, _, eq, _⟩
  · cases eq
    exact ⟨v, s, whole, spells⟩
  · -- a later string begins behind this one
    rw [(List.cons.inj eq).2, List.length_append] at starts
    omega

theorem Tidy.endsWithin (tidy : Tidy ('"' :: (body ++ '"' :: back))) (isLiteral : IsLiteral body) :
    EndsWithin body ('"' :: back) := by
  intro u name behind isName split starts
  obtain ⟨v, _, whole, _⟩ := tidy.inside_body isLiteral isName split starts
  exact ⟨v, whole⟩

theorem Tidy.exists_spells (tidy : Tidy ('"' :: (body ++ '"' :: back))) (isLiteral : IsLiteral body)
    (isName : IsName name) (eq : body = u ++ reference name ++ v) : ∃ s, Spells body s := by
  have split : body ++ '"' :: back = u ++ reference name ++ (v ++ '"' :: back) := by
    simp [eq]
  have starts : u.length < body.length := by
    rw [eq, List.length_append, List.length_append, length_reference]
    omega
  obtain ⟨_, s, _, spells⟩ := tidy.inside_body isLiteral isName split starts
  exact ⟨s, spells⟩

theorem Tidy.of_literal (tidy : Tidy ('"' :: (body ++ '"' :: back))) (isLiteral : IsLiteral body) :
    Tidy back where
  inside := by
    rintro before name behind isName rfl
    have split : '"' :: (body ++ '"' :: (before ++ reference name ++ behind)) =
        '"' :: (body ++ '"' :: before) ++ reference name ++ behind := by
      simp
    rcases tidy.inside_literal isLiteral isName split with
      ⟨u, v, _, eq, whole, _⟩ | ⟨front, u, v, back', s, closed, spells, eq, rfl⟩
    · have long := congrArg List.length whole
      rw [← (List.cons.inj eq).2] at long
      simp at long
    · have eq := List.append_cancel_left (List.cons.inj eq).2
      exact ⟨front, u, v, back', s, closed, spells, (List.cons.inj eq).2, rfl⟩
  unescaped := by
    rintro front body' back' closed rfl
    exact tidy.unescaped ('"' :: (body ++ '"' :: front)) body' back' (.literal isLiteral closed)
      (by simp)

/-- In a text with a quote that begins no string, no reference stands behind it. -/
theorem Tidy.none_of_endless (tidy : Tidy ('"' :: cs)) (endless : Loose.skipString cs = none) :
    ∀ before name behind, IsName name → '"' :: cs ≠ before ++ reference name ++ behind := by
  intro before name behind isName split
  obtain ⟨front, u, v, back, s, closed, spells, rfl, rfl⟩ :=
    tidy.inside before name behind isName split
  have no {body back : List Char} (isLiteral : IsLiteral body) : cs ≠ body ++ '"' :: back := by
    rintro rfl
    rw [isLiteral.skipString] at endless
    cases endless
  cases closed with
  | nil => exact no spells.isLiteral (by simpa using (List.cons.inj split).2)
  | other notQuote _ => exact notQuote (List.cons.inj split).1.symm
  | literal isLiteral _ => exact no isLiteral (by simpa using (List.cons.inj split).2)

/-- Filling a text fills its strings. -/
theorem Tidy.rewrites (tidy : Tidy text)
    (values : ∀ name, .reference name ∈ pieces text → Spells (value name) (meaning name)) :
    Loose.Rewrites (fill meaning) text (fill value text) := by
  induction count : text.length using Nat.strongRecOn generalizing text with
  | ind n ih =>
    subst count
    cases text with
    | nil =>
      rw [fill_nil]
      exact .nil
    | cons c cs =>
      by_cases quote : c = '"'
      · subst quote
        cases ends : Loose.skipString cs with
        | none =>
          rw [fill_of_none (tidy.none_of_endless ends)]
          exact .broken ends
        | some back =>
          obtain ⟨body, isLiteral, rfl⟩ := exists_isLiteral ends
          have within := tidy.endsWithin isLiteral
          have opening : reference? ('"' :: (body ++ '"' :: back)) = none := tidy.reference?_eq_none
          have closing : reference? ('"' :: back) = none := reference?_cons_of_ne (by decide) back
          rw [pieces_cons opening, pieces_append within, pieces_cons closing] at values
          rw [fill_cons opening, fill_append within, fill_cons closing]
          have rest : Loose.Rewrites (fill meaning) back (fill value back) := by
            refine ih back.length ?_ (tidy.of_literal isLiteral) ?_ rfl
            · simp
              omega
            · intro name mem
              exact values name
                (List.mem_cons_of_mem _ (List.mem_append_right _ (List.mem_cons_of_mem _ mem)))
          have unescaped : Unescaped body := tidy.unescaped [] body back .nil rfl
          by_cases spelled : ∃ s, Spells body s
          · obtain ⟨s, spells⟩ := spelled
            have spells' : Spells (fill value body) (fill meaning s) := by
              refine unescaped.spells_fill spells fun name mem => values name ?_
              exact List.mem_cons_of_mem _ (List.mem_append_left _ mem)
            exact .string spells spells' rest
          · have valueless : ∀ s, ¬Spells body s := fun s spells => spelled ⟨s, spells⟩
            have none : ∀ u name v, IsName name → body ≠ u ++ reference name ++ v :=
              fun u name v isName eq => spelled (tidy.exists_spells isLiteral isName eq)
            rw [fill_of_none none]
            exact .valueless isLiteral valueless rest
      · have none := tidy.reference?_eq_none
        rw [pieces_cons none] at values
        rw [fill_cons none]
        refine .other quote (ih cs.length (Nat.lt_succ_self _) (tidy.of_other quote) ?_ rfl)
        exact fun name mem => values name (List.mem_cons_of_mem _ mem)

end CodeIntel.Settings
