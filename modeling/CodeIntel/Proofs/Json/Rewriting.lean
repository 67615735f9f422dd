import CodeIntel.Proofs.Json.Delimited
import CodeIntel.Proofs.Json.Texts

namespace CodeIntel.Json.Loose

open Token (isSpace readString)

/-- The tokens of a text. -/
def tokens (cs : List Char) : Option (List Token) := tokensFrom readToken cs.length [] cs

variable {acc : List Token} {c : Char} {cs cs' front more more' rest text text' : List Char}
  {fuel fuel' : Nat}

theorem tokensFrom_acc (fuel : Nat) (acc : List Token) (cs : List Char) :
    tokensFrom readToken fuel acc cs =
      (tokensFrom readToken fuel [] cs).map (acc.reverse ++ ·) := by
  induction fuel generalizing acc cs with
  | zero => cases cs <;> simp [tokensFrom]
  | succ fuel ih =>
    cases cs with
    | nil => simp [tokensFrom]
    | cons c cs =>
      rw [tokensFrom, tokensFrom]
      split
      · exact ih acc cs
      cases readToken (c :: cs) with
      | none => rfl
      | some found =>
        simp only
        rw [ih (found.1 :: acc), ih [found.1], Option.map_map]
        simp [Function.comp_def]

theorem tokensFrom_fuel (enough : cs.length ≤ fuel) (enough' : cs.length ≤ fuel') :
    tokensFrom readToken fuel acc cs = tokensFrom readToken fuel' acc cs := by
  induction fuel generalizing fuel' acc cs with
  | zero =>
    rw [List.eq_nil_of_length_eq_zero (Nat.le_zero.mp enough)]
    cases fuel' <;> rfl
  | succ fuel ih =>
    cases cs with
    | nil => cases fuel' <;> rfl
    | cons c cs =>
      obtain ⟨fuel', rfl⟩ : ∃ n, fuel' = n + 1 := ⟨fuel' - 1, by simp at enough'; omega⟩
      have enough := Nat.le_of_succ_le_succ enough
      have enough' := Nat.le_of_succ_le_succ enough'
      rw [tokensFrom, tokensFrom]
      split
      · exact ih enough enough'
      cases found : readToken (c :: cs) with
      | none => rfl
      | some found' =>
        have shorter : found'.2.length ≤ cs.length := (readToken_suffix found).length_le
        exact ih (Nat.le_trans shorter enough) (Nat.le_trans shorter enough')

theorem tokens_space (space : isSpace c = true) (cs : List Char) :
    tokens (c :: cs) = tokens cs := by
  rw [tokens, List.length_cons, tokensFrom, if_pos space]
  rfl

theorem tokens_cons (notSpace : isSpace c = false) (cs : List Char) :
    tokens (c :: cs) =
      (readToken (c :: cs)).bind fun (token, rest) => (tokens rest).map (token :: ·) := by
  rw [tokens, List.length_cons, tokensFrom, if_neg (by simp [notSpace])]
  cases found : readToken (c :: cs) with
  | none => rfl
  | some found' =>
    obtain ⟨token, rest⟩ := found'
    have shorter := (readToken_suffix found).length_le
    have same : tokensFrom readToken cs.length [] rest = tokens rest :=
      tokensFrom_fuel shorter (Nat.le_refl rest.length)
    simp only [Option.bind_some]
    rw [tokensFrom_acc, same]
    rfl

theorem length_tokens {found : List Token} (h : tokens cs = some found) :
    found.length ≤ cs.length := by
  induction count : cs.length using Nat.strongRecOn generalizing cs found with
  | ind n ih =>
    subst count
    cases cs with
    | nil =>
      cases h
      exact Nat.le_refl _
    | cons c cs =>
      cases space : isSpace c with
      | true =>
        rw [tokens_space space] at h
        exact Nat.le_succ_of_le (ih cs.length (Nat.lt_succ_self _) h rfl)
      | false =>
        rw [tokens_cons space] at h
        obtain ⟨⟨token, rest⟩, read, h⟩ := Option.bind_eq_some_iff.mp h
        obtain ⟨later, behind, rfl⟩ := Option.map_eq_some_iff.mp h
        have shorter : rest.length ≤ cs.length := (readToken_suffix read).length_le
        have fewer := ih rest.length (Nat.lt_succ_of_le shorter) behind rfl
        exact Nat.succ_le_succ (Nat.le_trans fewer shorter)

/-- Texts that differ between the quotes of strings only, each string of the second being what `f`
makes of the string of the first. -/
inductive Rewrites (f : List Char → List Char) : List Char → List Char → Prop
  | nil : Rewrites f [] []
  | other {c : Char} {cs cs' : List Char} (notQuote : c ≠ '"') (rest : Rewrites f cs cs') :
      Rewrites f (c :: cs) (c :: cs')
  | string {body body' s cs cs' : List Char} (spells : Spells body s) (spells' : Spells body' (f s))
      (rest : Rewrites f cs cs') :
      Rewrites f ('"' :: (body ++ '"' :: cs)) ('"' :: (body' ++ '"' :: cs'))
  | valueless {body cs cs' : List Char} (isLiteral : IsLiteral body)
      (valueless : ∀ s, ¬Spells body s) (rest : Rewrites f cs cs') :
      Rewrites f ('"' :: (body ++ '"' :: cs)) ('"' :: (body ++ '"' :: cs'))
  /-- A quote that begins no string. -/
  | broken {cs : List Char} (endless : skipString cs = none) : Rewrites f ('"' :: cs) ('"' :: cs)

/-- What is made of the characters of a string. -/
def onString (f : List Char → List Char) (s : String) : String := String.ofList (f s.toList)

variable {f : List Char → List Char} {body s : List Char}

theorem rewrites_of_no_quote (apart : '"' ∉ text) : Rewrites f text text := by
  induction text with
  | nil => exact .nil
  | cons c cs ih =>
    obtain ⟨here, later⟩ := not_or.mp (mt List.mem_cons.mpr apart)
    exact .other (Ne.symm here) (ih later)

theorem Rewrites.prepend (apart : '"' ∉ front) (h : Rewrites f text text') :
    Rewrites f (front ++ text) (front ++ text') := by
  induction front with
  | nil => exact h
  | cons c front ih =>
    obtain ⟨here, later⟩ := not_or.mp (mt List.mem_cons.mpr apart)
    exact .other (Ne.symm here) (ih later)

/-- Such texts are the same up to the first quote. -/
theorem Rewrites.split (h : Rewrites f text text') :
    ('"' ∉ text ∧ text' = text) ∨
      ∃ front more more', '"' ∉ front ∧ text = front ++ '"' :: more ∧
        text' = front ++ '"' :: more' ∧ Rewrites f ('"' :: more) ('"' :: more') := by
  induction h with
  | nil => exact .inl ⟨List.not_mem_nil, rfl⟩
  | @other c cs cs' notQuote _ ih =>
    rcases ih with ⟨apart, rfl⟩ | ⟨front, more, more', apart, rfl, rfl, later⟩
    · exact .inl ⟨List.not_mem_cons_of_ne_of_not_mem (Ne.symm notQuote) apart, rfl⟩
    · exact .inr ⟨c :: front, more, more', List.not_mem_cons_of_ne_of_not_mem (Ne.symm notQuote) apart, rfl, rfl,
        later⟩
  | string spells spells' rest =>
    exact .inr ⟨[], _, _, List.not_mem_nil, rfl, rfl, .string spells spells' rest⟩
  | valueless isLiteral none rest =>
    exact .inr ⟨[], _, _, List.not_mem_nil, rfl, rfl, .valueless isLiteral none rest⟩
  | broken endless => exact .inr ⟨[], _, _, List.not_mem_nil, rfl, rfl, .broken endless⟩

theorem readToken_string (spells : Spells body s) (rest : List Char) :
    readToken ('"' :: (body ++ '"' :: rest)) = some (.string (String.ofList s), rest) := by
  rw [readToken, Token.read, spells.readString]
  rfl

theorem readString_valueless (isLiteral : IsLiteral body) (valueless : ∀ s, ¬Spells body s)
    (rest : List Char) : readString [] (body ++ '"' :: rest) = none := by
  rw [Option.eq_none_iff_forall_ne_some]
  rintro ⟨s, left⟩ read
  obtain ⟨body', cs, spells, same, _⟩ := readString_eq_some_iff.mp read
  obtain ⟨rfl, _⟩ := isLiteral.unique spells.isLiteral same
  exact valueless cs spells

theorem readToken_valueless (isLiteral : IsLiteral body) (valueless : ∀ s, ¬Spells body s)
    (rest : List Char) : readToken ('"' :: (body ++ '"' :: rest)) = some (.valueless, rest) := by
  rw [readToken, Token.read, readString_valueless isLiteral valueless, isLiteral.skipString]
  rfl

theorem readToken_broken (endless : skipString cs = none) : readToken ('"' :: cs) = none := by
  have none : readString [] cs = none := by
    rw [Option.eq_none_iff_forall_ne_some]
    rintro ⟨s, left⟩ read
    obtain ⟨body, _, spells, rfl, _⟩ := readString_eq_some_iff.mp read
    rw [spells.isLiteral.skipString] at endless
    cases endless
  rw [readToken, Token.read, none, endless]
  rfl

/-- The token that a text starts with, and the one that the other text starts with. -/
def Starts (f : List Char → List Char) (text text' : List Char) : Prop :=
  (readToken text = none ∧ readToken text' = none) ∨
    ∃ token rest rest', readToken text = some (token, rest) ∧
      readToken text' = some (token.mapText (onString f), rest') ∧ Rewrites f rest rest'

theorem mapText_of_ne_string {token : Token} (h : ∀ s, token ≠ .string s)
    (g : String → String) : token.mapText g = token := by
  cases token with
  | string s => exact absurd rfl (h s)
  | _ => rfl

theorem Rewrites.starts_other (notQuote : c ≠ '"') (h : Rewrites f (c :: cs) text') :
    Starts f (c :: cs) text' := by
  have text_same {token : Token} {rest more : List Char}
      (read : readToken (c :: more) = some (token, rest)) :
      token.mapText (onString f) = token :=
    mapText_of_ne_string (readToken_ne_string notQuote read) _
  rcases h.split with ⟨apart, rfl⟩ | ⟨front, more, more', apart, eq, rfl, later⟩
  · cases read : readToken (c :: cs) with
    | none => exact .inl ⟨read, read⟩
    | some found =>
      obtain ⟨token, rest⟩ := found
      have rest_apart : '"' ∉ rest := fun mem =>
        apart (List.mem_cons_of_mem c ((readToken_suffix read).mem mem))
      refine .inr ⟨token, rest, rest, read, ?_, rewrites_of_no_quote rest_apart⟩
      rw [read, text_same read]
  · cases front with
    | nil => exact absurd (List.cons.inj eq).1 notQuote
    | cons d front =>
      obtain ⟨rfl, rfl⟩ := List.cons.inj eq
      have reads (more : List Char) := readToken_quote notQuote front more
      cases read : readToken (c :: front) with
      | none =>
        refine .inl ⟨?_, ?_⟩
        · exact (reads more).trans (by rw [read]; rfl)
        · exact (reads more').trans (by rw [read]; rfl)
      | some found =>
        obtain ⟨token, rest⟩ := found
        have rest_apart : '"' ∉ rest := fun mem =>
          apart (List.mem_cons_of_mem c ((readToken_suffix read).mem mem))
        refine .inr ⟨token, rest ++ '"' :: more, rest ++ '"' :: more', ?_, ?_, later.prepend rest_apart⟩
        · exact (reads more).trans (by rw [read]; rfl)
        · rw [text_same read]
          exact (reads more').trans (by rw [read]; rfl)

theorem Rewrites.starts (h : Rewrites f (c :: cs) text') : Starts f (c :: cs) text' := by
  cases h with
  | other notQuote rest => exact starts_other notQuote (.other notQuote rest)
  | string spells spells' rest =>
    refine .inr ⟨_, _, _, readToken_string spells _, ?_, rest⟩
    rw [readToken_string spells']
    simp [Token.mapText, onString]
  | valueless isLiteral none rest =>
    exact .inr ⟨_, _, _, readToken_valueless isLiteral none _, readToken_valueless isLiteral none _,
      rest⟩
  | broken endless => exact .inl ⟨readToken_broken endless, readToken_broken endless⟩

theorem Rewrites.of_space (space : isSpace c = true) (h : Rewrites f (c :: cs) (c :: cs')) :
    Rewrites f cs cs' := by
  cases h with
  | other _ rest => exact rest
  | string _ _ _ => cases space
  | valueless _ _ _ => cases space
  | broken _ => cases space

theorem Rewrites.head (h : Rewrites f (c :: cs) text') : ∃ cs', text' = c :: cs' := by
  cases h <;> exact ⟨_, rfl⟩

/-- The tokens of such texts are the same but for the strings. -/
theorem Rewrites.tokens (h : Rewrites f text text') :
    Loose.tokens text' = (Loose.tokens text).map (List.map (Token.mapText (onString f))) := by
  induction count : text.length using Nat.strongRecOn generalizing text text' with
  | ind n ih =>
    subst count
    cases text with
    | nil =>
      cases h
      rfl
    | cons c cs =>
      obtain ⟨cs', rfl⟩ := h.head
      cases space : isSpace c with
      | true =>
        rw [tokens_space space, tokens_space space]
        exact ih cs.length (Nat.lt_succ_self _) (h.of_space space) rfl
      | false =>
        rw [tokens_cons space, tokens_cons space]
        rcases h.starts with ⟨none, none'⟩ | ⟨token, rest, rest', read, read', later⟩
        · rw [none, none']
          rfl
        · have shorter : rest.length ≤ cs.length := (readToken_suffix read).length_le
          rw [read, read']
          simp only [Option.bind_some]
          rw [ih rest.length (Nat.lt_succ_of_le shorter) later rfl, Option.map_map, Option.map_map]
          rfl

/-- A text whose strings are rewritten denotes the value with the strings rewritten. -/
theorem Rewrites.ofChars? (blank : f [] = []) {standIn : Json}
    (same : standIn.mapTexts (onString f) (onString f) = standIn) (h : Rewrites f text text') :
    Loose.ofChars? standIn text' =
      (Loose.ofChars? standIn text).map (mapTexts (onString f) (onString f)) := by
  have blank' : onString f "" = "" := by simp [onString, blank]
  change (Loose.tokens text').bind _ = ((Loose.tokens text).bind _).map _
  have tokens' := h.tokens
  cases found : Loose.tokens text with
  | none =>
    rw [found] at tokens'
    rw [tokens']
    rfl
  | some tokens =>
    rw [found] at tokens'
    rw [tokens']
    have room := length_tokens found
    have room' := length_tokens tokens'
    rw [List.length_map] at room'
    exact ofTokens?_mapText blank' same room room'

end CodeIntel.Json.Loose
