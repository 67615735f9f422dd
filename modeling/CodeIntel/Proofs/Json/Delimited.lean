import CodeIntel.Proofs.Json.Literals

namespace CodeIntel

variable {α : Type}

/-- What is read off a text is also read off it where a quote and more stand behind it. -/
def behindQuote (more : List Char) : Option (α × List Char) → Option (α × List Char) :=
  Option.map fun (a, rest) => (a, rest ++ '"' :: more)

theorem dropDigits_quote (cs more : List Char) :
    (cs ++ '"' :: more).dropWhile isDigit = cs.dropWhile isDigit ++ '"' :: more := by
  rw [List.dropWhile_append, List.dropWhile_cons_of_neg (by decide)]
  cases cs.dropWhile isDigit <;> rfl

theorem takeDigits_quote (cs more : List Char) :
    (cs ++ '"' :: more).takeWhile isDigit = cs.takeWhile isDigit := by
  induction cs with
  | nil => rfl
  | cons c cs ih => rw [List.cons_append, List.takeWhile_cons, List.takeWhile_cons, ih]

theorem headDigit_quote (cs more : List Char) :
    (cs ++ '"' :: more).head?.any isDigit = cs.head?.any isDigit := by
  cases cs <;> rfl

namespace Number

variable (negative : Bool) (significand : Nat) (exponent : Int) (cs more : List Char)

theorem wordDigits_quote (value taken : Nat) (cs more : List Char) :
    wordDigits value taken (cs ++ '"' :: more) =
      ⟨(wordDigits value taken cs).value, (wordDigits value taken cs).taken,
        (wordDigits value taken cs).rest ++ '"' :: more⟩ := by
  induction cs generalizing value taken with
  | nil => rfl
  | cons c cs ih =>
    rw [List.cons_append, wordDigits, wordDigits]
    simp only
    split
    · split
      · exact ih ..
      · rfl
    · rfl

theorem exponentDigits_quote (value : Nat) (cs more : List Char) :
    exponentDigits value (cs ++ '"' :: more) =
      ((exponentDigits value cs).1, (exponentDigits value cs).2 ++ '"' :: more) := by
  induction cs generalizing value with
  | nil => rfl
  | cons c cs ih =>
    rw [List.cons_append, exponentDigits, exponentDigits]
    simp only
    split
    · split
      · exact ih ..
      · rw [dropDigits_quote]
    · rfl

/-- Whether an exponent is negative, and the text behind its sign. -/
def exponentSign (cs : List Char) : Bool × List Char :=
  match cs with
  | '+' :: rest => (false, rest)
  | '-' :: rest => (true, rest)
  | _ => (false, cs)

/-- The number with an exponent that has been read. -/
def shifted (down : Bool) (shift : Option Nat) : Option Number :=
  match shift with
  | none => if significand ≠ 0 && !down then none else some (.float ⟨negative, 0, 0⟩)
  | some shift => ofScaled negative significand (if down then exponent - shift else exponent + shift)

theorem readExponent_eq : readExponent negative significand exponent cs =
    if (exponentSign cs).2.head?.any isDigit then
      (shifted negative significand exponent (exponentSign cs).1
        (exponentDigits 0 (exponentSign cs).2).1).map (·, (exponentDigits 0 (exponentSign cs).2).2)
    else none := by
  unfold readExponent
  -- what is done behind the sign is the same for each sign
  split
  next down behind eq =>
    have sign : exponentSign cs = (down, behind) := eq
    rw [sign]
    cases behind with
    | nil => rfl
    | cons c rest =>
      simp only [List.head?_cons, Option.any_some]
      congr 1
      rcases exponentDigits 0 (c :: rest) with ⟨_ | shift, rest⟩
      · simp only [shifted]
        split <;> rfl
      · exact Option.map_eq_bind.symm

theorem exponentSign_quote :
    exponentSign (cs ++ '"' :: more) =
      ((exponentSign cs).1, (exponentSign cs).2 ++ '"' :: more) := by
  cases cs with
  | nil => rfl
  | cons c cs =>
    by_cases plus : c = '+'
    · rw [plus]
      rfl
    by_cases minus : c = '-'
    · rw [minus]
      rfl
    simp [exponentSign, plus, minus]

theorem readExponent_quote : readExponent negative significand exponent (cs ++ '"' :: more) =
    behindQuote more (readExponent negative significand exponent cs) := by
  rw [readExponent_eq, readExponent_eq, exponentSign_quote]
  simp only [headDigit_quote, exponentDigits_quote]
  split
  · rw [behindQuote, Option.map_map]
    rfl
  · rfl

theorem behindQuote_map {β : Type} (found : Option β) (rest : List Char) :
    found.map (·, rest ++ '"' :: more) = behindQuote more (found.map (·, rest)) := by
  rw [behindQuote, Option.map_map]
  rfl

theorem readScale_quote : readScale negative significand exponent (cs ++ '"' :: more) =
    behindQuote more (readScale negative significand exponent cs) := by
  cases cs with
  | nil => exact behindQuote_map more _ []
  | cons c cs =>
    by_cases small : c = 'e'
    · rw [small]
      exact readExponent_quote ..
    by_cases great : c = 'E'
    · rw [great]
      exact readExponent_quote ..
    simpa [readScale, small, great] using behindQuote_map more _ (c :: cs)

theorem readFraction_quote : readFraction negative significand exponent (cs ++ '"' :: more) =
    behindQuote more (readFraction negative significand exponent cs) := by
  unfold readFraction
  simp only [wordDigits_quote, headDigit_quote, dropDigits_quote]
  split
  · rfl
  · exact readScale_quote ..

/-- What stands behind the whole part of a number, and the number with it. -/
def readBehind (value dropped : Nat) (cs : List Char) : Option (Number × List Char) :=
  match cs with
  | '.' :: fraction => readFraction negative value dropped fraction
  | 'e' :: exponent => readExponent negative value dropped exponent
  | 'E' :: exponent => readExponent negative value dropped exponent
  | _ =>
    if dropped = 0 then (ofWhole negative value).map (·, cs)
    else (ofScaled negative value dropped).map (·, cs)

theorem readBehind_quote (value dropped : Nat) :
    readBehind negative value dropped (cs ++ '"' :: more) =
      behindQuote more (readBehind negative value dropped cs) := by
  have ended (cs : List Char) :
      (if dropped = 0 then (ofWhole negative value).map (·, cs ++ '"' :: more)
        else (ofScaled negative value dropped).map (·, cs ++ '"' :: more)) =
      behindQuote more (if dropped = 0 then (ofWhole negative value).map (·, cs)
        else (ofScaled negative value dropped).map (·, cs)) := by
    split <;> exact behindQuote_map ..
  cases cs with
  | nil => exact ended []
  | cons c cs =>
    by_cases point : c = '.'
    · rw [point]
      exact readFraction_quote ..
    by_cases small : c = 'e'
    · rw [small]
      exact readExponent_quote ..
    by_cases great : c = 'E'
    · rw [great]
      exact readExponent_quote ..
    simpa [readBehind, point, small, great] using ended (c :: cs)

/-- The whole part of a number; a leading zero stands alone. -/
def wholeDigits (c : Char) (cs : List Char) : Run :=
  if c = '0' then ⟨0, 1, cs⟩ else wordDigits 0 0 (c :: cs)

theorem readUnsigned_cons (c : Char) : readUnsigned negative (c :: cs) =
    if !isDigit c then none
    else if c = '0' && ((wholeDigits c cs).rest.takeWhile isDigit).length ≠ 0 then none
    else readBehind negative (wholeDigits c cs).value
      ((wholeDigits c cs).rest.takeWhile isDigit).length
      ((wholeDigits c cs).rest.dropWhile isDigit) := rfl

theorem wholeDigits_quote (c : Char) : wholeDigits c (cs ++ '"' :: more) =
    ⟨(wholeDigits c cs).value, (wholeDigits c cs).taken, (wholeDigits c cs).rest ++ '"' :: more⟩ := by
  unfold wholeDigits
  split
  · rfl
  · exact wordDigits_quote 0 0 (c :: cs) more

theorem readUnsigned_quote : readUnsigned negative (cs ++ '"' :: more) =
    behindQuote more (readUnsigned negative cs) := by
  cases cs with
  | nil => rfl
  | cons c cs =>
    rw [List.cons_append, readUnsigned_cons, readUnsigned_cons]
    simp only [wholeDigits_quote, takeDigits_quote, dropDigits_quote]
    split
    · rfl
    split
    · rfl
    · exact readBehind_quote ..

theorem read_quote : read (cs ++ '"' :: more) = behindQuote more (read cs) := by
  cases cs with
  | nil => rfl
  | cons c cs =>
    by_cases minus : c = '-'
    · rw [minus]
      exact readUnsigned_quote ..
    simpa [read, minus] using readUnsigned_quote false (c :: cs) more

theorem wordDigits_suffix (value taken : Nat) (cs : List Char) :
    (wordDigits value taken cs).rest <:+ cs := by
  induction cs generalizing value taken with
  | nil => exact List.suffix_rfl
  | cons c cs ih =>
    rw [wordDigits]
    simp only
    split
    · split
      · exact (ih ..).trans (List.suffix_cons c cs)
      · exact List.suffix_rfl
    · exact List.suffix_rfl

theorem exponentDigits_suffix (value : Nat) (cs : List Char) :
    (exponentDigits value cs).2 <:+ cs := by
  induction cs generalizing value with
  | nil => exact List.suffix_rfl
  | cons c cs ih =>
    rw [exponentDigits]
    simp only
    split
    · split
      · exact (ih ..).trans (List.suffix_cons c cs)
      · exact (List.dropWhile_suffix isDigit).trans (List.suffix_cons c cs)
    · exact List.suffix_rfl

theorem exponentSign_suffix : (exponentSign cs).2 <:+ cs := by
  unfold exponentSign
  split
  · exact List.suffix_cons ..
  · exact List.suffix_cons ..
  · exact List.suffix_rfl

variable {negative significand exponent cs} {n : Number} {rest : List Char}

theorem suffix_of_map {found : Option Number} {left : List Char}
    (h : found.map (·, left) = some (n, rest)) : rest <:+ left := by
  obtain ⟨_, _, eq⟩ := Option.map_eq_some_iff.mp h
  cases eq
  exact List.suffix_rfl

theorem readExponent_suffix (h : readExponent negative significand exponent cs = some (n, rest)) :
    rest <:+ cs := by
  rw [readExponent_eq] at h
  split at h
  · exact (suffix_of_map h).trans <| (exponentDigits_suffix ..).trans (exponentSign_suffix cs)
  · cases h

theorem readScale_suffix (h : readScale negative significand exponent cs = some (n, rest)) :
    rest <:+ cs := by
  unfold readScale at h
  split at h
  · exact (readExponent_suffix h).trans (List.suffix_cons ..)
  · exact (readExponent_suffix h).trans (List.suffix_cons ..)
  · exact suffix_of_map h

theorem readFraction_suffix (h : readFraction negative significand exponent cs = some (n, rest)) :
    rest <:+ cs := by
  unfold readFraction at h
  simp only at h
  split at h
  · cases h
  · have digits := (List.dropWhile_suffix isDigit).trans (wordDigits_suffix significand 0 cs)
    exact (readScale_suffix h).trans digits

theorem readBehind_suffix {value dropped : Nat}
    (h : readBehind negative value dropped cs = some (n, rest)) : rest <:+ cs := by
  unfold readBehind at h
  split at h
  · exact (readFraction_suffix h).trans (List.suffix_cons ..)
  · exact (readExponent_suffix h).trans (List.suffix_cons ..)
  · exact (readExponent_suffix h).trans (List.suffix_cons ..)
  · split at h <;> exact suffix_of_map h

theorem wholeDigits_suffix {c : Char} (digit : isDigit c) (cs : List Char) :
    (wholeDigits c cs).rest <:+ cs := by
  have fits : 0 * 10 + digitValue c ≤ greatestWord := by
    have least : c.toNat ≤ '9'.toNat := by
      simp only [isDigit, Bool.and_eq_true, decide_eq_true_eq] at digit
      exact digit.2
    have greatest : greatestWord = 18446744073709551615 := rfl
    have nine : '9'.toNat = 57 := rfl
    unfold digitValue
    omega
  unfold wholeDigits
  split
  · exact List.suffix_rfl
  · rw [wordDigits, if_pos digit]
    simp only [if_pos fits]
    exact wordDigits_suffix ..

theorem readUnsigned_suffix {c : Char} (h : readUnsigned negative (c :: cs) = some (n, rest)) :
    rest <:+ cs := by
  rw [readUnsigned_cons] at h
  split at h
  · cases h
  next digit =>
    split at h
    · cases h
    · have whole := wholeDigits_suffix (by simpa using digit) cs
      exact (readBehind_suffix h).trans ((List.dropWhile_suffix isDigit).trans whole)

theorem read_suffix {c : Char} (h : read (c :: cs) = some (n, rest)) : rest <:+ cs := by
  unfold read at h
  split at h
  next cs' eq =>
    obtain ⟨_, rfl⟩ := List.cons.inj eq
    cases cs with
    | nil => cases h
    | cons d cs => exact (readUnsigned_suffix h).trans (List.suffix_cons d cs)
  next => exact readUnsigned_suffix h

end Number

namespace Json

variable (cs more : List Char)

namespace Loose

/-- What is left behind something is also left behind it where a quote and more follow. -/
def leftBehindQuote : Option (List Char) → Option (List Char) := Option.map (· ++ '"' :: more)

theorem skipDigits_quote : skipDigits (cs ++ '"' :: more) = leftBehindQuote more (skipDigits cs) := by
  cases cs with
  | nil => rfl
  | cons c cs =>
    rw [List.cons_append, skipDigits, skipDigits, dropDigits_quote]
    split <;> rfl

theorem skipExponent_quote :
    skipExponent (cs ++ '"' :: more) = leftBehindQuote more (skipExponent cs) := by
  cases cs with
  | nil => rfl
  | cons c cs =>
    simp only [List.cons_append, skipExponent]
    split
    · cases cs with
      | nil => rfl
      | cons sign digits =>
        simp only [List.cons_append]
        split
        · exact skipDigits_quote ..
        · exact skipDigits_quote (sign :: digits) more
    · rfl

theorem leftBehindQuote_bind {f : List Char → Option (List Char)}
    (h : ∀ cs, f (cs ++ '"' :: more) = leftBehindQuote more (f cs)) (left : Option (List Char)) :
    (leftBehindQuote more left).bind f = leftBehindQuote more (left.bind f) := by
  cases left with
  | none => rfl
  | some left => exact h left

theorem skipFraction_quote :
    skipFraction (cs ++ '"' :: more) = leftBehindQuote more (skipFraction cs) := by
  cases cs with
  | nil => rfl
  | cons c cs =>
    by_cases point : c = '.'
    · rw [point, List.cons_append, skipFraction, skipFraction, skipDigits_quote]
      exact leftBehindQuote_bind more (skipExponent_quote · more) _
    simpa [skipFraction, point] using skipExponent_quote (c :: cs) more

theorem skipUnsigned_quote :
    skipUnsigned (cs ++ '"' :: more) = leftBehindQuote more (skipUnsigned cs) := by
  cases cs with
  | nil => rfl
  | cons c cs =>
    by_cases zero : c = '0'
    · rw [zero, List.cons_append, skipUnsigned, skipUnsigned, headDigit_quote]
      split
      · rfl
      · exact skipFraction_quote ..
    have digits := skipDigits_quote (c :: cs) more
    rw [List.cons_append] at digits
    simpa [skipUnsigned, zero, digits] using
      leftBehindQuote_bind more (skipFraction_quote · more) (skipDigits (c :: cs))

theorem skipNumber_quote :
    skipNumber (cs ++ '"' :: more) = leftBehindQuote more (skipNumber cs) := by
  cases cs with
  | nil => rfl
  | cons c cs =>
    by_cases minus : c = '-'
    · rw [minus]
      exact skipUnsigned_quote ..
    simpa [skipNumber, minus] using skipUnsigned_quote (c :: cs) more

variable {cs} {rest : List Char} {c : Char}

theorem skipDigits_suffix (h : skipDigits (c :: cs) = some rest) : rest <:+ cs := by
  rw [skipDigits] at h
  split at h
  · cases h
    exact List.dropWhile_suffix isDigit
  · cases h

theorem skipExponent_suffix (h : skipExponent cs = some rest) : rest <:+ cs := by
  cases cs with
  | nil =>
    cases h
    exact List.suffix_rfl
  | cons c cs =>
    simp only [skipExponent] at h
    split at h
    · cases cs with
      | nil => cases h
      | cons sign digits =>
        simp only at h
        split at h
        · cases digits with
          | nil => cases h
          | cons d digits =>
            exact (skipDigits_suffix h).trans ((List.suffix_cons d digits).trans
              ((List.suffix_cons sign _).trans (List.suffix_cons c _)))
        · exact (skipDigits_suffix h).trans ((List.suffix_cons sign _).trans (List.suffix_cons c _))
    · cases h
      exact List.suffix_rfl

theorem skipFraction_suffix (h : skipFraction cs = some rest) : rest <:+ cs := by
  unfold skipFraction at h
  split at h
  next fraction =>
    obtain ⟨left, digits, scale⟩ := Option.bind_eq_some_iff.mp h
    cases fraction with
    | nil => cases digits
    | cons d fraction =>
      exact (skipExponent_suffix scale).trans ((skipDigits_suffix digits).trans
        ((List.suffix_cons d _).trans (List.suffix_cons '.' _)))
  next => exact skipExponent_suffix h

theorem skipUnsigned_suffix (h : skipUnsigned (c :: cs) = some rest) : rest <:+ cs := by
  unfold skipUnsigned at h
  split at h
  next eq =>
    obtain ⟨_, rfl⟩ := List.cons.inj eq
    split at h
    · cases h
    · exact skipFraction_suffix h
  next =>
    obtain ⟨left, digits, h⟩ := Option.bind_eq_some_iff.mp h
    exact (skipFraction_suffix h).trans (skipDigits_suffix digits)

theorem skipNumber_suffix (h : skipNumber (c :: cs) = some rest) : rest <:+ cs := by
  unfold skipNumber at h
  split at h
  next eq =>
    obtain ⟨_, rfl⟩ := List.cons.inj eq
    cases cs with
    | nil => cases h
    | cons d cs => exact (skipUnsigned_suffix h).trans (List.suffix_cons d cs)
  next => exact skipUnsigned_suffix h

end Loose

variable {cs more}

theorem exists_of_quote {word rest : List Char} (apart : '"' ∉ word)
    (h : cs ++ '"' :: more = word ++ rest) : ∃ rest', cs = word ++ rest' := by
  rcases List.append_eq_append_iff.mp h with ⟨w, rfl, split⟩ | ⟨w, rfl, _⟩
  · cases w with
    | nil => exact ⟨[], by simp⟩
    | cons d w =>
      obtain ⟨rfl, _⟩ := List.cons.inj split
      exact absurd (List.mem_append_right cs (List.mem_cons_self ..)) apart
  · exact ⟨w, rfl⟩

theorem Token.read_quote {c : Char} (notQuote : c ≠ '"') (cs more : List Char) :
    Token.read (c :: cs ++ '"' :: more) = behindQuote more (Token.read (c :: cs)) := by
  have split (found : Option (Number × List Char)) :
      (behindQuote more found).map (fun x => (Token.number x.1, x.2)) =
        behindQuote more (found.map fun x => (Token.number x.1, x.2)) := by
    cases found <;> rfl
  -- a word that the text starts with is whole before the quote
  have no (word : List Char) (apart : '"' ∉ word) (none : ∀ rest, c :: cs = word ++ rest → False)
      (rest : List Char) (h : c :: cs ++ '"' :: more = word ++ rest) : False := by
    obtain ⟨rest', eq⟩ := exists_of_quote apart h
    exact none rest' eq
  generalize text : c :: cs = whole at no ⊢
  fun_cases Token.read whole with
  | case1 | case2 | case3 | case4 | case5 | case6 | case8 | case9 | case10 => rfl
  | case7 rest => exact absurd (List.cons.inj text).1 notQuote
  | case11 _ brace brace' bracket bracket' colon comma _ isNull isTrue isFalse =>
    rw [Token.read, Number.read_quote]
    · exact split _
    · exact no ['\x7b'] (by decide) brace
    · exact no ['\x7d'] (by decide) brace'
    · exact no ['['] (by decide) bracket
    · exact no [']'] (by decide) bracket'
    · exact no [':'] (by decide) colon
    · exact no [','] (by decide) comma
    · rintro rest eq
      rw [← text] at eq
      exact notQuote (List.cons.inj eq).1
    · exact no ['n', 'u', 'l', 'l'] (by decide) isNull
    · exact no ['t', 'r', 'u', 'e'] (by decide) isTrue
    · exact no ['f', 'a', 'l', 's', 'e'] (by decide) isFalse

variable {c : Char} {rest : List Char} {token : Token}

/-- What a token takes of a text, and that only a quote begins a string. -/
theorem Token.read_suffix (h : Token.read (c :: cs) = some (token, rest)) : rest <:+ cs := by
  generalize text : c :: cs = whole at h
  fun_cases Token.read whole with
  | case7 =>
    obtain ⟨_, rfl⟩ := List.cons.inj text
    obtain ⟨⟨s, left⟩, string, eq⟩ := Option.map_eq_some_iff.mp h
    cases eq
    obtain ⟨body, _, _, rfl, _⟩ := readString_eq_some_iff.mp string
    exact (List.suffix_cons ..).trans (List.suffix_append ..)
  | case11 =>
    rw [Token.read] at h <;> try assumption
    obtain ⟨⟨n, left⟩, number, eq⟩ := Option.map_eq_some_iff.mp h
    cases eq
    rw [← text] at number
    exact Number.read_suffix number
  | case1 | case2 | case3 | case4 | case5 | case6 | case8 | case9 | case10 =>
    cases h
    cases text
    simp only [List.suffix_rfl, List.suffix_cons_iff, or_true]

/-- Only a quote begins a string. -/
theorem Token.read_ne_string (notQuote : c ≠ '"')
    (h : Token.read (c :: cs) = some (token, rest)) (s : String) : token ≠ .string s := by
  generalize text : c :: cs = whole at h
  fun_cases Token.read whole with
  | case7 => exact absurd (List.cons.inj text).1 notQuote
  | case11 =>
    rw [Token.read] at h <;> try assumption
    obtain ⟨_, _, eq⟩ := Option.map_eq_some_iff.mp h
    cases eq
    exact nofun
  | case1 | case2 | case3 | case4 | case5 | case6 | case8 | case9 | case10 =>
    cases h
    exact nofun

namespace Loose

theorem readToken_cons (notQuote : c ≠ '"') (cs : List Char) : readToken (c :: cs) =
    (Token.read (c :: cs)).or ((skipNumber (c :: cs)).map (Token.valueless, ·)) := by
  rw [readToken]
  exact fun _ eq => notQuote (List.cons.inj eq).1

theorem readToken_quote (notQuote : c ≠ '"') (cs more : List Char) :
    readToken (c :: cs ++ '"' :: more) = behindQuote more (readToken (c :: cs)) := by
  rw [List.cons_append, readToken_cons notQuote, readToken_cons notQuote, ← List.cons_append,
    Token.read_quote notQuote, skipNumber_quote]
  cases Token.read (c :: cs) with
  | some found => rfl
  | none => cases skipNumber (c :: cs) <;> rfl

theorem readToken_suffix (h : readToken (c :: cs) = some (token, rest)) : rest <:+ cs := by
  by_cases quote : c = '"'
  · subst quote
    rcases Option.or_eq_some_iff.mp h with string | ⟨_, valueless⟩
    · exact Token.read_suffix string
    · obtain ⟨left, skipped, eq⟩ := Option.map_eq_some_iff.mp valueless
      cases eq
      obtain ⟨body, _, rfl⟩ := exists_isLiteral skipped
      exact (List.suffix_cons ..).trans (List.suffix_append ..)
  · rw [readToken_cons quote] at h
    rcases Option.or_eq_some_iff.mp h with found | ⟨_, valueless⟩
    · exact Token.read_suffix found
    · obtain ⟨left, skipped, eq⟩ := Option.map_eq_some_iff.mp valueless
      cases eq
      exact skipNumber_suffix skipped

theorem readToken_ne_string (notQuote : c ≠ '"') (h : readToken (c :: cs) = some (token, rest))
    (s : String) : token ≠ .string s := by
  rw [readToken_cons notQuote] at h
  rcases Option.or_eq_some_iff.mp h with found | ⟨_, valueless⟩
  · exact Token.read_ne_string notQuote found s
  · obtain ⟨left, _, eq⟩ := Option.map_eq_some_iff.mp valueless
    cases eq
    exact nofun

end Loose

end Json

end CodeIntel
