import CodeIntel.Json.Token
import CodeIntel.Json.Writer
import CodeIntel.Proofs.Text.Columns

namespace CodeIntel

/-- A character that is no control, and so ends no line. -/
abbrev IsPlain (c : Char) : Prop := 0x20 ≤ c.toNat

abbrev ArePlain (cs : List Char) : Prop := ∀ c ∈ cs, IsPlain c

theorem arePlain_of_all {cs : List Char} (h : cs.all (0x20 ≤ ·.toNat) = true) : ArePlain cs :=
  fun c mem => of_decide_eq_true (List.all_eq_true.mp h c mem)

theorem arePlain_append {cs cs' : List Char} (h : ArePlain cs) (h' : ArePlain cs') :
    ArePlain (cs ++ cs') :=
  List.forall_mem_append.mpr ⟨h, h'⟩

theorem arePlain_cons {c : Char} {cs : List Char} (h : IsPlain c) (h' : ArePlain cs) :
    ArePlain (c :: cs) :=
  List.forall_mem_cons.mpr ⟨h, h'⟩

theorem arePlain_replicate {c : Char} (h : IsPlain c) (n : Nat) : ArePlain (List.replicate n c) :=
  fun _ mem => (List.eq_of_mem_replicate mem) ▸ h

theorem isPlain_of_isDigit {c : Char} (h : c.isDigit) : IsPlain c := by
  have least : '0'.val ≤ c.val := by
    simp only [Char.isDigit, Bool.and_eq_true, decide_eq_true_eq] at h
    exact h.1
  exact Nat.le_trans (by decide) least

theorem arePlain_repr (n : Nat) : ArePlain n.repr.toList := by
  intro c mem
  rw [Nat.repr, String.toList_ofList] at mem
  exact isPlain_of_isDigit (Nat.isDigit_of_mem_toDigits (by decide) (by decide) mem)

theorem arePlain_hexDigits (n : Nat) : ArePlain (Nat.toDigits 16 n) := by
  have plainDigit : ∀ d < 16, IsPlain d.digitChar := by decide
  induction n using Nat.strongRecOn with
  | ind n ih =>
    by_cases small : n < 16
    · rw [Nat.toDigits_of_lt_base small]
      exact arePlain_cons (plainDigit n small) nofun
    · rw [Nat.toDigits_of_base_le (by decide) (Nat.le_of_not_lt small)]
      have last := plainDigit (n % 16) (Nat.mod_lt n (by decide))
      exact arePlain_append (ih (n / 16) (by omega)) (arePlain_cons last nofun)

theorem arePlain_positionalText {digits : List Char} (h : ArePlain digits) (lead exponent : Int)
    {wholeMark : String} (mark : ArePlain wholeMark.toList) :
    ArePlain (Decimal.positionalText digits lead exponent wholeMark) := by
  have zeros (n : Nat) : ArePlain (List.replicate n '0') := arePlain_replicate (by decide) n
  unfold Decimal.positionalText
  split
  · exact arePlain_append (arePlain_append h (zeros _)) mark
  · split
    · have front : ArePlain (digits.take (lead.toNat + 1)) := fun c mem => h c (List.mem_of_mem_take mem)
      have back : ArePlain (digits.drop (lead.toNat + 1)) := fun c mem => h c (List.mem_of_mem_drop mem)
      exact arePlain_append front (arePlain_cons (by decide) back)
    · exact arePlain_cons (by decide) (arePlain_cons (by decide) (arePlain_append (zeros _) h))

theorem arePlain_scientificText {digits : List Char} (h : ArePlain digits) (lead : Int) :
    ArePlain (Decimal.scientificText digits lead) := by
  have first : ArePlain (digits.take 1) := fun c mem => h c (List.mem_of_mem_take mem)
  have tail : ArePlain (digits.drop 1) := fun c mem => h c (List.mem_of_mem_drop mem)
  unfold Decimal.scientificText
  refine arePlain_append (arePlain_append (arePlain_append first ?_) ?_) (arePlain_repr _)
  · split
    · exact nofun
    · exact arePlain_cons (by decide) tail
  · split <;> exact arePlain_of_all rfl

theorem arePlain_decimal {style : Decimal.Style} (mark : ArePlain style.wholeMark.toList)
    (d : Decimal) : ArePlain (d.text style).toList := by
  have body : ∀ body : List Char, ArePlain body →
      ArePlain (String.ofList (if d.negative then '-' :: body else body)).toList := by
    intro body h
    rw [String.toList_ofList]
    split
    · exact arePlain_cons (by decide) h
    · exact h
  unfold Decimal.text
  apply body
  split
  · exact arePlain_positionalText (arePlain_repr _) _ _ mark
  · exact arePlain_scientificText (arePlain_repr _) _

theorem arePlain_number (n : Number) : ArePlain n.text.toList := by
  cases n with
  | float d => exact arePlain_decimal (arePlain_of_all rfl) d
  | int n =>
    cases n with
    | ofNat n => exact arePlain_repr n
    | negSucc n =>
      have text : (Number.int (.negSucc n)).text.toList = '-' :: (n + 1).repr.toList := by
        simp [Number.text, Int.repr]
      rw [text]
      exact arePlain_cons (by decide) (arePlain_repr _)

namespace Json

theorem arePlain_escapedChar (c : Char) : ArePlain (escapedChar c) := by
  unfold escapedChar
  repeat' split
  all_goals try exact arePlain_of_all rfl
  · exact arePlain_append (arePlain_append (arePlain_of_all rfl) (arePlain_replicate (by decide) _))
      (arePlain_hexDigits _)
  · exact arePlain_cons (by omega) nofun

theorem arePlain_stringChars (s : String) : ArePlain (stringChars s) := by
  refine arePlain_append (arePlain_cons (by decide) ?_) (arePlain_of_all rfl)
  intro c mem
  obtain ⟨d, _, mem⟩ := List.mem_flatMap.mp mem
  exact arePlain_escapedChar d c mem

mutual

theorem arePlain_chars : (value : Json) → ArePlain value.chars
  | .null => arePlain_of_all rfl
  | .bool true => arePlain_of_all rfl
  | .bool false => arePlain_of_all rfl
  | .number n => arePlain_number n
  | .string s => arePlain_stringChars s
  | .array items =>
    arePlain_append (arePlain_cons (by decide) (arePlain_itemsChars items))
      (arePlain_of_all rfl)
  | .object members =>
    arePlain_append (arePlain_cons (by decide) (arePlain_membersChars members))
      (arePlain_of_all rfl)

theorem arePlain_itemsChars : (items : List Json) → ArePlain (itemsChars items)
  | [] => nofun
  | [item] => arePlain_chars item
  | item :: second :: rest =>
    arePlain_append (arePlain_chars item)
      (arePlain_cons (by decide) (arePlain_itemsChars (second :: rest)))

theorem arePlain_membersChars : (members : List (String × Json)) → ArePlain (membersChars members)
  | [] => nofun
  | [(key, value)] =>
    arePlain_append (arePlain_stringChars key) (arePlain_cons (by decide) (arePlain_chars value))
  | (key, value) :: second :: rest =>
    arePlain_append (arePlain_append (arePlain_stringChars key)
        (arePlain_cons (by decide) (arePlain_chars value)))
      (arePlain_cons (by decide) (arePlain_membersChars (second :: rest)))

end

/-- The text of a value stands on one line. -/
theorem lineFeed_not_mem_text (value : Json) : '\n' ∉ value.text.toList := by
  rw [text, String.toList_ofList]
  intro mem
  exact absurd (arePlain_chars value _ mem) (by decide)

end Json

end CodeIntel

namespace CodeIntel.Json

open Token (readString hex4?)

/-- A control character is read back from its escape. -/
theorem hex4?_controlEscape {c : Char} (control : c.toNat < 0x20) :
    ∃ d₁ d₂ d₃ d₄, controlEscape c = ['\\', 'u', d₁, d₂, d₃, d₄] ∧
      hex4? d₁ d₂ d₃ d₄ = some c.toNat := by
  have all : ∀ n < 0x20, controlEscape (Char.ofNat n) =
        ['\\', 'u', '0', '0', Nat.digitChar (n / 16), Nat.digitChar (n % 16)] ∧
      hex4? '0' '0' (Nat.digitChar (n / 16)) (Nat.digitChar (n % 16)) = some n := by decide +kernel
  obtain ⟨eq, value⟩ := all c.toNat control
  rw [Char.ofNat_toNat] at eq
  exact ⟨_, _, _, _, eq, value⟩

theorem readString_escapedChar (acc : List Char) (c : Char) (rest : List Char) :
    readString acc (escapedChar c ++ rest) = readString (c :: acc) rest := by
  unfold escapedChar
  split
  next eq => subst eq; simp [readString, Token.escaped?]
  split
  next eq => subst eq; simp [readString, Token.escaped?]
  split
  next eq => subst eq; simp [readString, Token.escaped?]
  split
  next eq => subst eq; simp [readString, Token.escaped?]
  split
  next eq => subst eq; simp [readString, Token.escaped?]
  split
  next eq => subst eq; simp [readString, Token.escaped?]
  split
  next eq => subst eq; simp [readString, Token.escaped?]
  split
  next control =>
    obtain ⟨d₁, d₂, d₃, d₄, eq, value⟩ := hex4?_controlEscape control
    rw [eq]
    have plain : Token.isLowSurrogate c.toNat = false ∧ Token.isHighSurrogate c.toNat = false := by
      simp [Token.isLowSurrogate, Token.isHighSurrogate]; omega
    simp [readString, value, plain]
  next notQuote notSlash _ _ _ _ _ plain =>
    rw [List.singleton_append, readString]
    · simp [notSlash, plain]
    · exact notQuote
    · rintro  _ _ _ _ _ rfl
      exact absurd rfl notSlash
    · rintro _ _ rfl
      exact absurd rfl notSlash

theorem readString_written (acc cs rest : List Char) :
    readString acc (cs.flatMap escapedChar ++ '"' :: rest) =
      some (String.ofList (acc.reverse ++ cs), rest) := by
  induction cs generalizing acc with
  | nil => simp [readString]
  | cons c cs ih =>
    rw [List.flatMap_cons, List.append_assoc, readString_escapedChar, ih]
    simp

/-- Where a written string ends can be told, whatever stands behind it. -/
theorem stringChars_append_inj {s s' : String} {rest rest' : List Char}
    (h : stringChars s ++ rest = stringChars s' ++ rest') : s = s' ∧ rest = rest' := by
  have reads (s : String) (rest : List Char) :
      readString [] ((stringChars s ++ rest).tail) = some (s, rest) := by
    have written := readString_written [] s.toList rest
    rw [List.reverse_nil, List.nil_append, String.ofList_toList] at written
    rw [← written]
    simp [stringChars]
  have same := (reads s rest).symm.trans ((congrArg (fun cs => readString [] cs.tail) h).trans
    (reads s' rest'))
  exact Prod.mk.inj (Option.some.inj same)

end CodeIntel.Json
