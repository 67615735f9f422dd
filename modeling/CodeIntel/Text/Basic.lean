namespace CodeIntel

/-- The code points with the Unicode property White_Space. -/
def blankCodes : List Nat :=
  [0x09, 0x0A, 0x0B, 0x0C, 0x0D, 0x20, 0x85, 0xA0, 0x1680, 0x2000, 0x2001, 0x2002, 0x2003, 0x2004,
    0x2005, 0x2006, 0x2007, 0x2008, 0x2009, 0x200A, 0x2028, 0x2029, 0x202F, 0x205F, 0x3000]

def isBlank (c : Char) : Bool := blankCodes.contains c.toNat

/-- A text of blank characters only, the empty one included. -/
def isBlankText (cs : List Char) : Bool := cs.all isBlank

def trimBlankLeft (cs : List Char) : List Char := cs.dropWhile isBlank

def trimBlankRight (cs : List Char) : List Char := (cs.reverse.dropWhile isBlank).reverse

/-- The text without the blank characters at its two ends. -/
def trimBlank (cs : List Char) : List Char := trimBlankRight (trimBlankLeft cs)

/-- Whether a text holds another one in a piece. -/
def isWithin (part : List Char) : List Char → Bool
  | [] => part.isEmpty
  | c :: cs => part.isPrefixOf (c :: cs) || isWithin part cs

/-- Cuts a text after each line feed. The pieces put together are the text, and none is empty. -/
def linesWithEnds : List Char → List (List Char)
  | [] => []
  | '\n' :: cs => ['\n'] :: linesWithEnds cs
  | c :: cs =>
    match linesWithEnds cs with
    | [] => [[c]]
    | line :: rest => (c :: line) :: rest

/-- A line without its terminator. A carriage return belongs to the terminator only before a
line feed. -/
def stripLineEnd (line : List Char) : List Char :=
  if line.getLast? = some '\n' then
    let body := line.dropLast
    if body.getLast? = some '\r' then body.dropLast else body
  else line

/-- The lines of a text without their terminators; a final terminator opens no further line. -/
def splitLines (text : List Char) : List (List Char) := (linesWithEnds text).map stripLineEnd

theorem linesWithEnds_flatten (text : List Char) : (linesWithEnds text).flatten = text := by
  fun_induction linesWithEnds text with
  | case1 => rfl
  | case2 cs ih => simp [ih]
  | case3 c cs _ h ih =>
    have empty : cs = [] := by simpa [h] using ih.symm
    simp [empty]
  | case4 c cs _ line rest h ih => simpa [h] using ih

/-- The UTF-16 code units of a character: two outside the Basic Multilingual Plane. -/
def units16 (c : Char) : Nat := if c.toNat < 0x10000 then 1 else 2

/-- The length of a text in UTF-16 code units. -/
def length16 : List Char → Nat
  | [] => 0
  | c :: cs => units16 c + length16 cs

/-- The number of characters that cover the first `column` UTF-16 units; a column inside a
surrogate pair counts the whole pair. -/
def charsAtColumn : List Char → Nat → Nat
  | [], _ => 0
  | c :: cs, column => if column = 0 then 0 else 1 + charsAtColumn cs (column - units16 c)

theorem units16_pos (c : Char) : 0 < units16 c := by
  unfold units16
  split <;> omega

theorem units16_le_two (c : Char) : units16 c ≤ 2 := by
  unfold units16
  split <;> omega

@[simp] theorem length16_nil : length16 [] = 0 := rfl

@[simp] theorem length16_cons (c : Char) (cs : List Char) :
    length16 (c :: cs) = units16 c + length16 cs := rfl

theorem length16_append (xs ys : List Char) : length16 (xs ++ ys) = length16 xs + length16 ys := by
  induction xs with
  | nil => simp
  | cons c cs ih => simp [ih, Nat.add_assoc]

theorem charsAtColumn_le_length (cs : List Char) (column : Nat) :
    charsAtColumn cs column ≤ cs.length := by
  induction cs generalizing column with
  | nil => simp [charsAtColumn]
  | cons c cs ih =>
    unfold charsAtColumn
    split
    · omega
    · have := ih (column - units16 c)
      simp only [List.length_cons]
      omega

end CodeIntel
