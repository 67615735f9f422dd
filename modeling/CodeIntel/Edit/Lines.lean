import CodeIntel.Position
import CodeIntel.Text.Basic

namespace CodeIntel

/-- Cuts a text after each line feed and keeps what follows the last one, even if it is empty: a
position may address that line. -/
def addressLines : List Char → List (List Char)
  | [] => [[]]
  | c :: cs =>
    if c = '\n' then [c] :: addressLines cs
    else
      match addressLines cs with
      | [] => [[c]]
      | line :: rest => (c :: line) :: rest

def dropLastIf (last : Char) (cs : List Char) : List Char :=
  if cs.getLast? = some last then cs.dropLast else cs

/-- A line without its line feed and without a carriage return at its end. -/
def lineBody (line : List Char) : List Char := dropLastIf '\r' (dropLastIf '\n' line)

/-- What ends a line: the part of it behind its body. -/
def lineTerminator (line : List Char) : List Char := line.drop (lineBody line).length

/-- Why a position names no place in a text. -/
inductive OffsetError
  | lineOutOfRange (line : UInt32) (lines : Nat)
  | characterPastEnd (character line length : UInt32)
deriving DecidableEq, Repr

def OffsetError.message : OffsetError → String
  | lineOutOfRange line lines => s!"line {line} is out of range (file has {lines} lines)"
  | characterPastEnd character line length =>
    s!"character {character} is past the end of line {line} ({length} UTF-16 units)"

/-- The number of characters before a position. The position one line past the last, at column
zero, is the end of the text. The length of a line is counted in 32 bits, as columns are. -/
def offset (text : List Char) (p : Position) : Except OffsetError Nat :=
  let lines := addressLines text
  if p.line.toNat = lines.length ∧ p.character = 0 then .ok text.length
  else
    match lines[p.line.toNat]? with
    | none => .error (.lineOutOfRange p.line lines.length)
    | some line =>
      let body := lineBody line
      let length := UInt32.ofNat (length16 body)
      if length < p.character then .error (.characterPastEnd p.character p.line length)
      else .ok ((lines.take p.line.toNat).flatten.length + charsAtColumn body p.character.toNat)

/-- The number of lines as an editor shows them, in 32 bits: a final line feed opens no further
line. -/
def visibleLines (text : List Char) : UInt32 :=
  let count := (addressLines text).length
  UInt32.ofNat (max (if text.getLast? = some '\n' then count - 1 else count) 1)

theorem addressLines_ne_nil (text : List Char) : addressLines text ≠ [] := by
  cases text with
  | nil => simp [addressLines]
  | cons c cs =>
    unfold addressLines
    split
    · simp
    · split <;> simp

theorem addressLines_flatten (text : List Char) : (addressLines text).flatten = text := by
  induction text with
  | nil => rfl
  | cons c cs ih =>
    unfold addressLines
    split
    · simp [ih]
    · split
      next h => exact absurd h (addressLines_ne_nil cs)
      next line rest h => simpa [h] using ih

end CodeIntel
