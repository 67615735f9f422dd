import CodeIntel.Domain.Direction
import CodeIntel.Text.Composition

namespace CodeIntel.Domain.Punycode

/-- The number of digits. -/
def base : Nat := 36

/-- No number reaches this. -/
def limit : Nat := UInt32.size

def digitValue? (c : Char) : Option Nat :=
  if 'a' ≤ c ∧ c ≤ 'z' then some (c.toNat - 'a'.toNat)
  else if '0' ≤ c ∧ c ≤ '9' then some (c.toNat - '0'.toNat + 26)
  else none

/-- The least value of a digit at `place` behind which a number goes on. -/
def threshold (bias place : Nat) : Nat := max 1 (min 26 (place - bias))

/-- The bias of a scaled step; each division stands for one more digit. -/
def biasOf (step place : Nat) : Nat :=
  if step ≤ 455 then place + base * step / (step + 38) else biasOf (step / 35) (place + base)
termination_by step
decreasing_by exact Nat.div_lt_self (by omega) (by decide)

/-- The bias behind a step in a text of `length` characters. -/
def adaptedBias (step length : Nat) (isFirst : Bool) : Nat :=
  let step := if isFirst then step / 700 else step / 2
  biasOf (step + step / length) 0

/-- A text under way, where and what was inserted last, and the number that is being read. -/
structure Decoding where
  text : List Char
  code : Nat
  index : Nat
  bias : Nat
  value : Nat
  weight : Nat
  place : Nat
deriving DecidableEq, Repr

/-- Nothing inserted yet: the first character comes after the plain ones. -/
def Decoding.ofPlain (text : List Char) : Decoding := ⟨text, 0x80, 0, 72, 0, 1, base⟩

/-- Inserts the character that the number read tells, and where. -/
def Decoding.insert? (d : Decoding) : Option Decoding :=
  let length := d.text.length + 1
  let code := d.code + d.value / length
  let index := d.value % length
  if code.isValidChar then
    some {
      text := d.text.insertIdx index (Char.ofNat code)
      code := code
      index := index + 1
      bias := adaptedBias (d.value - d.index) length (d.index = 0)
      value := index + 1
      weight := 1
      place := base }
  else none

/-- Reads one digit. -/
def Decoding.step (d : Decoding) (c : Char) : Option Decoding := do
  let digit ← digitValue? c
  let value := d.value + digit * d.weight
  let least := threshold d.bias d.place
  let weight := d.weight * (base - least)
  if limit ≤ value then none
  else if digit < least then Decoding.insert? { d with value := value }
  else if limit ≤ weight then none
  else some { d with value := value, weight := weight, place := d.place + base }

/-- The text that small letters, digits and hyphens encode: plain characters up to the last hyphen,
behind it what to insert between them. -/
def decode? (cs : List Char) : Option (List Char) := do
  let digits := (cs.reverse.takeWhile (· ≠ '-')).reverse
  let plain := cs.take (cs.length - digits.length - 1)
  let read ← (if plain = [] then cs else digits).foldlM Decoding.step (Decoding.ofPlain plain)
  if read.place = base then some read.text else none

end CodeIntel.Domain.Punycode

namespace CodeIntel.Domain

/-- A plain character that no domain name may hold. -/
def isForbidden (c : Char) : Bool :=
  c.toNat ≤ 0x20 || c.toNat = 0x7F ||
    ['%', '#', '/', ':', '<', '>', '?', '@', '[', '\\', ']', '^', '\x60', '\x7b', '|', '\x7d'].contains c

def isPlain (label : List Char) : Bool := label.all fun c => c.toNat < 0x80

/-- The longest encoded label that is read, and the longest label that would be encoded. -/
def encodedLimit : Nat := 2000
def labelLimit : Nat := 1000

/-- Whether a label is its own proper spelling. -/
def isCanonical (label : List Char) : Bool :=
  label.all (fun c => spelling? c = some [c] && !isForbidden c && c ≠ '.') && composed label = label

def decodedLabel? (encoded : List Char) : Option (List Char) :=
  if encoded = [] ∨ encoded.getLast? = some '-' ∨ encodedLimit < encoded.length then none
  else (Punycode.decode? encoded).filter isCanonical

/-- A label does not start with a mark, and its joiners stand where they may. -/
def isSound (label : List Char) : Bool :=
  !label.head?.any isMark && joinersFit [] label
    && (isPlain label || label.length ≤ labelLimit)

def label? (label : List Char) : Option (List Char) :=
  let read :=
    match label with
    | 'x' :: 'n' :: '-' :: '-' :: encoded => decodedLabel? encoded
    | _ => if label.any isForbidden then none else some label
  read.filter isSound

/-- The labels of the domain that a text names, in their proper spelling. In a domain with text from
right to left, each reads in one direction. -/
def labels? (text : List Char) : Option (List (List Char)) := do
  let spelled ← text.mapM spelling?
  let labels ← ((composed spelled.flatten).splitOn '.').mapM label?
  if labels.any isBidirectional && !labels.all readsOneWay then none else some labels

/-- The proper spelling of the domain that a text names. -/
def properName? (text : List Char) : Option (List Char) :=
  (labels? text).map fun labels => ['.'].intercalate labels

end CodeIntel.Domain
