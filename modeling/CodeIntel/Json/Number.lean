import CodeIntel.Json.Basic
import CodeIntel.Decimal

namespace CodeIntel

/-- Floats are positional while their first digit stands between the fifth and minus fifteenth
place after the point. -/
def Number.style : Decimal.Style := ⟨fun lead => -5 ≤ lead && lead ≤ 15, ".0"⟩

def Number.text : Number → String
  | .int n => n.repr
  | .float d => d.text Number.style

def isDigit (c : Char) : Bool := '0' ≤ c && c ≤ '9'

def digitValue (c : Char) : Nat := c.toNat - '0'.toNat

namespace Number

/-- The greatest significand that the reader keeps. -/
def greatestWord : Nat := UInt64.size - 1

/-- Digits read so far: their value, and whether another digit stopped fitting into a word. -/
structure Run where
  value : Nat
  taken : Nat
  rest : List Char

/-- Takes digits while the value fits into a word. -/
def wordDigits : Nat → Nat → List Char → Run
  | value, taken, [] => ⟨value, taken, []⟩
  | value, taken, c :: cs =>
    if isDigit c then
      let next := value * 10 + digitValue c
      if next ≤ greatestWord then wordDigits next (taken + 1) cs else ⟨value, taken, c :: cs⟩
    else ⟨value, taken, c :: cs⟩

/-- The exponents whose power of ten is a double. -/
def greatestPower : Nat := 308

/-- `value * 10 ^ exponent` as the nearest double, or `none` beyond the greatest. -/
def timesPower (value : BinaryFloat) (exponent : Nat) : Option BinaryFloat :=
  let (num, den) := value.ratio
  let (n, d) := (BinaryFormat.double.nearest (Nat.pow 10 exponent) 1).ratio
  BinaryFormat.double.round? (num * n) (den * d)

/-- `value / 10 ^ exponent` as the nearest double. -/
def overPower (value : BinaryFloat) (exponent : Nat) : BinaryFloat :=
  let (num, den) := value.ratio
  let (n, d) := (BinaryFormat.double.nearest (Nat.pow 10 exponent) 1).ratio
  BinaryFormat.double.nearest (num * d) (den * n)

/-- Divides by powers of ten that are doubles, one after the other, rounding each time. -/
def divideDown (value : BinaryFloat) (exponent : Nat) : BinaryFloat :=
  if _h : exponent ≤ greatestPower then overPower value exponent
  else if value.significand = 0 then value
  else divideDown (overPower value greatestPower) (exponent - greatestPower)
termination_by exponent
decreasing_by
  have : greatestPower = 308 := rfl
  omega

/-- The double that `significand * 10 ^ exponent` reads as: the significand is rounded first, then
scaled with one rounding for each power of ten. -/
def scaled (significand : Nat) (exponent : Int) : Option BinaryFloat :=
  let value := BinaryFormat.double.nearest significand 1
  if exponent < 0 then some (divideDown value exponent.natAbs)
  else if exponent.natAbs ≤ greatestPower then timesPower value exponent.natAbs
  else if significand = 0 then some value
  else none

def ofScaled (negative : Bool) (significand : Nat) (exponent : Int) : Option Number :=
  (scaled significand exponent).map fun value =>
    .float (value.shortest BinaryFormat.double negative)

/-- The greatest exponent that is read digit by digit. -/
def greatestExponent : Nat := Nat.pow 2 31 - 1

/-- The digits of an exponent, up to the one that takes it beyond the greatest. -/
def exponentDigits : Nat → List Char → Option Nat × List Char
  | value, [] => (some value, [])
  | value, c :: cs =>
    if isDigit c then
      let next := value * 10 + digitValue c
      if next ≤ greatestExponent then exponentDigits next cs else (none, cs.dropWhile isDigit)
    else (some value, c :: cs)

/-- A number from its exponent mark on. -/
def readExponent (negative : Bool) (significand : Nat) (exponent : Int) (cs : List Char) :
    Option (Number × List Char) := do
  let (down, cs) :=
    match cs with
    | '+' :: rest => (false, rest)
    | '-' :: rest => (true, rest)
    | _ => (false, cs)
  match cs with
  | [] => none
  | c :: _ =>
    if isDigit c then
      match exponentDigits 0 cs with
      | (none, rest) =>
        if significand ≠ 0 && !down then none
        else some (.float ⟨negative, 0, 0⟩, rest)
      | (some shift, rest) =>
        let number ← ofScaled negative significand (if down then exponent - shift else exponent + shift)
        some (number, rest)
    else none

/-- A number from its exponent mark on, or ended. -/
def readScale (negative : Bool) (significand : Nat) (exponent : Int) :
    List Char → Option (Number × List Char)
  | 'e' :: cs => readExponent negative significand exponent cs
  | 'E' :: cs => readExponent negative significand exponent cs
  | cs => (ofScaled negative significand exponent).map (·, cs)

/-- A number from behind its point on. Digits that no longer fit into the word are dropped. -/
def readFraction (negative : Bool) (significand : Nat) (exponent : Int) (cs : List Char) :
    Option (Number × List Char) :=
  let run := wordDigits significand 0 cs
  if run.taken = 0 && !run.rest.head?.any isDigit then none
  else readScale negative run.value (exponent - run.taken) (run.rest.dropWhile isDigit)

/-- A whole number as it is kept: an integer while it fits into 64 bits, else a float, as is
minus zero. -/
def ofWhole (negative : Bool) (value : Nat) : Option Number :=
  if !negative then some (.int value)
  else if value = 0 || Nat.pow 2 63 < value then ofScaled true value 0
  else some (.int (-value))

/-- A number from its first digit on. -/
def readUnsigned (negative : Bool) (cs : List Char) : Option (Number × List Char) :=
  match cs with
  | [] => none
  | c :: tail =>
    if !isDigit c then none
    else
      let run := if c = '0' then ⟨0, 1, tail⟩ else wordDigits 0 0 cs
      let rest := run.rest.dropWhile isDigit
      let dropped := (run.rest.takeWhile isDigit).length
      if c = '0' && dropped ≠ 0 then none
      else
        match rest with
        | '.' :: fraction => readFraction negative run.value dropped fraction
        | 'e' :: exponent => readExponent negative run.value dropped exponent
        | 'E' :: exponent => readExponent negative run.value dropped exponent
        | _ =>
          if dropped = 0 then (ofWhole negative run.value).map (·, rest)
          else (ofScaled negative run.value dropped).map (·, rest)

/-- The number that a text starts with, and the text behind it. -/
def read (cs : List Char) : Option (Number × List Char) :=
  match cs with
  | '-' :: rest => readUnsigned true rest
  | _ => readUnsigned false cs

end Number

end CodeIntel
