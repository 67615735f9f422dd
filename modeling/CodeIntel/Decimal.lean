namespace CodeIntel

/-- The number `digits * 10 ^ exponent`, negated when `negative`. Zero keeps its sign. -/
structure Decimal where
  negative : Bool
  digits : Nat
  exponent : Int
deriving DecidableEq, Repr, Inhabited

namespace Decimal

/-- Drops trailing zeros of `digits`, at most `fuel` of them. -/
def stripZeros : Nat → Nat → Int → Nat × Int
  | 0, digits, exponent => (digits, exponent)
  | fuel + 1, digits, exponent =>
    if digits % 10 = 0 then stripZeros fuel (digits / 10) (exponent + 1) else (digits, exponent)

/-- The decimal in its only form: digits that do not end in zero, or zero with exponent zero. -/
def ofScaled (negative : Bool) (digits : Nat) (exponent : Int) : Decimal :=
  if digits = 0 then ⟨negative, 0, 0⟩
  else
    let (digits, exponent) := stripZeros digits.log2 digits exponent
    ⟨negative, digits, exponent⟩

/-- Where a written decimal is positional, by the exponent of its first digit, and what follows
a whole number in that notation. -/
structure Style where
  positional : Int → Bool
  wholeMark : String

private def zeros (n : Nat) : List Char := List.replicate n '0'

/-- Positional notation; `lead` is the exponent of the first digit. -/
def positionalText (digits : List Char) (lead exponent : Int) (wholeMark : String) : List Char :=
  if 0 ≤ exponent then digits ++ zeros exponent.toNat ++ wholeMark.toList
  else if 0 ≤ lead then
    digits.take (lead.toNat + 1) ++ '.' :: digits.drop (lead.toNat + 1)
  else '0' :: '.' :: zeros (-lead - 1).toNat ++ digits

/-- One digit, the others after a point, and the exponent with its sign. -/
def scientificText (digits : List Char) (lead : Int) : List Char :=
  let tail := digits.drop 1
  digits.take 1 ++ (if tail.isEmpty then [] else '.' :: tail) ++
    ['e', if 0 ≤ lead then '+' else '-'] ++ lead.natAbs.repr.toList

def text (style : Style) (d : Decimal) : String :=
  let digits := d.digits.repr.toList
  let lead := d.exponent + digits.length - 1
  let body :=
    if style.positional lead then positionalText digits lead d.exponent style.wholeMark
    else scientificText digits lead
  String.ofList (if d.negative then '-' :: body else body)

end Decimal

/-- A binary floating-point format: the bits of a significand and the exponents of the least and
the greatest unit. -/
structure BinaryFormat where
  precision : Nat
  leastUnit : Int
  greatestUnit : Int

/-- The number `significand * 2 ^ unit`. -/
structure BinaryFloat where
  significand : Nat
  unit : Int
deriving DecidableEq, Repr

namespace BinaryFormat

def double : BinaryFormat := ⟨53, -1074, 971⟩

def single : BinaryFormat := ⟨24, -149, 104⟩

/-- The floor of the binary logarithm of `num / den`, both positive. -/
def floorLog2 (num den : Nat) : Int :=
  let guess : Int := num.log2 - den.log2
  let fits :=
    if 0 ≤ guess then den * Nat.pow 2 guess.toNat ≤ num else den ≤ num * Nat.pow 2 (-guess).toNat
  if fits then guess else guess - 1

/-- The nearest whole number to `num / den`; a half goes to the even neighbour. -/
def roundHalfEven (num den : Nat) : Nat :=
  let q := num / den
  let r := num % den
  if 2 * r < den then q
  else if den < 2 * r then q + 1
  else if q % 2 = 0 then q else q + 1

/-- The number of the format nearest to `num / den`, its exponent unbounded above. -/
def nearest (format : BinaryFormat) (num den : Nat) : BinaryFloat :=
  if num = 0 then ⟨0, format.leastUnit⟩
  else
    let unit := max (floorLog2 num den - (format.precision - 1)) format.leastUnit
    let significand :=
      if 0 ≤ unit then roundHalfEven num (den * Nat.pow 2 unit.toNat)
      else roundHalfEven (num * Nat.pow 2 (-unit).toNat) den
    if significand = Nat.pow 2 format.precision then ⟨significand / 2, unit + 1⟩ else ⟨significand, unit⟩

/-- The nearest number of the format, or `none` when it lies beyond the greatest. -/
def round? (format : BinaryFormat) (num den : Nat) : Option BinaryFloat :=
  let value := format.nearest num den
  if format.greatestUnit < value.unit then none else some value

end BinaryFormat

namespace BinaryFloat

/-- The number as a quotient of natural numbers. -/
def ratio (value : BinaryFloat) : Nat × Nat :=
  if 0 ≤ value.unit then (value.significand * Nat.pow 2 value.unit.toNat, 1)
  else (value.significand, Nat.pow 2 (-value.unit).toNat)

end BinaryFloat

/-- The numbers that round to one number of a binary format, as quotients over `den`. The ends
belong to it when `closed`. -/
structure RoundingInterval where
  low : Nat
  value : Nat
  high : Nat
  den : Nat
  closed : Bool

/-- The rounding interval in quarters of the last unit. Below a power of two the gap is half as
wide. -/
def BinaryFloat.interval (format : BinaryFormat) (x : BinaryFloat) : RoundingInterval :=
  let m := x.significand
  let narrow := m = Nat.pow 2 (format.precision - 1) ∧ format.leastUnit < x.unit
  let quarter := x.unit - 2
  let scale := if 0 ≤ quarter then Nat.pow 2 quarter.toNat else 1
  let den := if 0 ≤ quarter then 1 else Nat.pow 2 (-quarter).toNat
  { low := (if narrow then 4 * m - 1 else 4 * m - 2) * scale
    value := 4 * m * scale
    high := (4 * m + 2) * scale
    den := den
    closed := m % 2 = 0 }

namespace RoundingInterval

/-- Whether `num / den` lies in the interval. -/
def contains (interval : RoundingInterval) (num den : Nat) : Bool :=
  let x := num * interval.den
  if interval.closed then interval.low * den ≤ x && x ≤ interval.high * den
  else interval.low * den < x && x < interval.high * den

private def decimalLength (n : Nat) : Nat := n.repr.length

/-- The floor of the decimal logarithm of `num / den`, both positive. -/
def floorLog10 (num den : Nat) : Int :=
  let guess : Int := decimalLength num - decimalLength den
  let fits :=
    if 0 ≤ guess then den * Nat.pow 10 guess.toNat ≤ num else den ≤ num * Nat.pow 10 (-guess).toNat
  if fits then guess else guess - 1

/-- The point of the grid of multiples of `10 ^ exponent` that lies in the interval, the nearer
to the value if both of its neighbours do. -/
def gridPoint? (interval : RoundingInterval) (exponent : Int) : Option Nat :=
  let up := if 0 ≤ exponent then Nat.pow 10 exponent.toNat else 1
  let down := if 0 ≤ exponent then 1 else Nat.pow 10 (-exponent).toNat
  let num := interval.value * down
  let den := interval.den * up
  let below := num / den
  let inside (c : Nat) := interval.contains (c * up) down
  match inside below, inside (below + 1) with
  | true, true =>
    let r := num % den
    if 2 * r < den ∨ (2 * r = den ∧ below % 2 = 0) then some below else some (below + 1)
  | true, false => some below
  | false, true => some (below + 1)
  | false, false => none

/-- Searches ever finer grids, `fuel` of them. -/
def firstGridPoint (interval : RoundingInterval) : Nat → Int → Nat × Int
  | 0, exponent => (0, exponent)
  | fuel + 1, exponent =>
    match interval.gridPoint? exponent with
    | some digits => (digits, exponent)
    | none => firstGridPoint interval fuel (exponent - 1)

end RoundingInterval

/-- The decimal with the fewest digits that rounds to the number, and of those the nearest. No
number of the formats at hand needs more than seventeen digits. -/
def BinaryFloat.shortest (format : BinaryFormat) (negative : Bool) (x : BinaryFloat) : Decimal :=
  if x.significand = 0 then ⟨negative, 0, 0⟩
  else
    let interval := x.interval format
    let lead := RoundingInterval.floorLog10 interval.value interval.den
    let (digits, exponent) := interval.firstGridPoint 18 lead
    Decimal.ofScaled negative digits exponent

end CodeIntel
