-- The shortest decimal of a number: the fewest digits that read back as the number, and
-- of those the nearest to it.
import LiteralFolding.Text.Basic
import LiteralFolding.Number.Basic

namespace LiteralFolding

/-- A positive decimal: the digits stand right after the point of `0.…`, times `10 ^ point`. -/
structure Decimal where
  digits : Text
  point : Int
  deriving DecidableEq, Repr

namespace Decimal

def digitsOf (n : Nat) : Text := Nat.toDigits 10 n

/-- `n` times ten to the `power`, with the trailing zeros of `n` dropped. -/
def ofScaled (n : Nat) (power : Int) : Decimal :=
  let digits := digitsOf n
  { digits := (digits.reverse.dropWhile (· = '0')).reverse
    point := power + digits.length }

end Decimal

namespace Number

/-- A positive number `value / unit` with the open interval `low / unit`, `high / unit` of
what rounds to it. The ends belong to it when `closed`. -/
structure Neighbourhood where
  low : Nat
  value : Nat
  high : Nat
  unit : Nat
  closed : Bool

namespace Neighbourhood

/-- The interval around `significand * 2 ^ exponent`. Below a power of two the numbers are
twice as dense, so the lower half-gap is halved there. -/
def around (significand : Nat) (exponent : Int) : Neighbourhood :=
  let scale := Nat.pow 2 (exponent - 2).toNat
  let below := if significand = Nat.pow 2 52 ∧ minExponent < exponent then 1 else 2
  { low := (4 * significand - below) * scale
    value := 4 * significand * scale
    high := (4 * significand + 2) * scale
    unit := Nat.pow 2 (2 - exponent).toNat
    closed := significand % 2 = 0 }

def holds (i : Neighbourhood) (n : Nat) : Bool :=
  if i.closed then i.low ≤ n && n ≤ i.high else i.low < n && n < i.high

/-- The power of ten just above the value: `10 ^ (p - 1) ≤ value / unit < 10 ^ p`. -/
def magnitude (i : Neighbourhood) : Int :=
  if i.unit ≤ i.value then ((Decimal.digitsOf (i.value / i.unit)).length : Int)
  else
    let reciprocal := (i.unit + i.value - 1) / i.value
    1 - ((Decimal.digitsOf (reciprocal - 1)).length : Int)

/-- The multiple of `10 ^ power` in the interval that is nearest to the value, the upper one
of two equally near. Only the two neighbours of the value need a look. -/
def onGrid? (i : Neighbourhood) (power : Int) : Option Nat :=
  let up := Nat.pow 10 (-power).toNat
  let step := i.unit * Nat.pow 10 power.toNat
  let scaled : Neighbourhood :=
    { low := i.low * up, value := i.value * up, high := i.high * up, unit := i.unit, closed := i.closed }
  let below := scaled.value / step
  let above := below + 1
  match scaled.holds (below * step), scaled.holds (above * step) with
  | false, false => none
  | true, false => some below
  | false, true => some above
  | true, true =>
    some (if 2 * scaled.value < (below + above) * step then below else above)

/-- Tries `count` more grids, each ten times finer, starting at `10 ^ power`. -/
def search (i : Neighbourhood) : (count : Nat) → (power : Int) → Decimal
  | 0, power =>
    let n := (i.value * Nat.pow 10 (-power).toNat) / (i.unit * Nat.pow 10 power.toNat)
    Decimal.ofScaled n power
  | count + 1, power =>
    match i.onGrid? power with
    | some n => Decimal.ofScaled n power
    | none => search i count (power - 1)

/-- The shortest decimal of the interval. Seventeen digits always suffice. -/
def shortest (i : Neighbourhood) : Decimal := i.search 17 (i.magnitude - 1)

end Neighbourhood

/-- The shortest decimal of the positive number `significand * 2 ^ exponent`. -/
def shortest (significand : Nat) (exponent : Int) : Decimal :=
  (Neighbourhood.around significand exponent).shortest

end Number

end LiteralFolding
