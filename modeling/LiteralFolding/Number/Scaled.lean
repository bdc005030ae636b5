-- Numbers times powers of ten, rounded at every step: the significand, the power and their
-- product each become the nearest number.
import LiteralFolding.Number.Basic

namespace LiteralFolding.Number

/-- The exact ratio that a finite number is, without its sign. -/
def ratio : Number → Nat × Nat
  | .finite _ significand exponent =>
    (significand * Nat.pow 2 exponent.toNat, Nat.pow 2 (-exponent).toNat)
  | _ => (0, 1)

def powerOfTen (power : Nat) : Number := ofNat (Nat.pow 10 power)

/-- The number nearest to the product with a power of ten. -/
def timesPower (negative : Bool) (x : Number) (power : Nat) : Number :=
  let (n, d) := x.ratio
  let (p, q) := (powerOfTen power).ratio
  ofRatio negative (n * p) (d * q)

/-- The number nearest to the quotient by a power of ten. -/
def overPower (negative : Bool) (x : Number) (power : Nat) : Number :=
  let (n, d) := x.ratio
  let (p, q) := (powerOfTen power).ratio
  ofRatio negative (n * q) (d * p)

def isZero : Number → Bool
  | .finite _ significand _ => significand = 0
  | _ => false

/-- The largest power of ten that is a number. -/
def largestPower : Nat := 308

/-- A number times a power of ten. A power too small to be a number is taken in several steps.
There is no answer past the largest number. -/
def scaled? (negative : Bool) (x : Number) (power : Int) : Option Number :=
  if 0 ≤ power then
    if x.isZero then some (timesPower negative x 0)
    else if power ≤ largestPower then
      match timesPower negative x power.toNat with
      | .infinity _ => none
      | y => some y
    else none
  else if -power ≤ largestPower then some (overPower negative x (-power).toNat)
  else if x.isZero then some (overPower negative x 0)
  else scaled? negative (overPower negative x largestPower) (power + largestPower)
termination_by (-power).toNat
decreasing_by simp only [largestPower] at *; omega

end LiteralFolding.Number
