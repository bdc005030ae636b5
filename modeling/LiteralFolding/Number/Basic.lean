-- Number values in double precision, held exactly: a sign, a whole significand and a
-- power of two. Rounding works on whole numbers only.

namespace LiteralFolding

/-- A double-precision number. A finite one is `significand * 2 ^ exponent`. -/
inductive Number where
  | nan
  | infinity (negative : Bool)
  | finite (negative : Bool) (significand : Nat) (exponent : Int)
  deriving DecidableEq, Repr

namespace Number

/-- Bits of a full significand. -/
def precision : Nat := 53

/-- The exponent of the smallest numbers. -/
def minExponent : Int := -1074

/-- The exponent of the largest numbers. -/
def maxExponent : Int := 971

def zero : Number := .finite false 0 minExponent

/-- `n / d` rounded to a whole number, a half to the even neighbour. -/
def divideToEven (n d : Nat) : Nat :=
  let q := n / d
  let twice := 2 * (n % d)
  if twice < d then q
  else if d < twice then q + 1
  else if q % 2 = 0 then q else q + 1

/-- The exponent at which the positive ratio `n / d` fills the significand, but never less
than `minExponent`. -/
def exponentOf (n d : Nat) : Int :=
  let guess : Int := (Nat.log2 n : Int) - (Nat.log2 d : Int) - (precision : Int)
  let fits : Bool :=
    if 0 ≤ guess then n < Nat.pow 2 precision * (d * Nat.pow 2 guess.toNat)
    else n * Nat.pow 2 (-guess).toNat < Nat.pow 2 precision * d
  max minExponent (if fits then guess else guess + 1)

/-- The number nearest to the ratio `n / d`; of two equally near the even one. Past the
largest number it is infinite. -/
def ofRatio (negative : Bool) (n d : Nat) : Number :=
  if n = 0 then .finite negative 0 minExponent
  else
    let e := exponentOf n d
    let m :=
      if 0 ≤ e then divideToEven n (d * Nat.pow 2 e.toNat)
      else divideToEven (n * Nat.pow 2 (-e).toNat) d
    let (m, e) := if m = Nat.pow 2 precision then (Nat.pow 2 (precision - 1), e + 1) else (m, e)
    if maxExponent < e then .infinity negative else .finite negative m e

def ofNat (n : Nat) : Number := ofRatio false n 1

/-- The number stored in a 64-bit word: a sign bit, eleven exponent bits, fifty-two
fraction bits. -/
def ofBits (word : UInt64) : Number :=
  let negative := word >>> 63 == 1
  let field := ((word >>> 52) &&& 0x7ff).toNat
  let fraction := (word &&& 0xfffffffffffff).toNat
  if field = 0x7ff then (if fraction = 0 then .infinity negative else .nan)
  else if field = 0 then .finite negative fraction minExponent
  else .finite negative (Nat.pow 2 52 + fraction) ((field : Int) - 1075)

end Number

end LiteralFolding
