-- Numbers read from text: decimals, and digit sequences in another base.
import LiteralFolding.Text.Digit
import LiteralFolding.Number.Basic

namespace LiteralFolding.Number

/-- The number nearest to `n * 10 ^ power`. Far outside the range of numbers the answer is
settled by the position of the first digit alone. -/
def ofDecimal (negative : Bool) (n : Nat) (power : Int) : Number :=
  let top : Int := (Nat.toDigits 10 n).length + power
  if n = 0 ∨ top < -400 then .finite negative 0 minExponent
  else if 400 < top then .infinity negative
  else ofRatio negative (n * Nat.pow 10 power.toNat) (Nat.pow 10 (-power).toNat)

/-- Takes an optional sign off; is it a minus? -/
def takeSign : Text → Bool × Text
  | '-' :: t => (true, t)
  | '+' :: t => (false, t)
  | t => (false, t)

/-- The power of ten after the digits: nothing, or `e` with a whole number. -/
def readPower? : Text → Option Int
  | [] => some 0
  | c :: t =>
    if c = 'e' ∨ c = 'E' then
      let (negative, digits) := takeSign t
      (Text.wholeValue? 10 digits).map fun n => if negative then -(n : Int) else n
    else none

/-- Digits with an optional point, at least one of them, then an optional power of ten. -/
def readUnsigned? (negative : Bool) (t : Text) : Option Number :=
  let (whole, rest) := Text.spanDigits 10 t
  let (fraction, rest) :=
    match rest with
    | '.' :: more => Text.spanDigits 10 more
    | _ => ([], rest)
  match Text.wholeValue? 10 (whole ++ fraction), readPower? rest with
  | some n, some power => some (ofDecimal negative n (power - fraction.length))
  | _, _ => none

/-- A signed decimal, or the words for infinity and for no number, in any case. -/
def read? (t : Text) : Option Number :=
  let (negative, t) := takeSign t
  let word := String.ofList (Text.lowerAscii t)
  if word = "nan" then some .nan
  else if word = "inf" ∨ word = "infinity" then some (.infinity negative)
  else readUnsigned? negative t

/-- The whole number that a number is, its fraction cut off. -/
def whole? : Number → Option Nat
  | .finite _ significand exponent =>
    some (if 0 ≤ exponent then significand * Nat.pow 2 exponent.toNat
      else significand / Nat.pow 2 (-exponent).toNat)
  | _ => none

/-- One more digit at the end, rounded. -/
def append (base : Nat) (acc : Number) (digit : Nat) : Number :=
  match acc.whole? with
  | some n => ofNat (n * base + digit)
  | none => acc

/-- Digits in base `base`, rounded after each digit. -/
def readBase? (base : Nat) (t : Text) : Option Number :=
  if t.isEmpty then none
  else t.foldlM (fun acc c => (Text.digitValue? base c).map (acc.append base)) zero

end LiteralFolding.Number
