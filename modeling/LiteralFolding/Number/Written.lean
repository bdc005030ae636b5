-- How a number is written: as a script shows it, with an exponent for very large and very
-- small values, or plainly, with every zero.
import LiteralFolding.Number.Shortest

namespace LiteralFolding

namespace Decimal

/-- Every digit in its place: zeros fill the gap to the point. -/
def positional (d : Decimal) : Text :=
  let k := d.digits.length
  if d.point ≤ 0 then
    "0.".toList ++ List.replicate (-d.point).toNat '0' ++ d.digits
  else if k ≤ d.point.toNat then
    d.digits ++ List.replicate (d.point.toNat - k) '0'
  else
    d.digits.take d.point.toNat ++ '.' :: d.digits.drop d.point.toNat

/-- One digit before the point and a signed exponent. -/
def exponential (d : Decimal) : Text :=
  let e := d.point - 1
  let sign := if 0 ≤ e then '+' else '-'
  let lead := d.digits.take 1
  let tail := d.digits.drop 1
  lead ++ (if tail.isEmpty then [] else '.' :: tail) ++ 'e' :: sign :: digitsOf e.natAbs

/-- Positional between a millionth and `10 ^ 21`, exponential outside. -/
def scripted (d : Decimal) : Text :=
  if -6 < d.point ∧ d.point ≤ 21 then d.positional else d.exponential

end Decimal

namespace Number

/-- The text of a number in a script. Both zeros read `0`. -/
def text : Number → Text
  | .nan => "NaN".toList
  | .infinity negative => (if negative then ['-'] else []) ++ "Infinity".toList
  | .finite negative significand exponent =>
    if significand = 0 then ['0']
    else (if negative then ['-'] else []) ++ (shortest significand exponent).scripted

/-- The plain text of a number: never an exponent, and a negative zero keeps its sign. -/
def plainText : Number → Text
  | .nan => "NaN".toList
  | .infinity negative => (if negative then ['-'] else []) ++ "inf".toList
  | .finite negative significand exponent =>
    (if negative then ['-'] else []) ++
      (if significand = 0 then ['0'] else (shortest significand exponent).positional)

end Number

end LiteralFolding
