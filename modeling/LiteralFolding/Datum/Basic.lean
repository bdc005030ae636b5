-- Data of settings: what a document of any format or a variable can hold.
import LiteralFolding.Members
import LiteralFolding.Number.Reading
import LiteralFolding.Number.Written

namespace LiteralFolding

/-- A value of a document. -/
inductive Datum where
  | nothing
  | boolean (b : Bool)
  | integer (n : Int)
  | number (x : Number)
  | text (t : Text)
  | list (items : List Datum)
  | table (members : List (Text × Datum))

namespace Datum

/-- The members of a datum; what is no table has none. -/
def members : Datum → List (Text × Datum)
  | .table members => members
  | _ => []

/-- The items of a datum; what is no list has none. -/
def items : Datum → List Datum
  | .list items => items
  | _ => []

def members? : Datum → Option (List (Text × Datum))
  | .table members => some members
  | _ => none

/-- Whole numbers have 64 bits. -/
def isWord (n : Int) : Bool := -0x8000000000000000 ≤ n && n < 0x8000000000000000

/-- A whole number of 64 bits in a base, with an optional sign. -/
def readWord? (base : Nat) (t : Text) : Option Int :=
  let (negative, digits) := Number.takeSign t
  ((Text.wholeValue? base digits).map fun n => if negative then -(n : Int) else (n : Int)).filter isWord

def integerText (n : Int) : Text :=
  if n < 0 then '-' :: Nat.toDigits 10 n.natAbs else Nat.toDigits 10 n.natAbs

/-- A text, or a single value written as one. -/
def asText? : Datum → Option Text
  | .text t => some t
  | .boolean b => some (if b then "true".toList else "false".toList)
  | .integer n => some (integerText n)
  | .number x => some x.plainText
  | .nothing | .list _ | .table _ => none

end Datum

end LiteralFolding
