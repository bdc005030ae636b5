-- Values without quotes or brackets: numbers, truth values, dates.
import LiteralFolding.Number.Reading
import LiteralFolding.Toml.Value

namespace LiteralFolding.Toml

/-- The digits of a number without the underscores between them. -/
def plainDigits? (base : Nat) (t : Text) : Option Text :=
  let pieces := Text.splitAt '_' t
  if pieces.all fun p => (Text.wholeValue? base p).isSome then some pieces.flatten else none

/-- Decimal digits that do not start with a needless zero. -/
def countDigits? (t : Text) : Option Text :=
  (plainDigits? 10 t).filter fun digits => digits.length = 1 || digits.head? != some '0'

/-- A whole number in base ten, or with its base in front. -/
def integer? (t : Text) : Option Int :=
  let based (base : Nat) (t : Text) : Option Int :=
    ((plainDigits? base t).bind (Text.wholeValue? base)).map Int.ofNat
  let n? : Option Int :=
    match t with
    | '0' :: 'x' :: t => based 16 t
    | '0' :: 'o' :: t => based 8 t
    | '0' :: 'b' :: t => based 2 t
    | t =>
      let (negative, t) := Number.takeSign t
      ((countDigits? t).bind (Text.wholeValue? 10)).map fun n => if negative then -(n : Int) else n
  n?.filter Datum.isWord

/-- The exponent of a number, without underscores. -/
def exponent? : Text → Option Text
  | [] => some []
  | mark :: t =>
    if mark = 'e' ∨ mark = 'E' then
      match t with
      | '+' :: t => (plainDigits? 10 t).map ('e' :: ·)
      | '-' :: t => (plainDigits? 10 t).map ('e' :: '-' :: ·)
      | t => (plainDigits? 10 t).map ('e' :: ·)
    else none

def isDigitPart (c : Char) : Bool := c.isDigit || c = '_'

/-- The plain digits of a number with a fraction, an exponent or both. -/
def floatDigits? (t : Text) : Option Text := do
  let whole ← countDigits? (t.takeWhile isDigitPart)
  match t.dropWhile isDigitPart with
  | [] => none
  | '.' :: t =>
    let fraction ← plainDigits? 10 (t.takeWhile isDigitPart)
    let exponent ← exponent? (t.dropWhile isDigitPart)
    some (whole ++ '.' :: fraction ++ exponent)
  | t => (exponent? t).map (whole ++ ·)

/-- A number with a fraction, infinity, or no number. One that is too large is refused. -/
def float? (t : Text) : Option Number :=
  let (negative, body) := Number.takeSign t
  if body = ['i', 'n', 'f'] then some (.infinity negative)
  else if body = ['n', 'a', 'n'] then some .nan
  else do
    let digits ← floatDigits? body
    let x ← Number.read? (if negative then '-' :: digits else digits)
    match x with
    | .infinity false => none
    | x => some x

/-- What a word without quotes stands for. -/
def scalar? (word : Text) : Option Toml :=
  if word = "true".toList then some (.boolean true)
  else if word = "false".toList then some (.boolean false)
  else
    ((datetime? word).map Toml.datetime).or
      (((float? word).map Toml.float).or ((integer? word).map Toml.integer))

def isWordChar (c : Char) : Bool :=
  c.isAlphanum || c = '+' || c = '-' || c = '_' || c = '.' || c = ':'

/-- The word at the start of a text. A date and a time may have one space between them. -/
def word (t : Text) : Text × Text :=
  let first := t.takeWhile isWordChar
  let rest := t.dropWhile isWordChar
  match (date? first).filter (·.2.isEmpty), rest with
  | some _, ' ' :: a :: b :: ':' :: more =>
    if a.isDigit && b.isDigit then
      let tail := a :: b :: ':' :: more
      (first ++ ' ' :: tail.takeWhile isWordChar, tail.dropWhile isWordChar)
    else (first, rest)
  | _, _ => (first, rest)

end LiteralFolding.Toml
