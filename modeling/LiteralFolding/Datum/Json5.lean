-- JSON5 documents: JSON with comments, bare names, two kinds of quotes, trailing commas and more
-- ways to write a number.
import LiteralFolding.Datum.Json
import LiteralFolding.Text.Blank
import LiteralFolding.Text.Letter
import LiteralFolding.Text.Shown

namespace LiteralFolding.Datum.Json5

/-! ## Blanks and comments -/

def isLineEnd (c : Char) : Bool := c = '\n' || c = '\r' || c = '\u2028' || c = '\u2029'

/-- White space, the byte order mark included. -/
def isSpace (c : Char) : Bool := c = '\ufeff' || (Text.isBlank c && c != '\x85')

def skipFiller (t : Text) : Text :=
  let spaceless := t.dropWhile isSpace
  let comment? : Option Text :=
    match spaceless with
    | '/' :: '/' :: rest => some (rest.dropWhile fun c => !isLineEnd c)
    | '/' :: '*' :: rest => (Text.cutAt ['*', '/'] rest).map (·.2)
    | _ => none
  match comment? with
  | some rest => if rest.length < t.length then skipFiller rest else spaceless
  | none => spaceless
termination_by t.length

/-! ## Texts and names -/

/-- What follows a backslash: a character, or nothing at the end of a line. Of the digits only
zero may follow. -/
def escape? : Text → Option (Option Char × Text)
  | 'u' :: t => (Literal.codeEscape? t).map fun (c, rest) => (some c, rest)
  | '0' :: t => some (some '\x00', t)
  | c :: t => if c.isDigit then none else Literal.escape? (c :: t)
  | [] => none

/-- A text after its opening quote. -/
def text? (quote : Char) : Text → Option (Text × Text)
  | [] => none
  | '\\' :: rest =>
    match escape? rest with
    | none => none
    | some (decoded, after) =>
      if after.length ≤ rest.length then
        (text? quote after).map fun (body, rest) => (decoded.toList ++ body, rest)
      else none
  | c :: rest =>
    if c = quote then some ([], rest)
    else if isLineEnd c then none
    else (text? quote rest).map fun (body, rest) => (c :: body, rest)
termination_by t => t.length

def startsName (c : Char) : Bool :=
  c = '$' || c = '_' || (Text.isLetter c && !Text.attachedRanges.has c)

def continuesName (c : Char) : Bool :=
  startsName c || Text.isNumeral c || Text.attachedRanges.has c || c = '\u203f' || c = '\u2040' ||
    c = '\u200c' || c = '\u200d'

/-- A bare name, or the rest of one after its start; its characters may be written as codes. -/
def name? (started : Bool) (t : Text) : Option (Text × Text) :=
  let goOn (c : Char) (rest : Text) : Option (Text × Text) :=
    if rest.length < t.length then (name? true rest).map fun (body, rest) => (c :: body, rest) else none
  match t with
  | '\\' :: 'u' :: rest => (Literal.codeEscape? rest).bind fun (c, after) => goOn c after
  | c :: rest =>
    if startsName c || (started && continuesName c) then goOn c rest
    else if started then some ([], t) else none
  | [] => if started then some ([], []) else none
termination_by t.length

def memberName? : Text → Option (Text × Text)
  | '\x22' :: t => text? '\x22' t
  | '\x27' :: t => text? '\x27' t
  | t => name? false t

/-! ## Numbers -/

/-- A point and the digits after it. -/
def fractionPart : Text → Text × Text
  | '.' :: t =>
    let (digits, rest) := Text.spanDigits 10 t
    ('.' :: digits, rest)
  | t => ([], t)

/-- A power of ten, if one is written out. -/
def exponentPart (t : Text) : Text × Text :=
  match t with
  | c :: u =>
    if c = 'e' ∨ c = 'E' then
      let (sign, u) :=
        match u with
        | '+' :: more => (['+'], more)
        | '-' :: more => (['-'], more)
        | u => ([], u)
      let (digits, rest) := Text.spanDigits 10 u
      if digits.isEmpty then ([], t) else (c :: sign ++ digits, rest)
    else ([], t)
  | [] => ([], [])

/-- A decimal number: a whole number of 64 bits, or, with a point or a power of ten, a finite
number. -/
def decimal? (sign : Text) (t : Text) : Option (Datum × Text) := do
  let (whole, rest) := Text.spanDigits 10 t
  let (fraction, rest) := fractionPart rest
  let (exponent, rest) := exponentPart rest
  if (whole.isEmpty ∧ fraction.length < 2) ∨ (whole.head? = some '0' ∧ whole.length ≠ 1) then none
  if fraction.isEmpty ∧ exponent.isEmpty then
    let n ← Text.wholeValue? 10 whole
    let n : Int := if sign = ['-'] then -(n : Int) else n
    if isWord n then some (.integer n, rest) else none
  else
    match ← Number.read? (sign ++ whole ++ fraction ++ exponent) with
    | .infinity _ => none
    | x => some (.number x, rest)

/-- A hexadecimal number of 32 bits. -/
def hexadecimal? (t : Text) : Option (Datum × Text) :=
  let (digits, rest) := Text.spanDigits 16 t
  ((Text.wholeValue? 16 digits).filter (· < Nat.pow 2 32)).map fun n => (.integer n, rest)

/-- Infinity or no number; a plus in front is refused. -/
def special? (sign : Text) (t : Text) : Option (Datum × Text) :=
  if sign = ['+'] then none
  else
    ((Text.strip? "Infinity".toList t).map (Datum.number (.infinity (sign = ['-'])), ·)).or
      ((Text.strip? "NaN".toList t).map (Datum.number .nan, ·))

def isHexadecimal : Text → Bool
  | '0' :: mark :: digit :: _ => (mark = 'x' || mark = 'X') && (Text.hexValue? digit).isSome
  | _ => false

def number? (t : Text) : Option (Datum × Text) :=
  let (sign, t) :=
    match t with
    | '+' :: more => (['+'], more)
    | '-' :: more => (['-'], more)
    | t => ([], t)
  if isHexadecimal t then (if sign.isEmpty then hexadecimal? (t.drop 2) else none)
  else (special? sign t).or (decimal? sign t)

/-! ## Values -/

def member? (value? : Reader Datum) (t : Text) : Option ((Text × Datum) × Text) := do
  let (name, t) ← memberName? t
  let t ← Text.strip? [':'] (skipFiller t)
  let (value, t) ← value? (skipFiller t)
  some ((name, value), t)

/-- A value at the start of a text, with at most `depth` levels of brackets. -/
def value? : (depth : Nat) → Reader Datum
  | _, '\x22' :: t => (text? '\x22' t).map fun (body, rest) => (.text body, rest)
  | _, '\x27' :: t => (text? '\x27' t).map fun (body, rest) => (.text body, rest)
  | 0, '[' :: _ => none
  | depth + 1, '[' :: t =>
    (Reader.bracketed skipFiller ']' true (value? depth) t).map fun (items, rest) => (.list items, rest)
  | 0, '\x7b' :: _ => none
  | depth + 1, '\x7b' :: t =>
    (Reader.bracketed skipFiller '\x7d' true (member? (value? depth)) t).map fun (pairs, rest) =>
      (.table (Members.ofPairs pairs), rest)
  | _, t => (Json.word? t).or (number? t)

/-- Reads a document; it may nest as deep as it is long. -/
def read? (t : Text) : Option Datum := Reader.whole? skipFiller (value? t.length) t

end LiteralFolding.Datum.Json5
