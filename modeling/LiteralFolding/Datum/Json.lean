-- JSON documents. Nesting has a limit, and a number with more digits than a 64-bit word holds is
-- rounded in steps.
import LiteralFolding.Datum.Basic
import LiteralFolding.Literal.Escape
import LiteralFolding.Number.Scaled
import LiteralFolding.Reader

namespace LiteralFolding.Datum.Json

def skipBlank (t : Text) : Text := t.dropWhile fun c => c = ' ' || c = '\n' || c = '\t' || c = '\r'

/-! ## Texts -/

def escape? : Text → Option (Char × Text)
  | '\x22' :: t => some ('\x22', t)
  | '\\' :: t => some ('\\', t)
  | '/' :: t => some ('/', t)
  | 'b' :: t => some ('\x08', t)
  | 'f' :: t => some ('\x0c', t)
  | 'n' :: t => some ('\n', t)
  | 'r' :: t => some ('\r', t)
  | 't' :: t => some ('\t', t)
  | 'u' :: t => Literal.codeEscape? t
  | _ => none

/-- A text after its opening quote. -/
def text? : Text → Option (Text × Text)
  | [] => none
  | '\x22' :: rest => some ([], rest)
  | '\\' :: rest =>
    match escape? rest with
    | none => none
    | some (c, after) =>
      if after.length ≤ rest.length then (text? after).map fun (body, rest) => (c :: body, rest) else none
  | c :: rest => if c < ' ' then none else (text? rest).map fun (body, rest) => (c :: body, rest)
termination_by t => t.length

/-! ## Numbers -/

/-- Digits taken into a word while it has room: the word, and how many digits it took. -/
def takeDigits (word : Nat) : Text → Nat × Nat
  | [] => (word, 0)
  | c :: digits =>
    let next := word * 10 + (c.toNat - '0'.toNat)
    if Nat.pow 2 64 ≤ next then (word, 0)
    else
      let (word, taken) := takeDigits next digits
      (word, taken + 1)

/-- The power of ten after the digits, and what follows it. -/
def exponent? (t : Text) : Option (Option Int × Text) :=
  match t with
  | c :: t =>
    if c = 'e' ∨ c = 'E' then
      let (negative, t) :=
        match t with
        | '+' :: more => (false, more)
        | '-' :: more => (true, more)
        | t => (false, t)
      let (digits, rest) := Text.spanDigits 10 t
      (Text.wholeValue? 10 digits).map fun n => (some (if negative then -(n : Int) else n), rest)
    else some (none, c :: t)
  | [] => some (none, [])

/-- A point with digits after it, or nothing. -/
def fraction? : Text → Option (Option Text × Text)
  | '.' :: t =>
    let (digits, rest) := Text.spanDigits 10 t
    if digits.isEmpty then none else some (some digits, rest)
  | t => some (none, t)

/-- The value of a number's parts. Digits that the word has no room for count for the size only,
those after the point for nothing. -/
def valueOf? (negative : Bool) (whole : Text) (fraction : Option Text) (exponent : Option Int) :
    Option Datum :=
  let (word, taken) := takeDigits 0 whole
  if fraction.isNone ∧ exponent.isNone ∧ taken = whole.length then
    let n : Int := if negative then -(word : Int) else word
    if isWord n ∧ ¬(negative ∧ word = 0) then some (.integer n)
    else some (.number (Number.ofRatio negative word 1))
  else
    let (word, shift) := takeDigits word (fraction.getD [])
    let power : Int := (whole.length - taken : Nat) - shift + exponent.getD 0
    (Number.scaled? negative (Number.ofNat word) power).map .number

/-- A number. Its whole part has no needless zero. -/
def number? (t : Text) : Option (Datum × Text) := do
  let (negative, t) :=
    match t with
    | '-' :: more => (true, more)
    | t => (false, t)
  let (whole, t) := Text.spanDigits 10 t
  if whole.isEmpty ∨ (whole.head? = some '0' ∧ whole.length ≠ 1) then none
  let (fraction, t) ← fraction? t
  let (exponent, t) ← exponent? t
  (valueOf? negative whole fraction exponent).map (·, t)

/-! ## Values -/

def words : List (String × Datum) := [("null", .nothing), ("true", .boolean true), ("false", .boolean false)]

def word? (t : Text) : Option (Datum × Text) :=
  words.findSome? fun (word, value) => (Text.strip? word.toList t).map (value, ·)

def member? (value? : Reader Datum) : Reader (Text × Datum)
  | '\x22' :: t => do
    let (name, t) ← text? t
    let t ← Text.strip? [':'] (skipBlank t)
    let (value, t) ← value? (skipBlank t)
    some ((name, value), t)
  | _ => none

/-- A document nests its values less deep than this. -/
def depthLimit : Nat := 128

/-- A value at the start of a text, with at most `depth` levels of brackets. -/
def value? : (depth : Nat) → Reader Datum
  | _, '\x22' :: t => (text? t).map fun (body, rest) => (.text body, rest)
  | 0, '[' :: _ => none
  | depth + 1, '[' :: t =>
    (Reader.bracketed skipBlank ']' false (value? depth) t).map fun (items, rest) => (.list items, rest)
  | 0, '\x7b' :: _ => none
  | depth + 1, '\x7b' :: t =>
    (Reader.bracketed skipBlank '\x7d' false (member? (value? depth)) t).map fun (pairs, rest) =>
      (.table (Members.ofPairs pairs), rest)
  | _, t => (word? t).or (number? t)

def read? (t : Text) : Option Datum := Reader.whole? skipBlank (value? (depthLimit - 1)) t

end LiteralFolding.Datum.Json
