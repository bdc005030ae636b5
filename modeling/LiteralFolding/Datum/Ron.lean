-- RON documents: values with named fields, tuples, options, lists and maps. Names of types say
-- nothing here.
import LiteralFolding.Datum.Basic
import LiteralFolding.Reader

namespace LiteralFolding.Datum.Ron

/-! ## Blanks and comments -/

def isSpace (c : Char) : Bool := c = ' ' || c = '\n' || c = '\t' || c = '\r'

/-- What follows a comment inside `level` opening marks; such comments nest. -/
def afterComment? : (level : Nat) → Text → Option Text
  | level, '/' :: '*' :: t => afterComment? (level + 1) t
  | level, '*' :: '/' :: t => if level ≤ 1 then some t else afterComment? (level - 1) t
  | level, _ :: t => afterComment? level t
  | _, [] => none

def skipFiller (t : Text) : Text :=
  let spaceless := t.dropWhile isSpace
  let comment? : Option Text :=
    match spaceless with
    | '/' :: '/' :: rest => some (rest.dropWhile (· ≠ '\n'))
    | '/' :: '*' :: rest => afterComment? 1 rest
    | _ => none
  match comment? with
  | some rest => if rest.length < t.length then skipFiller rest else spaceless
  | none => spaceless
termination_by t.length

/-! ## Names -/

def startsName (c : Char) : Bool := c.isAlpha || c = '_'

def continuesName (c : Char) : Bool := c.isAlphanum || c = '_'

def isRawNameChar (c : Char) : Bool := continuesName c || c = '.' || c = '+' || c = '-'

/-- A name. What only a raw name may hold must not follow it. -/
def name? : Text → Option (Text × Text)
  | 'r' :: '\x22' :: _ => none
  | 'r' :: '#' :: t =>
    let name := t.takeWhile isRawNameChar
    if name.isEmpty then none else some (name, t.dropWhile isRawNameChar)
  | c :: t =>
    let rest := t.dropWhile continuesName
    if startsName c && !rest.head?.any isRawNameChar then some (c :: t.takeWhile continuesName, rest)
    else none
  | [] => none

/-- A word at the start of a text that no longer name starts with. -/
def word? (word : String) (t : Text) : Option Text :=
  (Text.strip? word.toList t).filter fun rest => !rest.head?.any continuesName

/-! ## Texts -/

def escape? : Text → Option (Char × Text)
  | '\x27' :: t => some ('\x27', t)
  | '\x22' :: t => some ('\x22', t)
  | '\\' :: t => some ('\\', t)
  | 'n' :: t => some ('\n', t)
  | 'r' :: t => some ('\r', t)
  | 't' :: t => some ('\t', t)
  | 'x' :: t => (Text.fixedValue? 16 2 t).bind fun (code, rest) => (Text.scalar? code).map (·, rest)
  | 'u' :: '\x7b' :: t => do
    let (digits, rest) := Text.spanDigits 16 t
    let rest ← Text.strip? ['\x7d'] rest
    if 6 < digits.length then none
    ((Text.wholeValue? 16 digits).bind Text.scalar?).map (·, rest)
  | _ => none

/-- A text after its opening quote. -/
def text? : Text → Option (Text × Text)
  | [] => none
  | '\x22' :: rest => some ([], rest)
  | '\\' :: rest =>
    match escape? rest with
    | none => none
    | some (c, after) =>
      if after.length ≤ rest.length then (text? after).map fun (body, rest) => (c :: body, rest) else none
  | c :: rest => (text? rest).map fun (body, rest) => (c :: body, rest)
termination_by t => t.length

/-- A raw text after its letter: as many number signs behind it as in front of it. -/
def rawText? (t : Text) : Option (Text × Text) := do
  let signs := t.takeWhile (· = '#')
  let inside ← Text.strip? ['\x22'] (t.dropWhile (· = '#'))
  Text.cutAt ('\x22' :: signs) inside

/-- A single character after its opening quote. -/
def char? : Text → Option (Char × Text)
  | '\\' :: t => do
    let (c, t) ← escape? t
    (Text.strip? ['\x27'] t).map (c, ·)
  | c :: '\x27' :: t => if c = '\x27' then none else some (c, t)
  | _ => none

/-! ## Numbers -/

def isFloatChar (c : Char) : Bool :=
  c.isDigit || c = 'e' || c = 'E' || c = '.' || c = '+' || c = '-' || c = '_'

def isIntegerChar (c : Char) : Bool := (Text.hexValue? c).isSome || c = '_'

/-- A number with a fraction or an exponent; underscores are refused. -/
def float? (t : Text) : Option (Datum × Text) :=
  let run := t.takeWhile isFloatChar
  if run.contains '_' then none
  else (Number.read? run).map fun x => (.number x, t.dropWhile isFloatChar)

/-- The base of a whole number, and its digits with what follows. -/
def baseOf : Text → Nat × Text
  | '0' :: 'x' :: t => (16, t)
  | '0' :: 'b' :: t => (2, t)
  | '0' :: 'o' :: t => (8, t)
  | t => (10, t)

/-- A whole number after its sign. With a sign it has 64 bits; without one it may have one bit
more, and is a number with a fraction then. -/
def integer? (sign : Option Char) (t : Text) : Option (Datum × Text) := do
  let (base, t) := baseOf t
  let run := t.takeWhile isIntegerChar
  if run.head? = some '_' then none
  let n ← Text.wholeValue? base (run.filter (· ≠ '_'))
  let value : Int := if sign = some '-' then -(n : Int) else n
  let rest := t.dropWhile isIntegerChar
  if isWord value then some (.integer value, rest)
  else if sign.isNone ∧ n < Nat.pow 2 64 then some (.number (Number.ofNat n), rest)
  else none

/-- A number. What is no whole number is read as one with a fraction. -/
def number? (t : Text) : Option (Datum × Text) :=
  let (sign, body) : Option Char × Text :=
    match t with
    | '+' :: more => (some '+', more)
    | '-' :: more => (some '-', more)
    | t => (none, t)
  if (body.takeWhile isIntegerChar).length < (body.takeWhile isFloatChar).length then float? t
  else (integer? sign body).or (float? t)

/-! ## Values -/

def words : List (String × Datum) :=
  [("true", .boolean true), ("false", .boolean false), ("None", .nothing),
    ("inf", .number (.infinity false)), ("-inf", .number (.infinity true)), ("NaN", .number .nan)]

/-- One of the words, or the empty pair of brackets. -/
def constant? (t : Text) : Option (Datum × Text) :=
  (words.findSome? fun (word, value) => (word? word t).map (value, ·)).or
    ((Text.strip? ['(', ')'] t).map (Datum.nothing, ·))

/-- A value with its key in front. -/
def keyed? (key? : Reader Text) (value? : Reader Datum) (t : Text) : Option ((Text × Datum) × Text) := do
  let (key, t) ← key? t
  let t ← Text.strip? [':'] (skipFiller t)
  let (value, t) ← value? (skipFiller t)
  some ((key, value), t)

/-- A text as the key of a map. -/
def mapKey? (value? : Reader Datum) (t : Text) : Option (Text × Text) := do
  match ← value? t with
  | (.text key, rest) => some (key, rest)
  | _ => none

def hasFields (t : Text) : Bool :=
  match name? t with
  | some (_, rest) => (skipFiller rest).head? = some ':'
  | none => false

/-- Named fields or the values of a tuple, after the opening bracket. -/
def fields? (value? : Reader Datum) (t : Text) : Option (Datum × Text) :=
  if hasFields (skipFiller t) then
    (Reader.bracketed skipFiller ')' true (keyed? name? value?) t).map fun (pairs, rest) =>
      (.table (Members.ofPairs pairs), rest)
  else
    (Reader.bracketed skipFiller ')' true value? t).map fun (items, rest) => (.list items, rest)

/-- What an option holds, after its word. -/
def held? (value? : Reader Datum) (t : Text) : Option (Datum × Text) := do
  let t ← Text.strip? ['('] (skipFiller t)
  match ← Reader.bracketed skipFiller ')' true value? t with
  | ([value], rest) => some (value, rest)
  | _ => none

/-- A document nests its values less deep than this. -/
def depthLimit : Nat := 65

/-- A value at the start of a text, with less than `depth` levels of brackets. -/
def value? : (depth : Nat) → Reader Datum
  | 0, _ => none
  | depth + 1, t =>
    (constant? t).or <|
      match word? "Some" t with
      | some rest => held? (value? depth) rest
      | none =>
        match name? t with
        | some (_, rest) =>
          match skipFiller rest with
          | '(' :: inside => fields? (value? depth) inside
          | rest => some (.nothing, rest)
        | none =>
          match t with
          | '(' :: inside => fields? (value? depth) inside
          | '[' :: inside =>
            (Reader.bracketed skipFiller ']' true (value? depth) inside).map fun (items, rest) =>
              (.list items, rest)
          | '\x7b' :: inside =>
            (Reader.bracketed skipFiller '\x7d' true (keyed? (mapKey? (value? depth)) (value? depth)) inside).map
              fun (pairs, rest) => (.table (Members.ofPairs pairs), rest)
          | '\x22' :: inside => (text? inside).map fun (body, rest) => (.text body, rest)
          | 'r' :: inside => (rawText? inside).map fun (body, rest) => (.text body, rest)
          | '\x27' :: inside => (char? inside).map fun (c, rest) => (.text [c], rest)
          | t => number? t

/-! ## Documents -/

def extensions : List String := ["unwrap_newtypes", "implicit_some", "unwrap_variant_newtypes"]

def extension? (t : Text) : Option (Text × Text) :=
  (name? t).filter fun (name, _) => extensions.any (·.toList = name)

/-- Takes parts off a text, with filler before each. -/
def parts? (parts : List String) (t : Text) : Option Text :=
  parts.foldlM (fun t part => Text.strip? part.toList (skipFiller t)) t

/-- Drops the requests for extensions in front of a document. -/
def skipRequests? (t : Text) : Option Text :=
  match skipFiller t with
  | '#' :: _ =>
    match (parts? ["#", "!", "[", "enable", "("] t).bind (Reader.items skipFiller ')' true extension?) with
    | none => none
    | some (_, rest) =>
      match parts? ["]"] rest with
      | none => none
      | some rest => if rest.length < t.length then skipRequests? rest else none
  | rest => some rest
termination_by t.length

def read? (t : Text) : Option Datum :=
  (skipRequests? t).bind (Reader.whole? skipFiller (value? depthLimit))

end LiteralFolding.Datum.Ron
