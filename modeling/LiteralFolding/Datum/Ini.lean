-- INI documents: keys with values, in sections. Every value is a text.
import LiteralFolding.Datum.Basic
import LiteralFolding.Text.Blank
import LiteralFolding.Text.Digit

namespace LiteralFolding.Datum.Ini

/-! ## Texts with escapes -/

def trimEnd (t : Text) : Text := (t.reverse.dropWhile Text.isBlank).reverse

def trim (t : Text) : Text := trimEnd (t.dropWhile Text.isBlank)

/-- What follows a backslash: a character, or nothing at the end of a line. -/
def escape? : Text → Option (Option Char × Text)
  | [] => none
  | '0' :: t => some (some '\x00', t)
  | 'a' :: t => some (some '\x07', t)
  | 'b' :: t => some (some '\x08', t)
  | 't' :: t => some (some '\t', t)
  | 'r' :: t => some (some '\r', t)
  | 'n' :: t => some (some '\n', t)
  | '\n' :: t => some (none, t)
  | 'x' :: t =>
    (Text.fixedValue? 16 4 t).bind fun (code, rest) => (Text.scalar? code).map (some ·, rest)
  | c :: t => some (some c, t)

/-- The decoded text before the first character that ends it, and the rest from that character
on. -/
def upTo? (isEnd : Char → Bool) : Text → Option (Text × Text)
  | [] => some ([], [])
  | c :: rest =>
    if isEnd c then some ([], c :: rest)
    else if c = '\\' then
      match escape? rest with
      | none => none
      | some (decoded, after) =>
        if after.length ≤ rest.length then
          (upTo? isEnd after).map fun (body, rest) => (decoded.toList ++ body, rest)
        else none
    else (upTo? isEnd rest).map fun (body, rest) => (c :: body, rest)
termination_by t => t.length

/-- The decoded text before a closing character, and what follows that. -/
def closedBy? (close : Char) (t : Text) : Option (Text × Text) :=
  match upTo? (· = close) t with
  | some (body, _ :: rest) => some (body, rest)
  | _ => none

/-! ## Values -/

def isLineEnd (c : Char) : Bool := c = '\n' || c = '\r'

/-- The rest of a value: quoted parts one after another, then what stands on the line without
quotes. Only the first part loses the white space in front of it. -/
def valueParts? (first : Bool) : Text → Option (Text × Text)
  | [] => some ([], [])
  | c :: inside =>
    if c = '\x22' ∨ c = '\x27' then
      match closedBy? c inside with
      | none => none
      | some (body, rest) =>
        if rest.length ≤ inside.length then
          (valueParts? false rest).map fun (more, rest) => (body ++ more, rest)
        else none
    else
      (upTo? isLineEnd (c :: inside)).map fun (body, rest) =>
        (if first then trim body else trimEnd body, rest)
termination_by t => t.length

def value? (t : Text) : Option (Text × Text) :=
  valueParts? true (t.dropWhile fun c => Text.isBlank c && !isLineEnd c)

/-! ## Lines -/

/-- What a part of the document says. -/
inductive Statement where
  | heading (name : Text)
  | assign (key value : Text)
  deriving DecidableEq, Repr

def endsLine (blank : Text) : Bool := blank.getLast? = some '\n'

/-- What follows the line that a text starts in. -/
def nextLine (t : Text) : Text := (t.dropWhile (· ≠ '\n')).drop 1

def assign? (t : Text) : Option (Statement × Text) := do
  let (key, rest) ← upTo? (fun c => c = '=' || c = ':') t
  let key := trim key
  if key.isEmpty ∨ rest.isEmpty then none
  let (value, rest) ← value? (rest.drop 1)
  some (.assign key value, rest)

/-- Reads all that a document says. A comment stands at the very start of a line, and `fresh` tells
whether the text does. -/
def statements? (fresh : Bool) (t : Text) : Option (List Statement) :=
  let blank := t.takeWhile Text.isBlank
  let fresh := if blank.isEmpty then fresh else endsLine blank
  match t.dropWhile Text.isBlank with
  | [] => some []
  | c :: rest =>
    if c = ';' ∨ c = '#' then
      if !fresh then none
      else if (nextLine rest).length < t.length then statements? true (nextLine rest) else none
    else
      let statement? : Option (Statement × Text) :=
        if c = '[' then (closedBy? ']' rest).map fun (name, rest) => (.heading (trim name), rest)
        else assign? (c :: rest)
      match statement? with
      | none => none
      | some (statement, after) =>
        if after.length < t.length then (statements? false after).map (statement :: ·) else none
termination_by t.length

/-! ## Documents -/

/-- A document while it is read: its members, and the open section with its own. -/
structure Draft where
  members : List (Text × Datum) := []
  open? : Option (Text × List (Text × Datum)) := none

namespace Draft

/-- Puts the open section among the members, over one of the same name. -/
def close (draft : Draft) : List (Text × Datum) :=
  match draft.open? with
  | none => draft.members
  | some (name, inside) => Members.put name (.table inside) draft.members

def step (draft : Draft) : Statement → Draft
  | .heading name => { members := draft.close, open? := some (name, []) }
  | .assign key value =>
    match draft.open? with
    | none => { draft with members := Members.put key (.text value) draft.members }
    | some (name, inside) => { draft with open? := some (name, Members.put key (.text value) inside) }

end Draft

def read? (t : Text) : Option Datum :=
  (statements? true t).map fun statements => .table (statements.foldl Draft.step {}).close

end LiteralFolding.Datum.Ini
