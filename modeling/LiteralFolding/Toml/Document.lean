-- Documents: lines that give keys their values and open tables.
import LiteralFolding.Reader
import LiteralFolding.Toml.Quoted
import LiteralFolding.Toml.Scalar

namespace LiteralFolding.Toml

/-! ## Blanks, comments and line ends -/

def skipSpace (t : Text) : Text := t.dropWhile isSpace

def skipComment : Text → Text
  | '#' :: t => t.dropWhile isPlain
  | t => t

/-- The rest after the end of a line, which may hold blanks and a comment only. -/
def lineEnd? (t : Text) : Option Text :=
  let rest := skipComment (skipSpace t)
  if rest.isEmpty then some [] else lineBreak? rest

/-- Drops blanks, comments and line ends inside brackets. -/
def skipFiller (t : Text) : Text :=
  let spaceless := skipSpace t
  match lineBreak? (skipComment spaceless) with
  | none => spaceless
  | some rest => if rest.length < t.length then skipFiller rest else spaceless
termination_by t.length

/-! ## Keys -/

def isBare (c : Char) : Bool := c.isAlphanum || c = '_' || c = '-'

def keyPart? : Text → Option (Text × Text)
  | '\x22' :: t => basic? t
  | '\x27' :: t => literal? t
  | t =>
    let part := t.takeWhile isBare
    if part.isEmpty then none else some (part, t.dropWhile isBare)

/-- A key, as its parts between dots; blanks around the parts do not count. -/
def key? (t : Text) : Option (List Text × Text) :=
  match keyPart? (skipSpace t) with
  | none => none
  | some (part, rest) =>
    match skipSpace rest with
    | '.' :: more => if more.length < t.length then (key? more).map fun (path, after) => (part :: path, after)
      else none
    | after => some ([part], after)
termination_by t.length

/-- A document nests its values and keys less deep than this. -/
def depthLimit : Nat := 80

/-- A key that is not too deep. -/
def path? (t : Text) : Option (List Text × Text) := (key? t).filter fun (path, _) => path.length < depthLimit

/-! ## Values -/

def pair? (item : Reader Toml) (t : Text) : Option ((List Text × Toml) × Text) := do
  let (path, t) ← path? t
  let t ← Text.strip? ['='] t
  let (value, t) ← item (skipSpace t)
  some ((path, value), t)

def inlineTable? (pairs : List (List Text × Toml)) : Option Toml := do
  let t : Table ← pairs.foldlM (fun t (path, value) => t.assign path value) ⟨.inline, []⟩
  some (.table .inline t.members)

/-- A value at the start of a text, with at most `depth` levels of brackets. -/
def value? : (depth : Nat) → Reader Toml
  | _, '\x22' :: t => (quoted? ('\x22' :: t)).map fun (text, rest) => (.string text, rest)
  | _, '\x27' :: t => (quoted? ('\x27' :: t)).map fun (text, rest) => (.string text, rest)
  | 0, '[' :: _ => none
  | depth + 1, '[' :: t =>
    (Reader.bracketed skipFiller ']' true (value? depth) t).map fun (items, rest) => (.array items, rest)
  | 0, '\x7b' :: _ => none
  | depth + 1, '\x7b' :: t =>
    (Reader.bracketed skipSpace '\x7d' false (pair? (value? depth)) t).bind fun (pairs, rest) =>
      (inlineTable? pairs).map (·, rest)
  | _, t =>
    let (word, rest) := word t
    (scalar? word).map (·, rest)

/-! ## Lines -/

/-- What a line says. -/
inductive Statement where
  | assign (path : List Text) (value : Toml)
  | openTable (path : List Text)
  | openElement (path : List Text)

def line? (t : Text) : Option (Option Statement × Text) :=
  match skipSpace t with
  | '[' :: '[' :: t => do
    let (path, t) ← path? t
    let t ← Text.strip? [']', ']'] t
    (lineEnd? t).map (some (.openElement path), ·)
  | '[' :: t => do
    let (path, t) ← path? t
    let t ← Text.strip? [']'] t
    (lineEnd? t).map (some (.openTable path), ·)
  | u =>
    match lineEnd? u with
    | some rest => some (none, rest)
    | none => do
      let ((path, value), t) ← pair? (value? (depthLimit - 1)) u
      (lineEnd? t).map (some (.assign path value), ·)

def statements? (t : Text) : Option (List Statement) :=
  if t.isEmpty then some []
  else
    match line? t with
    | none => none
    | some (statement, rest) =>
      if rest.length < t.length then (statements? rest).map (statement.toList ++ ·) else none
termination_by t.length

/-- A document while it is read: its tables, and the path of the open one. -/
structure Draft where
  root : Table := ⟨.header, []⟩
  path : List Text := []

def Draft.step (draft : Draft) : Statement → Option Draft
  | .assign path value =>
    (draft.root.change .implied (·.assign path value) draft.path).map fun root => { draft with root }
  | .openTable path => (draft.root.openTable path).map fun root => { root, path }
  | .openElement path => (draft.root.openElement path).map fun root => { root, path }

/-- Reads a document; a byte order mark in front does not count. -/
def read? (t : Text) : Option (List (Text × Toml)) := do
  let statements ← statements? ((Text.strip? ['\ufeff'] t).getD t)
  (statements.foldlM Draft.step {}).map (·.root.members)

end LiteralFolding.Toml
