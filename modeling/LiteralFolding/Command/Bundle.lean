-- Bundles: the files, trees and variables that the command works on, as one text. Each line
-- says one thing, its parts with tabs between them, and paths and texts are written as quoted
-- literals.
import LiteralFolding.Command.Run
import LiteralFolding.Literal.Escape
import LiteralFolding.Tree.Row

namespace LiteralFolding.Command

/-- A source of a bundle with the rows of its tree, the last row first. -/
structure BundledSource where
  path : Text
  text : Text
  rows : List Row := []

/-- What a bundle holds, the last source first. -/
structure Bundle where
  store : Store := {}
  environment : List (Text × Text) := []
  sources : List BundledSource := []

namespace Bundle

def unquote? : Text → Option Text
  | '\x22' :: t => if t.getLast? = some '\x22' then Literal.decode? t.dropLast else none
  | _ => none

/-- The place of a path; bundles hold paths from the working directory. -/
def placeOf (path : Text) : Place :=
  (Text.splitAt '/' path).filter fun piece => !piece.isEmpty && piece != ['.']

/-- One more row for the last source. -/
def addRow (bundle : Bundle) (row : Row) : Option Bundle :=
  match bundle.sources with
  | [] => none
  | s :: rest => some { bundle with sources := { s with rows := row :: s.rows } :: rest }

/-- Takes up what a line says. -/
def step (bundle : Bundle) (line : Text) : Option Bundle :=
  match Text.splitAt '\t' line with
  | [word, path] => do
    let path ← unquote? path
    if word = "directory".toList then some { bundle with store := bundle.store.addDirectory (placeOf path) }
    else none
  | [word, first, second] => do
    let first ← unquote? first
    let second ← unquote? second
    if word = "file".toList then
      some { bundle with
        store := bundle.store.addFile (placeOf first) (.text second)
        sources := { path := first, text := second } :: bundle.sources }
    else if word = "bytes".toList then
      (Text.hexBytes? second).map fun bs =>
        { bundle with store := bundle.store.addFile (placeOf first) (.ofBytes bs) }
    else if word = "variable".toList then
      some { bundle with environment := bundle.environment ++ [(first, second)] }
    else none
  | _ => do
    let row ← Text.strip? "row\t".toList line
    bundle.addRow (← Row.ofLine? row)

def read? (t : Text) : Option Bundle :=
  ((Text.splitAt '\n' t).filter (!·.isEmpty)).foldlM step {}

/-- The tree of a text, as the bundle gives it. -/
def grammar (bundle : Bundle) : Grammar := fun dialect text =>
  (bundle.sources.find? fun s =>
    Dialect.ofPath? s.path = some dialect && s.text = text && !s.rows.isEmpty).bind
      fun s => Row.tree? s.rows.reverse

/-- What the command finds in a bundle. -/
def world (bundle : Bundle) : World :=
  { store := bundle.store, environment := bundle.environment, grammar := bundle.grammar }

def fileLines (files : List (Place × Text)) : Text :=
  files.flatMap fun (place, text) =>
    "file\t".toList ++ Literal.encode .double (place.foldl Path.join []) ++
      '\t' :: Literal.encode .double text ++ ['\n']

end Bundle

/-- What a run on a bundle says: its output, then the files it changed. -/
def bundledOutput (bundle : Bundle) (outcome : Outcome) : Text :=
  outcome.output ++ Bundle.fileLines (outcome.store.changedSince bundle.store)

end LiteralFolding.Command
