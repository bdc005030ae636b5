-- Sources: the text of a file with its syntax tree, and what can be asked of both together.
import LiteralFolding.Dialect
import LiteralFolding.Text.Shown
import LiteralFolding.Tree.Position

namespace LiteralFolding

/-- One file of a program. -/
structure Source where
  /-- Its number in the program. -/
  index : Nat
  path : Text
  dialect : Dialect
  text : Text
  tree : Tree

/-- Makes a tree of a text, unless the grammar has none for it. -/
abbrev Grammar := Dialect → Text → Option Tree

/-- Why a text does not become a source. -/
inductive SourceError where
  | noGrammar (path : Text)
  | noTree (path : Text)
  deriving DecidableEq, Repr

def SourceError.message : SourceError → Text
  | .noGrammar path =>
    "Parse error in ".toList ++ path ++ ": no grammar registered for this file extension".toList
  | .noTree path => "Parse error in ".toList ++ path ++ ": parser produced no tree".toList

namespace Source

/-- Reads a text by the grammar of its path's extension. -/
def read (grammar : Grammar) (path text : Text) : Except SourceError Source :=
  match Dialect.ofPath? path with
  | none => .error (.noGrammar path)
  | some dialect =>
    match grammar dialect text with
    | none => .error (.noTree path)
    | some tree => .ok { index := 0, path, dialect, text, tree }

/-- Numbers the sources of a program in their order. -/
def number (sources : List Source) : List Source :=
  sources.zipIdx.map fun (s, i) => { s with index := i }

def textOf (s : Source) (n : Node) : Text := (Text.slice s.text n.span.start n.span.stop).getD []

def locationOf (s : Source) (n : Node) : Location := Location.ofSpan s.text n.span

/-- One line about a source, for inspection. -/
def inspect (s : Source) : Text :=
  let dialect :=
    match s.dialect with
    | .typeScript => "TypeScript"
    | .tsx => "Tsx"
    | .javaScript => "JavaScript"
  s!"SourceUnit \x7b id: UnitId({s.index}), path: ".toList ++ Text.shown s.path ++
    s!", dialect: {dialect}, len: {Text.byteLength s.text} \x7d".toList

/-- A source with an import or export at its top keeps its names to itself. -/
def isModule (s : Source) : Bool :=
  s.tree.namedChildren.any fun t => t.kind = .importStatement || t.kind = .exportStatement

end Source

end LiteralFolding
