-- Declarations: the names a program introduces and what their initializers say.
import LiteralFolding.Source

namespace LiteralFolding

/-- What introduced a name. -/
inductive DeclarationKind where
  | constBinding
  | letBinding
  | varBinding
  | enumMember
  | function
  | classType
  | enumeration
  | namespaceBlock
  | importBinding
  | parameter
  deriving DecidableEq, Repr

namespace DeclarationKind

def word : DeclarationKind → String
  | .constBinding => "const"
  | .letBinding => "let"
  | .varBinding => "var"
  | .enumMember => "enum_member"
  | .function => "function"
  | .classType => "class"
  | .enumeration => "enum"
  | .namespaceBlock => "namespace"
  | .importBinding => "import"
  | .parameter => "parameter"

/-- Kinds whose initializer can give a name its text. -/
def bindsValue : DeclarationKind → Bool
  | .constBinding | .letBinding | .varBinding | .enumMember => true
  | _ => false

/-- Kinds whose members can be named through them. -/
def isContainer : DeclarationKind → Bool
  | .enumeration | .namespaceBlock => true
  | _ => false

end DeclarationKind

/-- The initializer of a declaration, as far as names are concerned. -/
inductive Initializer where
  | missing
  /-- A literal, by its text. -/
  | literal (text : Text)
  /-- Anything else, by its kind. -/
  | expression (kind : Kind)
  deriving DecidableEq, Repr

/-- One declared name. -/
structure Declaration where
  name : Text
  kind : DeclarationKind
  initializer : Initializer
  /-- The number of the source that declares it. -/
  source : Nat
  location : Location
  deriving DecidableEq, Repr

/-- The text that a name stands for, and where it comes from. -/
structure Binding where
  text : Text
  kind : DeclarationKind
  source : Nat
  declaredAt : Location
  deriving DecidableEq, Repr

/-- The binding that a declaration gives: a kind that binds values, with a literal. -/
def Declaration.binding? (d : Declaration) : Option Binding :=
  match d.initializer with
  | .literal text =>
    if d.kind.bindsValue then
      some { text, kind := d.kind, source := d.source, declaredAt := d.location }
    else none
  | _ => none

end LiteralFolding
