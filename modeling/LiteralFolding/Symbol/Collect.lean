-- Collecting declarations: one walk over each source, top down, with the scopes that are open
-- at each place.
import LiteralFolding.Expression
import LiteralFolding.Symbol.Pattern
import LiteralFolding.Symbol.Table

namespace LiteralFolding

/-- The scopes that declarations at a place go to. -/
structure Frame where
  /-- Takes the names that a block keeps. -/
  block : Scope
  /-- Takes the names that reach up to the function. -/
  function : Scope
  /-- The namespace whose exported declarations become its members. -/
  container : Option Nat
  deriving DecidableEq, Repr

namespace SymbolTable

/-- What a value says as an initializer. -/
def initializerOf (s : Source) : Option Tree → Initializer
  | none => .missing
  | some value =>
    match s.literalText? value with
    | some text => .literal text
    | none => .expression value.kind

def declarationAt (s : Source) (name : Node) (kind : DeclarationKind) (initializer : Initializer) :
    Declaration :=
  { name := s.textOf name, kind, initializer, source := s.index, location := s.locationOf name }

/-- Declares names without initializers in one scope. -/
def addNames (table : SymbolTable) (s : Source) (scope : Scope) (kind : DeclarationKind)
    (names : List Node) : SymbolTable :=
  names.foldl (fun table name => (table.add scope (declarationAt s name kind .missing)).1) table

/-- Declares a name, and makes it a member of the open namespace when it is exported. -/
def addExported (table : SymbolTable) (frame : Frame) (exported : Bool) (scope : Scope)
    (d : Declaration) : SymbolTable × Nat :=
  let (table, id) := table.add scope d
  match exported, frame.container with
  | true, some container => (table.bind (.members container) d.name id, id)
  | _, _ => (table, id)

/-! ## One kind of declaration at a time -/

/-- The names of one declarator with what initializes them. Only a plain name takes the
initializer; a pattern takes the value apart. -/
def declaratorNames (s : Source) (declarator : Tree) : List (Node × Initializer) :=
  match declarator.child? .name with
  | none => []
  | some name =>
    if name.kind = .identifier then [(name.node, initializerOf s (declarator.child? .value))]
    else name.boundNames.map (·, .missing)

/-- Declares the variables of a declaration. -/
def addVariables (table : SymbolTable) (s : Source) (frame : Frame) (exported : Bool)
    (kind : DeclarationKind) (scope : Scope) (t : Tree) : SymbolTable :=
  let declarators := t.namedChildren.filter (·.kind = .variableDeclarator)
  (declarators.flatMap (declaratorNames s)).foldl
    (fun table (name, initializer) =>
      (table.addExported frame exported scope (declarationAt s name kind initializer)).1)
    table

/-- Declares a function, class or the like by its name. -/
def addNamed (table : SymbolTable) (s : Source) (frame : Frame) (exported : Bool)
    (kind : DeclarationKind) (t : Tree) : SymbolTable :=
  match t.child? .name with
  | none => table
  | some name =>
    (table.addExported frame exported frame.block
      (declarationAt s name.node kind (.expression t.kind))).1

def parameterNames (t : Tree) : List Node :=
  let single := (t.child? .parameter).toList.flatMap (·.boundNames)
  let listed := (t.child? .parameters).toList.flatMap (·.namedChildren)
  single ++ listed.flatMap fun p => ((p.child? .pattern).getD p).boundNames

/-- Kinds of a function that can refer to itself by its own name. -/
def namesItself : Kind → Bool
  | .functionExpression | .functionKeyword | .generatorFunction => true
  | _ => false

/-- Declares the parameters of a function in its own scope, and its own name after them. -/
def addParameters (table : SymbolTable) (s : Source) (scope : Scope) (t : Tree) : SymbolTable :=
  let table := table.addNames s scope .parameter (parameterNames t)
  match namesItself t.kind, t.child? .name with
  | true, some name => (table.add scope (declarationAt s name.node .function (.expression t.kind))).1
  | _, _ => table

/-- The member that an entry of an enumeration declares. A quoted name counts by its text. -/
def enumMember? (s : Source) (entry : Tree) : Option Declaration :=
  let member (name : Tree) (value : Option Tree) : Declaration :=
    { declarationAt s name.node .enumMember (initializerOf s value) with
      name :=
        if name.kind = .string then (s.literalText? name).getD [] else s.textOf name.node }
  match entry.kind with
  | .comment => none
  | .enumAssignment => (entry.child? .name).map fun name => member name (entry.child? .value)
  | _ => some (member entry none)

def addEnumeration (table : SymbolTable) (s : Source) (frame : Frame) (exported : Bool) (t : Tree) :
    SymbolTable :=
  match t.child? .name with
  | none => table
  | some name =>
    let (table, id) :=
      table.addExported frame exported frame.block
        (declarationAt s name.node .enumeration (.expression t.kind))
    let entries := (t.child? .body).toList.flatMap (·.namedChildren)
    (entries.filterMap (enumMember? s)).foldl (fun table d => (table.add (.members id) d).1) table

/-- Declares a namespace, a dotted one as namespaces inside one another, and gives the
innermost. -/
def addNamespace (table : SymbolTable) (s : Source) (frame : Frame) (exported : Bool) (t : Tree) :
    SymbolTable × Option Nat :=
  match (t.child? .name).bind (·.namespaceParts?) with
  | some (first :: rest) =>
    let declare (name : Node) := declarationAt s name .namespaceBlock (.expression t.kind)
    let (table, id) := table.addExported frame exported frame.block (declare first)
    let (table, id) :=
      rest.foldl (fun (table, id) name => table.add (.members id) (declare name)) (table, id)
    (table, some id)
  | _ => (table, none)

/-- Declares what a `for … in` or `for … of` loop binds. -/
def addLoopNames (table : SymbolTable) (s : Source) (frame : Frame) (own : Scope) (t : Tree) :
    SymbolTable :=
  match t.child? .keyword, t.child? .left with
  | some keyword, some left =>
    match keyword.kind with
    | .varKeyword => table.addNames s frame.function .varBinding left.boundNames
    | .constKeyword => table.addNames s own .constBinding left.boundNames
    | _ => table.addNames s own .letBinding left.boundNames
  | _, _ => table

/-! ## The walk -/

/-- Declares what the node at a position declares, and gives the namespace that it opens. -/
def declareAt (table : SymbolTable) (s : Source) (frame : Frame) (p : Position) :
    SymbolTable × Option Nat :=
  let own := Scope.place s.index p.route
  let table := if p.kind.isFunctionLike then table.addParameters s own p.tree else table
  let exported := p.parentKind? = some .exportStatement
  match p.kind with
  | .lexicalDeclaration =>
    let kind :=
      if (p.tree.children.head?.map (·.kind)) = some .constKeyword then DeclarationKind.constBinding
      else .letBinding
    (table.addVariables s frame exported kind frame.block p.tree, none)
  | .variableDeclaration =>
    (table.addVariables s frame exported .varBinding frame.function p.tree, none)
  | .functionDeclaration | .generatorFunctionDeclaration | .functionSignature =>
    (table.addNamed s frame exported .function p.tree, none)
  | .classDeclaration | .abstractClassDeclaration =>
    (table.addNamed s frame exported .classType p.tree, none)
  | .enumDeclaration => (table.addEnumeration s frame exported p.tree, none)
  | .internalModule | .externalModule => table.addNamespace s frame exported p.tree
  | .importStatement => (table.addNames s frame.block .importBinding p.tree.importedNames, none)
  | .catchClause =>
    let names := (p.tree.child? .parameter).toList.flatMap (·.boundNames)
    (table.addNames s own .parameter names, none)
  | .forInStatement => (table.addLoopNames s frame own p.tree, none)
  | _ => (table, none)

/-- The scopes for what is below a position, given the namespace that it opens. -/
def frameBelow (s : Source) (frame : Frame) (p : Position) (opened : Option Nat) : Frame :=
  let own := Scope.place s.index p.route
  if p.kind.isFunctionLike then { block := own, function := own, container := none }
  else
    match p.kind with
    | .internalModule | .externalModule => { frame with container := opened }
    | .statementBlock =>
      if p.parentKind?.any (·.isNamespace) then { frame with block := own, function := own }
      else { frame with block := own, container := none }
    | .forStatement | .forInStatement | .switchBody | .catchClause | .classBody =>
      { frame with block := own, container := none }
    | .exportStatement | .ambientDeclaration => frame
    | _ => { frame with container := none }

mutual

/-- Declares everything of a tree at its place, a node before what is below it. -/
def collectTree (s : Source) (frame : Frame) (above : List Node) (route : Route) (t : Tree)
    (table : SymbolTable) : SymbolTable :=
  match t with
  | .mk node children =>
    let p : Position := { tree := .mk node children, above, route }
    let (table, opened) := table.declareAt s frame p
    collectAll s (frameBelow s frame p opened) (node :: above) route 0 children table

/-- Declares everything of the meaningful ones of sibling trees, the first of them child
number `i`. -/
def collectAll (s : Source) (frame : Frame) (above : List Node) (route : Route) (i : Nat)
    (ts : List Tree) (table : SymbolTable) : SymbolTable :=
  match ts with
  | [] => table
  | t :: ts =>
    let table := if t.node.named then collectTree s frame above (i :: route) t table else table
    collectAll s frame above route (i + 1) ts table

end

/-- Declares everything of a source. A module's top level is its own. -/
def collect (table : SymbolTable) (s : Source) : SymbolTable :=
  let top := if s.isModule then Scope.place s.index [] else .shared
  collectTree s { block := top, function := top, container := none } [] [] s.tree table

def ofSources (sources : List Source) : SymbolTable := sources.foldl collect {}

end SymbolTable

end LiteralFolding
