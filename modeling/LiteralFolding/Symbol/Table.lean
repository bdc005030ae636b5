-- The symbol table: which declaration each name of each scope stands for.
import LiteralFolding.Symbol.Declaration

namespace LiteralFolding

/-- Where names are kept. -/
inductive Scope where
  /-- The top level that all sources without imports and exports share. -/
  | shared
  /-- The scope of one place in a source. -/
  | place (source : Nat) (route : Route)
  /-- The members of an enumeration or namespace, by its declaration's number. -/
  | members (declaration : Nat)
  deriving DecidableEq, Repr

/-- A name of a scope and the number of its declaration. -/
structure Entry where
  scope : Scope
  name : Text
  declaration : Nat
  deriving DecidableEq, Repr

/-- The declarations of a program, numbered in order, and the names that stand for them. -/
structure SymbolTable where
  declarations : List Declaration := []
  entries : List Entry := []

namespace SymbolTable

def declaration? (table : SymbolTable) (id : Nat) : Option Declaration := table.declarations[id]?

/-- What a name stands for in one scope. -/
def find? (table : SymbolTable) (scope : Scope) (name : Text) : Option Nat :=
  (table.entries.find? fun e => e.scope = scope ∧ e.name = name).map (·.declaration)

/-- Makes a name of a scope stand for a declaration, unless it stands for one already. -/
def bind (table : SymbolTable) (scope : Scope) (name : Text) (id : Nat) : SymbolTable :=
  if (table.find? scope name).isSome then table
  else { table with entries := table.entries ++ [{ scope, name, declaration := id }] }

/-- The earlier declaration that a new one continues: an enumeration or namespace of the same
kind, name and scope. -/
def continued? (table : SymbolTable) (scope : Scope) (d : Declaration) : Option Nat :=
  (table.find? scope d.name).filter fun id =>
    (table.declaration? id).any fun prior => prior.kind.isContainer && prior.kind = d.kind

/-- Records a declaration in a scope and gives its number. The first declaration of a name
keeps the name. -/
def add (table : SymbolTable) (scope : Scope) (d : Declaration) : SymbolTable × Nat :=
  match table.continued? scope d with
  | some id => (table, id)
  | none =>
    let id := table.declarations.length
    ({ table.bind scope d.name id with declarations := table.declarations ++ [d] }, id)

/-- What a name means at a place: the innermost scope around it that has the name, and the
shared top level last. -/
def lookup (table : SymbolTable) (source : Nat) (name : Text) : Route → Option Nat
  | [] => (table.find? (.place source []) name).or (table.find? .shared name)
  | step :: route =>
    (table.find? (.place source (step :: route)) name).or (lookup table source name route)

def member (table : SymbolTable) (container : Nat) (name : Text) : Option Nat :=
  table.find? (.members container) name

end SymbolTable

end LiteralFolding
