-- References: which declaration an identifier or member access means, and the text it gives.
import LiteralFolding.Symbol.Table

namespace LiteralFolding.SymbolTable

/-- The declaration that a reference means. A member is looked for only in what its object
names, and only if that is an enumeration or namespace. -/
def declarationOf? (table : SymbolTable) (s : Source) (p : Position) : Option Nat :=
  match p.kind with
  | .identifier | .undefined => table.lookup s.index (s.textOf p.node) p.route
  | .memberExpression =>
    match h : p.child? .object, p.child? .property with
    | some object, some property =>
      have := Position.size_lt_of_mem_children (Position.mem_children_of_child? h)
      match declarationOf? table s object with
      | none => none
      | some container =>
        if (table.declaration? container).any (·.kind.isContainer) then
          table.member container (s.textOf property.node)
        else none
    | _, _ => none
  | _ => none
termination_by p.tree.size

/-- The binding that a reference has: the literal its declaration was given, and no more than
one step away. -/
def resolve? (table : SymbolTable) (s : Source) (p : Position) : Option Binding :=
  ((table.declarationOf? s p).bind table.declaration?).bind Declaration.binding?

end LiteralFolding.SymbolTable
