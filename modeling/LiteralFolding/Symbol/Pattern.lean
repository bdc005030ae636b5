-- Binding patterns: the identifiers that a parameter, a destructuring or an import introduces.
import LiteralFolding.Tree.Basic

namespace LiteralFolding.Tree

/-- Puts trees on a stack one after the other, so that the last of them lies on top. -/
def pushAll (stack ts : List Tree) : List Tree := ts.foldl (fun stack t => t :: stack) stack

theorem pushAll_eq (stack ts : List Tree) : pushAll stack ts = ts.reverse ++ stack := by
  induction ts generalizing stack with
  | nil => rfl
  | cons t ts ih =>
    rw [pushAll, List.foldl_cons, ← pushAll, ih]
    simp

theorem sizeAll_pushAll (stack ts : List Tree) :
    sizeAll (pushAll stack ts) = sizeAll ts + sizeAll stack := by
  rw [pushAll_eq, sizeAll_append, sizeAll_reverse]

/-- Takes the patterns on a stack apart, the top one first, and adds the identifiers that they
bind to the names found before. -/
def namesOnStack (names : List Node) (stack : List Tree) : List Node :=
  match stack with
  | [] => names
  | t :: stack =>
    match t.kind with
    | .identifier | .shorthandPropertyIdentifierPattern => namesOnStack (names ++ [t.node]) stack
    | .assignmentPattern | .objectAssignmentPattern =>
      namesOnStack names (pushAll stack (t.child? .left).toList)
    | .pairPattern => namesOnStack names (pushAll stack (t.child? .value).toList)
    | .objectPattern | .arrayPattern | .restPattern =>
      -- The last child goes on the stack first, so the first child is the next to be taken.
      namesOnStack names (pushAll stack t.namedChildren.reverse)
    | _ => namesOnStack names stack
termination_by sizeAll stack
decreasing_by
  all_goals
    have := t.size_pos
    have := t.sizeAll_child?_lt .left
    have := t.sizeAll_child?_lt .value
    have := t.sizeAll_namedChildren_lt
    simp only [sizeAll_pushAll, sizeAll_reverse, sizeAll]
    omega

/-- The identifiers that a pattern binds, in the order of the text. -/
def boundNames (pattern : Tree) : List Node := namesOnStack [] [pattern]

mutual

/-- The identifiers of a dotted name, outermost first. -/
def nameParts : Tree → List Node
  | .mk node children =>
    match node.kind with
    | .identifier | .propertyIdentifier => [node]
    | _ => namePartsOfAll children

def namePartsOfAll : List Tree → List Node
  | [] => []
  | t :: ts => (if t.node.named then nameParts t else []) ++ namePartsOfAll ts

end

/-- The parts of a namespace's name; none when the name is quoted. -/
def namespaceParts? (t : Tree) : Option (List Node) :=
  match t.kind with
  | .identifier => some [t.node]
  | .nestedIdentifier | .memberExpression => some t.nameParts
  | _ => none

def holdsImports : Kind → Bool
  | .importClause | .namespaceImport | .namedImports | .importRequireClause | .importStatement => true
  | _ => false

/-- The local name of one imported item: its new name if it has one. -/
def specifierName? (t : Tree) : Option Node :=
  (((t.child? .localName).or (t.child? .name)).map (·.node)).filter (·.kind = .identifier)

mutual

/-- The identifiers that an import introduces: those right here, then those of the parts
below, the last part first. -/
def importedNames : Tree → List Node
  | .mk node children =>
    match node.kind with
    | .importSpecifier => (specifierName? (.mk node children)).toList
    | kind =>
      if holdsImports kind then
        (children.map (·.node)).filter (fun n => n.named && n.kind = .identifier) ++
          importedNamesBelow children
      else []

/-- The identifiers of the parts below, the last part first. -/
def importedNamesBelow : List Tree → List Node
  | [] => []
  | t :: ts =>
    importedNamesBelow ts ++
      (if t.node.named && t.node.kind ≠ .identifier then importedNames t else [])

end

end LiteralFolding.Tree
