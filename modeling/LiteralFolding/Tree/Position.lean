-- Positions: a tree inside a larger one, with the nodes above it and the way down to it.
-- The way down names the place, so two places never share a name.
import LiteralFolding.Tree.Basic

namespace LiteralFolding

/-- The way down to a place: which child to take at each level, the last step first. The
place above is the tail. -/
abbrev Route := List Nat

/-- A tree at its place in a whole. -/
structure Position where
  tree : Tree
  /-- The nodes above it, the nearest first. -/
  above : List Node
  route : Route

namespace Position

def top (t : Tree) : Position := { tree := t, above := [], route := [] }

def node (p : Position) : Node := p.tree.node

def kind (p : Position) : Kind := p.tree.kind

def parentKind? (p : Position) : Option Kind := p.above.head?.map (·.kind)

/-- The positions of sibling trees, the first of them child number `i`. -/
def siblings (above : List Node) (route : Route) : Nat → List Tree → List Position
  | _, [] => []
  | i, t :: ts => { tree := t, above, route := i :: route } :: siblings above route (i + 1) ts

def children (p : Position) : List Position :=
  siblings (p.node :: p.above) p.route 0 p.tree.children

def namedChildren (p : Position) : List Position := p.children.filter (·.node.named)

/-- The first child in a role. -/
def child? (p : Position) (field : Field) : Option Position :=
  p.children.find? (·.node.field = some field)

/-- The first meaningful child that is no comment. -/
def firstExpression? (p : Position) : Option Position := p.namedChildren.find? (·.kind ≠ .comment)

mutual

/-- A position and all below it, each before what is below it. -/
def listFrom (above : List Node) (route : Route) : Tree → List Position
  | .mk node children =>
    { tree := .mk node children, above, route } :: listBelow (node :: above) route 0 children

/-- The same for sibling trees, the first of them child number `i`. -/
def listBelow (above : List Node) (route : Route) (i : Nat) : List Tree → List Position
  | [] => []
  | t :: ts => listFrom above (i :: route) t ++ listBelow above route (i + 1) ts

end

/-- Every position of a tree, in the order of the text. -/
def all (t : Tree) : List Position := listFrom [] [] t

/-! ## Going down makes trees smaller -/

theorem map_tree_siblings (above : List Node) (route : Route) (i : Nat) (ts : List Tree) :
    (siblings above route i ts).map (·.tree) = ts := by
  induction ts generalizing i with
  | nil => rfl
  | cons t ts ih => rw [siblings, List.map_cons, ih]

theorem map_tree_children (p : Position) : p.children.map (·.tree) = p.tree.children :=
  map_tree_siblings _ _ _ _

theorem map_tree_namedChildren (p : Position) :
    p.namedChildren.map (·.tree) = p.tree.namedChildren := by
  have hfilter := List.filter_map (f := fun q : Position => q.tree)
    (p := fun t : Tree => t.node.named) (l := p.children)
  rw [map_tree_children] at hfilter
  exact hfilter.symm

theorem mem_children_of_child? {p q : Position} {field : Field} (h : p.child? field = some q) :
    q ∈ p.children :=
  List.mem_of_find?_eq_some h

theorem mem_children_of_mem_namedChildren {p q : Position} (h : q ∈ p.namedChildren) :
    q ∈ p.children :=
  (List.mem_filter.mp h).1

theorem mem_children_of_firstExpression? {p q : Position} (h : p.firstExpression? = some q) :
    q ∈ p.children :=
  mem_children_of_mem_namedChildren (List.mem_of_find?_eq_some h)

theorem tree_mem_of_mem_children {p q : Position} (h : q ∈ p.children) : q.tree ∈ p.tree.children :=
  p.map_tree_children ▸ List.mem_map_of_mem h

theorem size_lt_of_mem_children {p q : Position} (h : q ∈ p.children) : q.tree.size < p.tree.size :=
  Tree.size_lt_of_mem_children (tree_mem_of_mem_children h)

def sizeAll (ps : List Position) : Nat := Tree.sizeAll (ps.map (·.tree))

theorem sizeAll_cons (p : Position) (ps : List Position) :
    sizeAll (p :: ps) = p.tree.size + sizeAll ps :=
  rfl

theorem sizeAll_append (ps qs : List Position) : sizeAll (ps ++ qs) = sizeAll ps + sizeAll qs := by
  rw [sizeAll, List.map_append, Tree.sizeAll_append, ← sizeAll, ← sizeAll]

theorem sizeAll_le_of_sublist {ps qs : List Position} (h : ps.Sublist qs) :
    sizeAll ps ≤ sizeAll qs :=
  Tree.sizeAll_le_of_sublist (h.map _)

theorem size_le_sizeAll {p : Position} {ps : List Position} (h : p ∈ ps) :
    p.tree.size ≤ sizeAll ps :=
  Tree.size_le_sizeAll (List.mem_map_of_mem h)

theorem sizeAll_children_lt (p : Position) : sizeAll p.children < p.tree.size := by
  rw [sizeAll, map_tree_children, Tree.size_eq p.tree]
  omega

theorem sizeAll_namedChildren_lt (p : Position) : sizeAll p.namedChildren < p.tree.size := by
  rw [sizeAll, map_tree_namedChildren]
  exact p.tree.sizeAll_namedChildren_lt

/-- Two members that are found by tests which exclude each other are different members. -/
theorem size_add_size_le {f g : Position → Bool} {p q : Position} {ps : List Position}
    (hfg : ∀ x, f x = true → g x = false) (hp : ps.find? f = some p) (hq : ps.find? g = some q) :
    p.tree.size + q.tree.size ≤ sizeAll ps := by
  induction ps with
  | nil => simp at hp
  | cons x xs ih =>
    rw [List.find?_cons] at hp hq
    rw [sizeAll_cons]
    split at hp
    · rename_i hx
      obtain rfl := Option.some.inj hp
      rw [hfg x hx] at hq
      have := size_le_sizeAll (List.mem_of_find?_eq_some hq)
      omega
    · split at hq
      · obtain rfl := Option.some.inj hq
        have := size_le_sizeAll (List.mem_of_find?_eq_some hp)
        omega
      · have := ih hp hq
        omega

end Position

end LiteralFolding
