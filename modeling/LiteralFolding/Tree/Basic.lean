-- Syntax trees: each node with its kind, its place in the text and its children in order.
import LiteralFolding.Location
import LiteralFolding.Tree.Kind

namespace LiteralFolding

/-- What a tree says about one node. -/
structure Node where
  kind : Kind
  /-- The role in which the parent holds it. -/
  field : Option Field
  span : Span
  /-- Named nodes carry meaning; the others are keywords and punctuation. -/
  named : Bool
  /-- The node, or something below it, failed to parse. -/
  broken : Bool
  deriving DecidableEq, Repr

/-- A node with its children. -/
inductive Tree where
  | mk (node : Node) (children : List Tree)

namespace Tree

def node : Tree → Node
  | .mk node _ => node

def children : Tree → List Tree
  | .mk _ children => children

def kind (t : Tree) : Kind := t.node.kind

def namedChildren (t : Tree) : List Tree := t.children.filter (·.node.named)

/-- The first child in a role. -/
def child? (t : Tree) (field : Field) : Option Tree := t.children.find? (·.node.field = some field)

mutual

/-- The number of nodes of a tree. -/
def size : Tree → Nat
  | .mk _ children => 1 + sizeAll children

def sizeAll : List Tree → Nat
  | [] => 0
  | t :: ts => size t + sizeAll ts

end

theorem size_eq (t : Tree) : t.size = 1 + sizeAll t.children := by
  cases t with
  | mk node children => rw [size, Tree.children]

theorem sizeAll_append (ts us : List Tree) : sizeAll (ts ++ us) = sizeAll ts + sizeAll us := by
  induction ts with
  | nil => simp [sizeAll]
  | cons t ts ih =>
    simp only [List.cons_append, sizeAll, ih]
    omega

theorem sizeAll_reverse (ts : List Tree) : sizeAll ts.reverse = sizeAll ts := by
  induction ts with
  | nil => rfl
  | cons t ts ih =>
    simp only [List.reverse_cons, sizeAll_append, sizeAll, ih]
    omega

theorem sizeAll_le_of_sublist {ts us : List Tree} (h : ts.Sublist us) : sizeAll ts ≤ sizeAll us := by
  induction h with
  | slnil => exact Nat.le_refl _
  | cons t _ ih =>
    rw [sizeAll]
    omega
  | cons_cons t _ ih =>
    rw [sizeAll, sizeAll]
    omega

theorem size_le_sizeAll {t : Tree} {ts : List Tree} (h : t ∈ ts) : t.size ≤ sizeAll ts := by
  simpa [sizeAll] using sizeAll_le_of_sublist (List.singleton_sublist.mpr h)

theorem size_lt_of_mem_children {t u : Tree} (h : u ∈ t.children) : u.size < t.size := by
  have := size_le_sizeAll h
  rw [size_eq t]
  omega

theorem size_pos (t : Tree) : 0 < t.size := by
  rw [size_eq]
  omega

theorem sizeAll_namedChildren_lt (t : Tree) : sizeAll t.namedChildren < t.size := by
  have := sizeAll_le_of_sublist (List.filter_sublist (l := t.children) (p := (·.node.named)))
  rw [size_eq, namedChildren]
  omega

theorem mem_children_of_child? {t u : Tree} {field : Field} (h : t.child? field = some u) :
    u ∈ t.children :=
  List.mem_of_find?_eq_some h

theorem sizeAll_child?_lt (t : Tree) (field : Field) : sizeAll (t.child? field).toList < t.size := by
  cases h : t.child? field with
  | none => exact size_pos t
  | some u => simpa [sizeAll] using size_lt_of_mem_children (mem_children_of_child? h)

end Tree

end LiteralFolding
