-- The places of a tree: the way down to a place names it, and what is below a place has a name
-- that ends in the name of the place.
import LiteralFolding.Tree.Position

namespace LiteralFolding

/-- A tree in which nothing is broken and all but the plus sign carries meaning. -/
def Tree.piece (kind : Kind) (field : Option Field) (start stop : Nat) (children : List Tree) :
    Tree :=
  .mk { kind, field, span := ⟨start, stop⟩, named := kind ≠ .plus, broken := false } children

/-- A tree in which something is broken. -/
def Tree.cracked (kind : Kind) (field : Option Field) (start stop : Nat) (children : List Tree) :
    Tree :=
  .mk { kind, field, span := ⟨start, stop⟩, named := true, broken := true } children

namespace Position

variable {p q : Position}

/-! ## Children -/

theorem exists_route_of_mem_siblings {above : List Node} {route : Route} {i : Nat} {ts : List Tree}
    (h : q ∈ siblings above route i ts) : ∃ j, i ≤ j ∧ q.route = j :: route := by
  induction ts generalizing i with
  | nil => simp [siblings] at h
  | cons t ts ih =>
    rw [siblings] at h
    rcases List.mem_cons.mp h with rfl | h
    · exact ⟨i, Nat.le_refl i, rfl⟩
    · obtain ⟨j, hj, hroute⟩ := ih h
      exact ⟨j, by omega, hroute⟩

theorem exists_route_of_mem_children (h : q ∈ p.children) : ∃ j, q.route = j :: p.route := by
  obtain ⟨j, _, hroute⟩ := exists_route_of_mem_siblings h
  exact ⟨j, hroute⟩

theorem length_route_of_mem_children (h : q ∈ p.children) :
    q.route.length = p.route.length + 1 := by
  obtain ⟨j, hroute⟩ := exists_route_of_mem_children h
  rw [hroute, List.length_cons]

/-- What is below a child is below its parent. -/
theorem suffix_of_mem_children {route : Route} (h : q ∈ p.children) (hq : q.route <:+ route) :
    p.route <:+ route := by
  obtain ⟨j, hroute⟩ := exists_route_of_mem_children h
  rw [hroute] at hq
  exact (List.suffix_cons j _).trans hq

theorem siblings_pairwise (above : List Node) (route : Route) (i : Nat) (ts : List Tree) :
    (siblings above route i ts).Pairwise (·.route ≠ ·.route) := by
  induction ts generalizing i with
  | nil => simp [siblings]
  | cons t ts ih =>
    rw [siblings, List.pairwise_cons]
    refine ⟨?_, ih (i + 1)⟩
    intro q hq
    obtain ⟨j, hj, hroute⟩ := exists_route_of_mem_siblings hq
    rw [hroute]
    intro heq
    cases heq
    omega

/-- No two children share a route. -/
theorem children_pairwise (p : Position) : p.children.Pairwise (·.route ≠ ·.route) :=
  siblings_pairwise _ _ _ _

/-- Two places on one level have nothing below in common. -/
theorem route_ne_of_suffix {a b r : Route} (hlen : a.length = b.length) (hne : a ≠ b)
    (ha : a <:+ r) : ¬ b <:+ r := by
  intro hb
  have hab := List.suffix_of_suffix_length_le ha hb (Nat.le_of_eq hlen)
  exact hne (hab.eq_of_length hlen)

theorem eq_of_route_eq {l : List Position} (hl : l.Pairwise (·.route ≠ ·.route)) (hp : p ∈ l)
    (hq : q ∈ l) (h : p.route = q.route) : p = q := by
  induction l with
  | nil => simp at hp
  | cons x xs ih =>
    rw [List.pairwise_cons] at hl
    rcases List.mem_cons.mp hp with rfl | hpx
    · rcases List.mem_cons.mp hq with rfl | hqx
      · rfl
      · exact absurd h (hl.1 q hqx)
    · rcases List.mem_cons.mp hq with rfl | hqx
      · exact absurd h.symm (hl.1 p hpx)
      · exact ih hl.2 hpx hqx

/-- What holds at a place when it holds at all places right below holds everywhere. -/
theorem induction_on_children {motive : Position → Prop}
    (step : ∀ p : Position, (∀ q ∈ p.children, motive q) → motive p) (p : Position) : motive p := by
  induction hn : p.tree.size using Nat.strongRecOn generalizing p with
  | _ n ih =>
    apply step
    intro q hq
    exact ih _ (hn ▸ size_lt_of_mem_children hq) q rfl

/-! ## All places -/

theorem mem_listFrom_self (above : List Node) (route : Route) (t : Tree) :
    { tree := t, above, route } ∈ listFrom above route t := by
  cases t with
  | mk node children =>
    rw [listFrom]
    exact List.mem_cons_self ..

theorem mem_listBelow_of_mem_siblings {above : List Node} {route : Route} {i : Nat} {ts : List Tree}
    (h : q ∈ siblings above route i ts) : q ∈ listBelow above route i ts := by
  induction ts generalizing i with
  | nil => simp [siblings] at h
  | cons t ts ih =>
    rw [siblings] at h
    rw [listBelow]
    rcases List.mem_cons.mp h with rfl | h
    · exact List.mem_append_left _ (mem_listFrom_self ..)
    · exact List.mem_append_right _ (ih h)

mutual

theorem mem_listFrom_of_mem_children (above : List Node) (route : Route) :
    (t : Tree) → p ∈ listFrom above route t → q ∈ p.children → q ∈ listFrom above route t
  | .mk node children, hp, hq => by
    rw [listFrom] at hp ⊢
    rcases List.mem_cons.mp hp with rfl | hp
    · exact List.mem_cons_of_mem _ (mem_listBelow_of_mem_siblings hq)
    · exact List.mem_cons_of_mem _ (mem_listBelow_of_mem_children _ _ _ children hp hq)

theorem mem_listBelow_of_mem_children (above : List Node) (route : Route) (i : Nat) :
    (ts : List Tree) → p ∈ listBelow above route i ts → q ∈ p.children →
      q ∈ listBelow above route i ts
  | [], hp, _ => by simp [listBelow] at hp
  | t :: ts, hp, hq => by
    rw [listBelow] at hp ⊢
    rcases List.mem_append.mp hp with hp | hp
    · exact List.mem_append_left _ (mem_listFrom_of_mem_children _ _ t hp hq)
    · exact List.mem_append_right _ (mem_listBelow_of_mem_children _ _ _ ts hp hq)

end

theorem top_mem_all (t : Tree) : top t ∈ all t := mem_listFrom_self [] [] t

theorem mem_all_of_mem_children {t : Tree} (hp : p ∈ all t) (hq : q ∈ p.children) : q ∈ all t :=
  mem_listFrom_of_mem_children [] [] t hp hq

/-! ## All places, each once -/

/-- A place and all below it, given place by place. -/
def listed (p : Position) : List Position := listFrom p.above p.route p.tree

theorem listBelow_eq (above : List Node) (route : Route) (i : Nat) (ts : List Tree) :
    listBelow above route i ts = (siblings above route i ts).flatMap listed := by
  induction ts generalizing i with
  | nil => rfl
  | cons t ts ih => rw [listBelow, siblings, List.flatMap_cons, ih, listed]

theorem listed_eq (p : Position) : p.listed = p :: p.children.flatMap listed := by
  obtain ⟨⟨node, children⟩, above, route⟩ := p
  rw [listed, listFrom, listBelow_eq]
  rfl

theorem suffix_of_mem_listed (p : Position) : ∀ q ∈ p.listed, p.route <:+ q.route := by
  induction p using induction_on_children with
  | step p ih =>
    intro q hq
    rw [listed_eq] at hq
    rcases List.mem_cons.mp hq with rfl | hq
    · exact List.suffix_refl _
    · obtain ⟨child, hchild, hq⟩ := List.mem_flatMap.mp hq
      exact suffix_of_mem_children hchild (ih child hchild q hq)

/-- No place is listed twice. -/
theorem listed_pairwise (p : Position) : p.listed.Pairwise (·.route ≠ ·.route) := by
  induction p using induction_on_children with
  | step p ih =>
    rw [listed_eq, List.pairwise_cons, List.pairwise_flatMap]
    refine ⟨?_, ih, p.children_pairwise.imp_of_mem ?_⟩
    · intro q hq heq
      obtain ⟨child, hchild, hq⟩ := List.mem_flatMap.mp hq
      have hle := (suffix_of_mem_listed child q hq).length_le
      rw [length_route_of_mem_children hchild, heq] at hle
      omega
    · intro a b ha hb hne x hx y hy heq
      have hlen : a.route.length = b.route.length := by
        rw [length_route_of_mem_children ha, length_route_of_mem_children hb]
      refine route_ne_of_suffix hlen hne (suffix_of_mem_listed a x hx) ?_
      rw [heq]
      exact suffix_of_mem_listed b y hy

theorem all_pairwise (t : Tree) : (all t).Pairwise (·.route ≠ ·.route) := (top t).listed_pairwise

/-! ## Places that are reached -/

/-- The second place is the first, or is somewhere below it. -/
inductive Within : Position → Position → Prop
  | refl (p : Position) : Within p p
  | step {p q r : Position} : q ∈ p.children → Within q r → Within p r

/-- The second place is the first, or is reached from it through meaningful nodes. -/
inductive Reaches : Position → Position → Prop
  | refl (p : Position) : Reaches p p
  | step {p q r : Position} : q ∈ p.namedChildren → Reaches q r → Reaches p r

theorem Reaches.suffix (h : Reaches p q) : p.route <:+ q.route := by
  induction h with
  | refl p => exact List.suffix_refl _
  | step hmem _ ih => exact suffix_of_mem_children (mem_children_of_mem_namedChildren hmem) ih

end Position

end LiteralFolding
