-- Contraction: the tree of a text after literals were written over some of its nodes. Each such
-- node becomes one string, and everything behind it moves.
import LiteralFolding.Source
import LiteralFolding.Expression
import LiteralFolding.Proofs.Positions
import LiteralFolding.Proofs.Splices

namespace LiteralFolding

/-! ## What a grammar grants of a tree -/

namespace Tree

mutual

/-- Is there a property in the tree? -/
def hasPair : Tree → Bool
  | .mk node children => node.kind = .pair || hasPairAny children

/-- Is there a property in one of the trees? -/
def hasPairAny : List Tree → Bool
  | [] => false
  | t :: ts => hasPair t || hasPairAny ts

end

theorem hasPair_eq (t : Tree) : t.hasPair = (decide (t.kind = .pair) || hasPairAny t.children) := by
  cases t with
  | mk node children => rfl

theorem hasPair_of_mem {t : Tree} {ts : List Tree} (h : hasPairAny ts = false) (ht : t ∈ ts) :
    t.hasPair = false := by
  induction ts with
  | nil => simp at ht
  | cons u us ih =>
    rw [hasPairAny, Bool.or_eq_false_iff] at h
    rcases List.mem_cons.mp ht with rfl | ht
    · exact h.1
    · exact ih h.2 ht

end Tree

/-- Do the spans follow each other between two bytes? -/
def Span.inOrder (a b : Nat) : List Span → Bool
  | [] => a ≤ b
  | s :: rest => a ≤ s.start && s.start ≤ s.stop && inOrder s.stop b rest

theorem Span.le_of_inOrder {a b : Nat} {spans : List Span} (h : Span.inOrder a b spans) :
    a ≤ b := by
  induction spans generalizing a with
  | nil => exact of_decide_eq_true h
  | cons s rest ih =>
    simp only [Span.inOrder, Bool.and_eq_true, decide_eq_true_eq] at h
    have := ih h.2
    omega

/-- What a grammar grants of the places of the nodes in a text. -/
structure Source.Nested (s : Source) : Prop where
  /-- The children of a node follow each other inside it. -/
  ordered : ∀ p ∈ Position.all s.tree,
    Span.inOrder p.node.span.start p.node.span.stop (p.children.map (·.node.span))
  /-- Nodes start and stop between characters. -/
  bounded : ∀ p ∈ Position.all s.tree,
    Text.isBoundary s.text p.node.span.start ∧ Text.isBoundary s.text p.node.span.stop

/-- A node with something broken below it is broken. -/
structure Source.Flagged (s : Source) : Prop where
  flagged : ∀ p ∈ Position.all s.tree, ∀ q ∈ p.children, q.node.broken → p.node.broken

/-- What a grammar grants of the tree it makes of a text. -/
structure Source.Parsed (s : Source) : Prop extends s.Nested, s.Flagged where
  /-- There are no properties inside strings, numbers and names. -/
  plain : ∀ p ∈ Position.all s.tree,
    p.kind ∈ [.string, .number, .propertyIdentifier] → p.tree.hasPair = false
  /-- There are none in a template either, unless in its substitutions. -/
  segments : ∀ p ∈ Position.all s.tree, p.kind = .templateString →
    ∀ q ∈ p.children, ¬ (q.node.named ∧ q.kind = .templateSubstitution) → q.tree.hasPair = false
  /-- A template that is not broken has its two backticks around its substitutions. -/
  quoted : ∀ p ∈ Position.all s.tree, p.kind = .templateString → p.node.broken = false →
    p.node.span.start + 2 ≤ p.node.span.stop ∧
      ∀ q ∈ Expression.substitutions p,
        p.node.span.start + 1 ≤ q.node.span.start ∧ q.node.span.stop + 1 ≤ p.node.span.stop

/-! ## Contracted trees -/

/-- A span whose start moves by `before` bytes and whose stop moves by `after`. -/
def Span.moved (s : Span) (before after : Int) : Span where
  start := (s.start + before).toNat
  stop := (s.stop + after).toNat

namespace Tree

mutual

/-- The tree at a place after `literals` were written over their places: a node with a literal
becomes a string without parts. All before the tree has grown by `shift` bytes; the growth with
the tree is given back. -/
def contract (literals : Route → Option Text) (route : Route) (shift : Int) : Tree → Tree × Int
  | .mk node children =>
    match literals route with
    | some literal =>
      let after := shift + Text.byteLength literal - (node.span.stop - node.span.start)
      (.mk { node with kind := .string, named := true, broken := false,
                       span := node.span.moved shift after } [], after)
    | none =>
      let (trees, after) := contractAll literals route 0 shift children
      (.mk { node with span := node.span.moved shift after } trees, after)

/-- The same for sibling trees, the first of them child number `i`. -/
def contractAll (literals : Route → Option Text) (route : Route) (i : Nat) (shift : Int) :
    List Tree → List Tree × Int
  | [] => ([], shift)
  | t :: ts =>
    let (u, between) := contract literals (i :: route) shift t
    let (us, after) := contractAll literals route (i + 1) between ts
    (u :: us, after)

end

mutual

/-- The edits that write the literals into the text of the tree at a place. -/
def edits (literals : Route → Option Text) (route : Route) : Tree → List Edit
  | .mk node children =>
    match literals route with
    | some literal => [{ span := node.span, literal }]
    | none => editsAll literals route 0 children

/-- The same for sibling trees, the first of them child number `i`. -/
def editsAll (literals : Route → Option Text) (route : Route) (i : Nat) : List Tree → List Edit
  | [] => []
  | t :: ts => edits literals (i :: route) t ++ editsAll literals route (i + 1) ts

end

mutual

/-- Behind a tree everything moves on by what its edits add. -/
theorem contract_shift (literals : Route → Option Text) (route : Route) (shift : Int) :
    (t : Tree) → (contract literals route shift t).2 = shift + Edit.growth (edits literals route t)
  | .mk node children => by
    rw [contract, edits]
    cases literals route with
    | some literal =>
      simp only [Edit.growth]
      omega
    | none => exact contractAll_shift literals route 0 shift children

theorem contractAll_shift (literals : Route → Option Text) (route : Route) (i : Nat) (shift : Int) :
    (ts : List Tree) →
      (contractAll literals route i shift ts).2 = shift + Edit.growth (editsAll literals route i ts)
  | [] => by simp [contractAll, editsAll]
  | t :: ts => by
    have ht := contract_shift literals (i :: route) shift t
    have hts := contractAll_shift literals route (i + 1)
      (contract literals (i :: route) shift t).2 ts
    rw [contractAll, editsAll, Edit.growth_append]
    dsimp only
    rw [hts, ht]
    omega

end

end Tree

/-! ## Edits at a place -/

namespace Position

variable {literals : Route → Option Text} {p : Position}

/-- The edits that write the literals into the text of the tree at a place. -/
def edits (literals : Route → Option Text) (p : Position) : List Edit :=
  p.tree.edits literals p.route

theorem editsAll_eq (literals : Route → Option Text) (above : List Node) (route : Route) (i : Nat)
    (ts : List Tree) :
    Tree.editsAll literals route i ts = (siblings above route i ts).flatMap (edits literals) := by
  induction ts generalizing i with
  | nil => rfl
  | cons t ts ih =>
    rw [Tree.editsAll, siblings, List.flatMap_cons, ← ih]
    rfl

theorem edits_of_some {literal : Text} (h : literals p.route = some literal) :
    p.edits literals = [{ span := p.node.span, literal }] := by
  obtain ⟨⟨node, children⟩, above, route⟩ := p
  dsimp only at h
  rw [edits, Tree.edits, h]
  rfl

theorem edits_of_none (h : literals p.route = none) :
    p.edits literals = p.children.flatMap (edits literals) := by
  obtain ⟨⟨node, children⟩, above, route⟩ := p
  dsimp only at h
  rw [edits, Tree.edits, h]
  exact editsAll_eq literals (node :: above) route 0 children

end Position

namespace Source

variable {s : Source} {literals : Route → Option Text}

/-- Where stretches that follow each other can be spliced, the whole can. -/
theorem exists_spliced_of_inOrder {ps : List Position} {a b : Nat}
    (hps : ∀ p ∈ ps, Text.isBoundary s.text p.node.span.start ∧
      Text.isBoundary s.text p.node.span.stop ∧
      ∃ u, Spliced s.text p.node.span.start p.node.span.stop (p.edits literals) u)
    (horder : Span.inOrder a b (ps.map (·.node.span))) (ha : Text.isBoundary s.text a)
    (hb : Text.isBoundary s.text b) :
    ∃ u, Spliced s.text a b (ps.flatMap (Position.edits literals)) u := by
  induction ps generalizing a with
  | nil =>
    obtain ⟨u, hu⟩ := Text.exists_slice ha hb (of_decide_eq_true horder)
    exact ⟨u, .nil hu⟩
  | cons p ps ih =>
    simp only [List.map_cons, Span.inOrder, Bool.and_eq_true, decide_eq_true_eq] at horder
    obtain ⟨⟨hle, _⟩, horder⟩ := horder
    obtain ⟨hstart, hstop, u, hu⟩ := hps p (List.mem_cons_self ..)
    obtain ⟨gap, hgap⟩ := Text.exists_slice ha hstart hle
    obtain ⟨v, hv⟩ := ih (fun q hq => hps q (List.mem_cons_of_mem _ hq)) horder hstop
    exact ⟨gap ++ (u ++ v), (hu.append hv).prepend hgap⟩

/-- The literals can be written into the text of every node. -/
theorem Nested.exists_spliced (h : s.Nested) (literals : Route → Option Text) {p : Position}
    (hp : p ∈ Position.all s.tree) :
    ∃ u, Spliced s.text p.node.span.start p.node.span.stop (p.edits literals) u := by
  induction p using Position.induction_on_children with
  | step p ih =>
    obtain ⟨hstart, hstop⟩ := h.bounded p hp
    cases hl : literals p.route with
    | some literal =>
      have hle := Span.le_of_inOrder (h.ordered p hp)
      obtain ⟨u, hu⟩ := Text.exists_slice hstart hstart (Nat.le_refl _)
      obtain ⟨v, hv⟩ := Text.exists_slice hstop hstop (Nat.le_refl _)
      rw [Position.edits_of_some hl]
      exact ⟨_, .cons hu hle (.nil hv)⟩
    | none =>
      rw [Position.edits_of_none hl]
      refine exists_spliced_of_inOrder (fun q hq => ?_) (h.ordered p hp) hstart hstop
      have hq' := Position.mem_all_of_mem_children hp hq
      exact ⟨(h.bounded q hq').1, (h.bounded q hq').2, ih q hq hq'⟩

end Source

end LiteralFolding
