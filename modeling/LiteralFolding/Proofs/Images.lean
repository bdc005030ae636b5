-- Images: each place of a tree that survives a pass has its image in the contracted tree, at the
-- same route and with the text that the edits made of it. Between images nothing has changed.
import LiteralFolding.Proofs.Reparsing

namespace LiteralFolding

namespace Tree

variable {literals : Route → Option Text} {route : Route} {shift : Int} {t : Tree}

theorem span_contract (literals : Route → Option Text) (route : Route) (shift : Int) (t : Tree) :
    (contract literals route shift t).1.node.span =
      t.node.span.moved shift (contract literals route shift t).2 := by
  obtain ⟨node, children⟩ := t
  rw [contract]
  cases literals route <;> rfl

theorem contract_of_some {literal : Text} (h : literals route = some literal) :
    (contract literals route shift t).1 =
      .mk { t.node with kind := .string, named := true, broken := false,
                        span := (contract literals route shift t).1.node.span } [] := by
  obtain ⟨node, children⟩ := t
  rw [contract, h]
  rfl

theorem contract_of_none (h : literals route = none) :
    (contract literals route shift t).1 =
      .mk { t.node with span := (contract literals route shift t).1.node.span }
        (contractAll literals route 0 shift t.children).1 := by
  obtain ⟨node, children⟩ := t
  rw [contract, h]
  rfl

end Tree

namespace FoldContext

/-- `p'` is what became of the place `p`. -/
structure Image (cx : FoldContext) (p p' : Position) : Prop where
  mem : p ∈ Position.all cx.source.tree
  mem_reparsed : p' ∈ Position.all cx.reparsed.tree
  settled : cx.Seen p ∨ cx.Unseen p
  route_eq : p'.route = p.route
  flags : p'.above.map (·.broken) = p.above.map (·.broken)
  /-- Its tree is the contracted one, moved to where it now starts. -/
  drawn : ∃ shift, p'.tree = (p.tree.contract cx.literalAt p.route shift).1 ∧
    (p'.node.span.start : Int) = p.node.span.start + shift
  /-- Its text is the old one with the edits applied. -/
  spliced : ∃ u, Spliced cx.source.text p.node.span.start p.node.span.stop
      (p.edits cx.literalAt) u ∧
    Text.slice cx.reparsed.text p'.node.span.start p'.node.span.stop = some u

/-- Places that follow each other from byte `a` to byte `b`, and their images from byte `a'` to
byte `b'` with the same text between them. -/
inductive Aligned (cx : FoldContext) :
    (a a' b b' : Nat) → List Position → List Position → Prop
  | nil {a a' b b' : Nat} {gap : Text} :
      Text.slice cx.source.text a b = some gap → Text.slice cx.reparsed.text a' b' = some gap →
      Aligned cx a a' b b' [] []
  | cons {a a' b b' : Nat} {p p' : Position} {ps ps' : List Position} {gap : Text} :
      Text.slice cx.source.text a p.node.span.start = some gap →
      Text.slice cx.reparsed.text a' p'.node.span.start = some gap → cx.Image p p' →
      Aligned cx p.node.span.stop p'.node.span.stop b b' ps ps' →
      Aligned cx a a' b b' (p :: ps) (p' :: ps')

variable {cx : FoldContext} {p p' : Position}

/-! ## From a place to the places below -/

/-- A text made of a gap, what became of a place and the rest can be cut where the contracted tree
of the place starts and stops. -/
theorem slice_contract {t : Text} {shift : Int} {a a' b' : Nat} {gap u v : Text}
    (hgap : Text.slice cx.source.text a p.node.span.start = some gap)
    (hu : Spliced cx.source.text p.node.span.start p.node.span.stop (p.edits cx.literalAt) u)
    (hstart : (a' : Int) = a + shift) (ht : Text.slice t a' b' = some (gap ++ (u ++ v))) :
    let moved := (p.tree.contract cx.literalAt p.route shift)
    (moved.1.node.span.start : Int) = p.node.span.start + shift ∧
      (moved.1.node.span.stop : Int) = p.node.span.stop + moved.2 ∧
      Text.slice t a' moved.1.node.span.start = some gap ∧
      Text.slice t moved.1.node.span.start moved.1.node.span.stop = some u ∧
      Text.slice t moved.1.node.span.stop b' = some v := by
  intro moved
  have hgaplen := Text.byteLength_of_slice hgap
  have hlen := hu.byteLength
  have hshift : moved.2 = shift + Edit.growth (p.edits cx.literalAt) :=
    Tree.contract_shift cx.literalAt p.route shift p.tree
  have hspan : moved.1.node.span = p.node.span.moved shift moved.2 :=
    Tree.span_contract cx.literalAt p.route shift p.tree
  have hfirst : moved.1.node.span.start = a' + Text.byteLength gap := by
    rw [hspan, Span.moved]
    dsimp only
    omega
  have hsecond : moved.1.node.span.stop = a' + Text.byteLength gap + Text.byteLength u := by
    rw [hspan, Span.moved]
    dsimp only
    omega
  obtain ⟨hg, hrest⟩ := Text.slice_cut ht
  obtain ⟨hm, hv⟩ := Text.slice_cut hrest
  rw [hfirst, hsecond]
  exact ⟨by omega, by omega, hg, hm, hv⟩

theorem aligned_siblings (h : cx.source.Parsed) {above above' : List Node} {route : Route} {i : Nat}
    {ts : List Tree} {shift : Int} {a a' b b' : Nat} {u : Text}
    (hmem : ∀ q ∈ Position.siblings above route i ts,
      q ∈ Position.all cx.source.tree ∧ (cx.Seen q ∨ cx.Unseen q))
    (hmem' : ∀ q ∈ Position.siblings above' route i
      (Tree.contractAll cx.literalAt route i shift ts).1, q ∈ Position.all cx.reparsed.tree)
    (hflags : above'.map (·.broken) = above.map (·.broken))
    (horder : Span.inOrder a b ((Position.siblings above route i ts).map (·.node.span)))
    (ha : Text.isBoundary cx.source.text a) (hb : Text.isBoundary cx.source.text b)
    (hstart : (a' : Int) = a + shift)
    (hu : Spliced cx.source.text a b
      ((Position.siblings above route i ts).flatMap (Position.edits cx.literalAt)) u)
    (hu' : Text.slice cx.reparsed.text a' b' = some u) :
    cx.Aligned a a' b b' (Position.siblings above route i ts)
      (Position.siblings above' route i (Tree.contractAll cx.literalAt route i shift ts).1) := by
  induction ts generalizing i a a' shift u with
  | nil =>
    cases hu with
    | nil hslice => exact .nil hslice hu'
  | cons t ts ih =>
    let q : Position := { tree := t, above, route := i :: route }
    simp only [Position.siblings, List.forall_mem_cons] at hmem
    simp only [Position.siblings, Tree.contractAll, List.forall_mem_cons] at hmem'
    simp only [Position.siblings, List.map_cons, Span.inOrder, Bool.and_eq_true,
      decide_eq_true_eq] at horder
    obtain ⟨⟨hle, _⟩, horder⟩ := horder
    obtain ⟨⟨hq, hsettled⟩, hmem⟩ := hmem
    obtain ⟨hqstart, hqstop⟩ := h.bounded q hq
    -- the stretch is the gap before the first tree, that tree and the others, each spliced alone
    obtain ⟨gap, hgap⟩ := Text.exists_slice ha hqstart hle
    obtain ⟨w, hw⟩ := h.toNested.exists_spliced cx.literalAt hq
    obtain ⟨v, hv⟩ := Source.exists_spliced_of_inOrder (fun r hr =>
      ⟨(h.bounded r (hmem r hr).1).1, (h.bounded r (hmem r hr).1).2,
        h.toNested.exists_spliced cx.literalAt (hmem r hr).1⟩) horder hqstop hb
    obtain rfl : u = gap ++ (w ++ v) := hu.unique ((hw.append hv).prepend hgap)
    obtain ⟨hmoved, hnext, hgap', hw', hv'⟩ := slice_contract hgap hw hstart hu'
    have himage : cx.Image q _ :=
      ⟨hq, hmem'.1, hsettled, rfl, hflags, ⟨shift, rfl, hmoved⟩, w, hw, hw'⟩
    refine .cons hgap hgap' himage ?_
    exact ih hmem hmem'.2 horder hqstop hnext hv hv'

/-- What is below a place that is not replaced stands in line with its images. -/
theorem Image.aligned_children (h : cx.source.Parsed) (him : cx.Image p p')
    (hl : cx.literalAt p.route = none) :
    cx.Aligned p.node.span.start p'.node.span.start p.node.span.stop p'.node.span.stop
      p.children p'.children := by
  obtain ⟨hstart, hstop⟩ := h.bounded p him.mem
  obtain ⟨shift, htree, hmoved⟩ := him.drawn
  obtain ⟨u, hu, hu'⟩ := him.spliced
  rw [Position.edits_of_none hl] at hu
  have hchildren : p'.children = Position.siblings (p'.node :: p'.above) p.route 0
      (Tree.contractAll cx.literalAt p.route 0 shift p.tree.children).1 := by
    rw [Position.children, him.route_eq, htree, Tree.contract_of_none hl]
    rfl
  have hbroken : p'.node.broken = p.node.broken := by
    rw [Position.node, htree, Tree.contract_of_none hl]
    rfl
  have hflags : (p'.node :: p'.above).map (·.broken) = (p.node :: p.above).map (·.broken) := by
    rw [List.map_cons, List.map_cons, him.flags, hbroken]
  rw [hchildren]
  refine aligned_siblings h ?_ ?_ hflags (h.ordered p him.mem) hstart hstop hmoved hu hu'
  · exact fun q hq => ⟨Position.mem_all_of_mem_children him.mem hq, settled_child him.settled hq⟩
  · exact fun q hq => Position.mem_all_of_mem_children him.mem_reparsed (hchildren ▸ hq)

/-- The whole tree has its image. -/
theorem image_top (h : cx.source.Parsed) :
    cx.Image (Position.top cx.source.tree) (Position.top cx.reparsed.tree) := by
  obtain ⟨front, u, back, hfront, hu, _, htext⟩ := exists_reparsed_text_eq h.toNested
  have hall : Text.slice cx.reparsed.text 0 (Text.byteLength cx.reparsed.text) =
      some (front ++ (u ++ back)) := htext ▸ Text.slice_all _
  have hzero : ((0 : Nat) : Int) = (0 : Nat) + 0 := rfl
  obtain ⟨hmoved, _, _, hu', _⟩ := slice_contract hfront hu hzero hall
  exact ⟨Position.top_mem_all _, Position.top_mem_all _, .inl (seen_top cx), rfl, rfl,
    ⟨0, rfl, hmoved⟩, u, hu, hu'⟩

/-! ## What a place and its image share -/

theorem Image.node_eq (him : cx.Image p p') (hl : cx.literalAt p.route = none) :
    p'.node = { p.node with span := p'.node.span } := by
  obtain ⟨shift, htree, _⟩ := him.drawn
  rw [Position.node, htree, Tree.contract_of_none hl]
  rfl

theorem Image.kind_eq (him : cx.Image p p') (hl : cx.literalAt p.route = none) :
    p'.kind = p.kind := (congrArg Node.kind (him.node_eq hl)).trans rfl

theorem Image.named_eq (him : cx.Image p p') (hl : cx.literalAt p.route = none) :
    p'.node.named = p.node.named := (congrArg Node.named (him.node_eq hl)).trans rfl

theorem Image.broken_eq (him : cx.Image p p') (hl : cx.literalAt p.route = none) :
    p'.node.broken = p.node.broken := (congrArg Node.broken (him.node_eq hl)).trans rfl

theorem Image.field_eq (him : cx.Image p p') : p'.node.field = p.node.field := by
  cases hl : cx.literalAt p.route with
  | none => exact (congrArg Node.field (him.node_eq hl)).trans rfl
  | some literal =>
    obtain ⟨shift, htree, _⟩ := him.drawn
    rw [Position.node, htree, Tree.contract_of_some hl]
    rfl

/-- A place without edits keeps its text. -/
theorem Image.slice_eq (him : cx.Image p p') (hedits : p.edits cx.literalAt = []) :
    ∃ u, Text.slice cx.source.text p.node.span.start p.node.span.stop = some u ∧
      Text.slice cx.reparsed.text p'.node.span.start p'.node.span.stop = some u := by
  obtain ⟨u, hu, hu'⟩ := him.spliced
  rw [hedits] at hu
  cases hu with
  | nil hslice => exact ⟨u, hslice, hu'⟩

theorem Image.textOf_eq (him : cx.Image p p') (hedits : p.edits cx.literalAt = []) :
    cx.reparsed.textOf p'.node = cx.source.textOf p.node := by
  obtain ⟨u, hu, hu'⟩ := him.slice_eq hedits
  rw [Source.textOf, Source.textOf, hu, hu']

/-- A replaced value has become the string that is its literal. -/
theorem Image.of_literalAt {literal : Text} (him : cx.Image p p')
    (hl : cx.literalAt p.route = some literal) :
    p'.kind = .string ∧ p'.node.broken = false ∧ cx.reparsed.textOf p'.node = literal := by
  obtain ⟨shift, htree, _⟩ := him.drawn
  obtain ⟨u, hu, hu'⟩ := him.spliced
  rw [Position.edits_of_some hl] at hu
  obtain rfl : u = literal := Spliced.eq_literal (e := { span := p.node.span, literal }) hu
  have htext : cx.reparsed.textOf p'.node = u := by rw [Source.textOf, hu', Option.getD_some]
  refine ⟨?_, ?_, htext⟩
  · rw [Position.kind, htree, Tree.contract_of_some hl]
    rfl
  · rw [Position.node, htree, Tree.contract_of_some hl]
    rfl

/-! ## Choosing among places in line -/

variable {a a' b b' : Nat} {ps ps' : List Position} {f : Position → Bool}

theorem Aligned.prepend {c c' : Nat} {u : Text} (h : cx.Aligned a a' b b' ps ps')
    (hu : Text.slice cx.source.text c a = some u)
    (hu' : Text.slice cx.reparsed.text c' a' = some u) :
    cx.Aligned c c' b b' ps ps' := by
  cases h with
  | nil hgap hgap' => exact .nil (Text.slice_join hu hgap) (Text.slice_join hu' hgap')
  | cons hgap hgap' him hrest =>
    exact .cons (Text.slice_join hu hgap) (Text.slice_join hu' hgap') him hrest

/-- Places without edits can be left out: they become part of the text between the others. -/
theorem Aligned.filter (h : cx.Aligned a a' b b' ps ps')
    (hf : ∀ q ∈ ps, ∀ q', cx.Image q q' → f q' = f q)
    (hdrop : ∀ q ∈ ps, f q = false → q.edits cx.literalAt = []) :
    cx.Aligned a a' b b' (ps.filter f) (ps'.filter f) := by
  induction h with
  | nil hgap hgap' => exact .nil hgap hgap'
  | @cons a a' b b' p p' ps ps' gap hgap hgap' him _ ih =>
    have hrest := ih (fun q hq => hf q (List.mem_cons_of_mem _ hq))
      fun q hq => hdrop q (List.mem_cons_of_mem _ hq)
    rw [List.filter_cons, List.filter_cons, hf p (List.mem_cons_self ..) p' him]
    cases hkeep : f p with
    | true => exact .cons hgap hgap' him hrest
    | false =>
      obtain ⟨u, hu, hu'⟩ := him.slice_eq (hdrop p (List.mem_cons_self ..) hkeep)
      exact (hrest.prepend hu hu').prepend hgap hgap'

/-- The first place of a sort and the first image of that sort belong together. -/
theorem Aligned.find? (h : cx.Aligned a a' b b' ps ps')
    (hf : ∀ q ∈ ps, ∀ q', cx.Image q q' → f q' = f q) :
    (ps.find? f = none ∧ ps'.find? f = none) ∨
      ∃ q q', ps.find? f = some q ∧ ps'.find? f = some q' ∧ cx.Image q q' := by
  induction h with
  | nil => exact .inl ⟨rfl, rfl⟩
  | @cons a a' b b' p p' ps ps' gap _ _ him _ ih =>
    rw [List.find?_cons, List.find?_cons, hf p (List.mem_cons_self ..) p' him]
    cases f p with
    | true => exact .inr ⟨p, p', rfl, rfl, him⟩
    | false => exact ih fun q hq => hf q (List.mem_cons_of_mem _ hq)

theorem Image.child? (h : cx.source.Parsed) (him : cx.Image p p')
    (hl : cx.literalAt p.route = none) (field : Field) :
    (p.child? field = none ∧ p'.child? field = none) ∨
      ∃ q q', p.child? field = some q ∧ p'.child? field = some q' ∧ cx.Image q q' := by
  refine (him.aligned_children h hl).find? ?_
  intro q _ q' hq
  rw [hq.field_eq]

/-- Unless a property is folded there, the meaningful places below stand in line too. -/
theorem Image.aligned_namedChildren (h : cx.source.Parsed) (him : cx.Image p p')
    (hl : cx.literalAt p.route = none) (hfold : ¬ cx.Folds p) :
    cx.Aligned p.node.span.start p'.node.span.start p.node.span.stop p'.node.span.stop
      p.namedChildren p'.namedChildren := by
  have hnone : ∀ q ∈ p.children, cx.literalAt q.route = none :=
    fun q hq => literalAt_of_not_folds him.settled hfold hq
  refine (him.aligned_children h hl).filter (fun q hq q' hqq' => hqq'.named_eq (hnone q hq)) ?_
  intro q hq hnamed
  rw [Position.edits_of_none (hnone q hq)]
  rcases him.settled with hseen | hunseen
  · exact editsBelow_of_unseen (hseen.unseen_of_not_named hq (by simp [hnamed]))
  · exact editsBelow_of_unseen (hunseen.child hq)

theorem Image.firstExpression? (h : cx.source.Parsed) (him : cx.Image p p')
    (hl : cx.literalAt p.route = none) (hfold : ¬ cx.Folds p) :
    (p.firstExpression? = none ∧ p'.firstExpression? = none) ∨
      ∃ q q', p.firstExpression? = some q ∧ p'.firstExpression? = some q' ∧ cx.Image q q' := by
  refine (him.aligned_namedChildren h hl hfold).find? ?_
  intro q hq q' hqq'
  have hnone := literalAt_of_not_folds him.settled hfold
    (Position.mem_children_of_mem_namedChildren hq)
  rw [hqq'.kind_eq hnone]

theorem Image.aligned_substitutions (h : cx.source.Parsed) (him : cx.Image p p')
    (hl : cx.literalAt p.route = none) (hkind : p.kind = .templateString) :
    cx.Aligned p.node.span.start p'.node.span.start p.node.span.stop p'.node.span.stop
      (Expression.substitutions p) (Expression.substitutions p') := by
  have hfold : ¬ cx.Folds p := not_folds_of_kind (by simp [hkind])
  have hnone : ∀ q ∈ p.namedChildren, cx.literalAt q.route = none := fun q hq =>
    literalAt_of_not_folds him.settled hfold (Position.mem_children_of_mem_namedChildren hq)
  refine (him.aligned_namedChildren h hl hfold).filter ?_ ?_
  · intro q hq q' hqq'
    rw [hqq'.kind_eq (hnone q hq)]
  · intro q hq hother
    have hq' := Position.mem_children_of_mem_namedChildren hq
    refine edits_of_no_pair (settled_child him.settled hq') (hnone q hq) ?_
    exact h.segments p him.mem hkind q hq' fun hsub => of_decide_eq_false hother hsub.2

end FoldContext

end LiteralFolding
