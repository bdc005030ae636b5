-- The source after a pass: its text as rewritten, and its tree with every replaced value
-- contracted to a string. Which places carry a literal is decided where the pass looks.
import LiteralFolding.Proofs.Contraction
import LiteralFolding.Proofs.Outcomes

namespace LiteralFolding.FoldContext

variable {cx : FoldContext} {p q value : Position} {o : Outcome} {literal : Text}

/-- The literal that the pass writes over the value at a place. -/
def literalAt (cx : FoldContext) (route : Route) : Option Text :=
  cx.outcomes.findSome? fun o =>
    if o.value.route = route then (o.replacement? cx.source).map (·.literal) else none

/-- The source as a grammar reads it after the pass: the new text, and the tree in which each
replaced value is one string and all else has moved. -/
def reparsed (cx : FoldContext) : Source :=
  { cx.source with
    text := cx.fold.text
    tree := (cx.source.tree.contract cx.literalAt [] 0).1 }

/-! ## Where the pass looks -/

/-- The pass looks at the place: the outcomes below it are those of the place. -/
def Seen (cx : FoldContext) (p : Position) : Prop :=
  (∀ o ∈ cx.outcomesAt p, o ∈ cx.outcomes) ∧ ∀ o ∈ cx.outcomes, Below p o → o ∈ cx.outcomesAt p

/-- The pass does not look below the place. -/
def Unseen (cx : FoldContext) (p : Position) : Prop := ∀ o ∈ cx.outcomes, ¬ Below p o

/-- A property with the wanted name is folded at the place. -/
def Folds (cx : FoldContext) (p : Position) : Prop :=
  ∃ value text, cx.value? p = some value ∧ cx.verdict value = .ok text

theorem Below.of_child (hq : q ∈ p.children) (h : Below q o) : Below p o := by
  obtain ⟨i, r, hroute, hsuffix⟩ := h
  obtain ⟨j, hj⟩ := Position.exists_route_of_mem_children hq
  exact ⟨i, r, hroute, (hj ▸ List.suffix_cons j p.route).trans hsuffix⟩

/-- The value of a property is not strictly below another child of it, nor below itself. -/
theorem not_below_of_value? (hq : q ∈ p.children) (hv : cx.value? p = some o.value) :
    ¬ Below q o := by
  intro h
  have hdeep := h.length_lt
  have hqlen := Position.length_route_of_mem_children hq
  have hvlen := Position.length_route_of_mem_children (mem_children_of_value? hv)
  omega

theorem seen_top (cx : FoldContext) : cx.Seen (Position.top cx.source.tree) :=
  ⟨fun _ ho => ho, fun _ ho _ => ho⟩

/-- Outcomes strictly below a child are outcomes of that child, which then is looked at. -/
theorem Seen.mem_of_below (h : cx.Seen p) (hq : q ∈ p.children) (ho : o ∈ cx.outcomes)
    (hbelow : Below q o) : ¬ cx.Folds p ∧ q ∈ p.namedChildren ∧ o ∈ cx.outcomesAt q := by
  rcases mem_outcomesAt_iff.mp (h.2 o ho (hbelow.of_child hq)) with
    ⟨value, text, hv, _, rfl⟩ | ⟨value, reason, hv, _, rfl⟩ | ⟨hopen, c, hc, hoc⟩
  · exact absurd hbelow (not_below_of_value? hq hv)
  · exact absurd hbelow (not_below_of_value? hq hv)
  · have hc' := Position.mem_children_of_mem_namedChildren hc
    obtain ⟨i, r, hroute, hsuffix⟩ := below_of_mem_outcomesAt hoc
    obtain ⟨i', r', hroute', hsuffix'⟩ := hbelow
    obtain ⟨_, rfl⟩ := List.cons.inj (hroute.symm.trans hroute')
    obtain ⟨j, hj⟩ := Position.exists_route_of_mem_children hc'
    obtain ⟨j', hj'⟩ := Position.exists_route_of_mem_children hq
    have heq : c.route = q.route := by
      by_cases hne : c.route = q.route
      · exact hne
      · exact absurd hsuffix' (Position.route_ne_of_suffix (by rw [hj, hj']; rfl) hne hsuffix)
    obtain rfl := Position.eq_of_route_eq p.children_pairwise hc' hq heq
    exact ⟨fun ⟨value, text, hv, hok⟩ => hopen value text hv hok, hc, hoc⟩

theorem Seen.child (h : cx.Seen p) (hfold : ¬ cx.Folds p) (hq : q ∈ p.namedChildren) :
    cx.Seen q := by
  refine ⟨fun o ho => h.1 o (mem_outcomesAt_iff.mpr (.inr (.inr ⟨?_, q, hq, ho⟩))), ?_⟩
  · exact fun value text hv hok => hfold ⟨value, text, hv, hok⟩
  · intro o ho hbelow
    exact (h.mem_of_below (Position.mem_children_of_mem_namedChildren hq) ho hbelow).2.2

theorem Seen.unseen_of_folds (h : cx.Seen p) (hfold : cx.Folds p) (hq : q ∈ p.children) :
    cx.Unseen q := fun _ ho hbelow => (h.mem_of_below hq ho hbelow).1 hfold

theorem Seen.unseen_of_not_named (h : cx.Seen p) (hq : q ∈ p.children) (hnamed : ¬ q.node.named) :
    cx.Unseen q := fun _ ho hbelow =>
  hnamed (List.mem_filter.mp (h.mem_of_below hq ho hbelow).2.1).2

theorem Unseen.child (h : cx.Unseen p) (hq : q ∈ p.children) : cx.Unseen q :=
  fun o ho hbelow => h o ho (hbelow.of_child hq)

/-- A child of a place is looked at as a whole or not at all, as the place is. -/
theorem settled_child (h : cx.Seen p ∨ cx.Unseen p) (hq : q ∈ p.children) :
    cx.Seen q ∨ cx.Unseen q := by
  rcases h with h | h
  · by_cases hfold : cx.Folds p
    · exact .inr (h.unseen_of_folds hfold hq)
    · by_cases hnamed : q.node.named = true
      · exact .inl (h.child hfold (List.mem_filter.mpr ⟨hq, hnamed⟩))
      · exact .inr (h.unseen_of_not_named hq hnamed)
  · exact .inr (h.child hq)

/-! ## Which places carry a literal -/

theorem exists_outcome_of_literalAt {route : Route} (h : cx.literalAt route = some literal) :
    ∃ value, .folded value literal ∈ cx.outcomes ∧ value.route = route ∧
      literal ≠ cx.source.textOf value.node := by
  obtain ⟨o, ho, heq⟩ := List.exists_of_findSome?_eq_some h
  split at heq
  · rename_i hroute
    cases o with
    | folded value written =>
      simp only [Outcome.replacement?] at heq
      split at heq
      · cases heq
      · rename_i hne
        cases heq
        exact ⟨value, ho, hroute, hne⟩
    | skipped value reason => cases heq
  · cases heq

/-- A child carries a literal only as the value of a property that is folded and looked at. -/
theorem of_literalAt_child (h : cx.Seen p ∨ cx.Unseen p) (hq : q ∈ p.children)
    (hl : cx.literalAt q.route = some literal) :
    cx.Seen p ∧ cx.value? p = some q ∧ literal ≠ cx.source.textOf q.node ∧
      ∃ text, cx.verdict q = .ok text ∧ literal = Literal.encode cx.options.quote text := by
  obtain ⟨value, ho, hroute, hne⟩ := exists_outcome_of_literalAt hl
  obtain ⟨j, hj⟩ := Position.exists_route_of_mem_children hq
  have hbelow : Below p (.folded value literal) :=
    ⟨j, p.route, hroute.trans hj, List.suffix_refl _⟩
  rcases h with hseen | hunseen
  · rcases mem_outcomesAt_iff.mp (hseen.2 _ ho hbelow) with
      ⟨value', text, hv, hok, heq⟩ | ⟨value', reason, _, _, heq⟩ | ⟨_, c, hc, hoc⟩
    · cases heq
      have hmem := mem_children_of_value? hv
      obtain rfl := Position.eq_of_route_eq p.children_pairwise hmem hq hroute
      exact ⟨hseen, hv, hne, text, hok, rfl⟩
    · cases heq
    · -- the outcomes of a child have their values deeper than `q`
      have hdeep := (below_of_mem_outcomesAt hoc).length_lt
      have hclen := Position.length_route_of_mem_children
        (Position.mem_children_of_mem_namedChildren hc)
      have hqlen := Position.length_route_of_mem_children hq
      rw [← hroute] at hqlen
      simp only [Outcome.value] at hdeep
      omega
  · exact absurd hbelow (hunseen _ ho)

theorem literalAt_of_not_folds (h : cx.Seen p ∨ cx.Unseen p) (hfold : ¬ cx.Folds p)
    (hq : q ∈ p.children) : cx.literalAt q.route = none := by
  cases hl : cx.literalAt q.route with
  | none => rfl
  | some literal =>
    obtain ⟨_, hv, _, text, hok, _⟩ := of_literalAt_child h hq hl
    exact absurd ⟨q, text, hv, hok⟩ hfold

theorem literalAt_of_unseen (h : cx.Unseen p) (hq : q ∈ p.children) :
    cx.literalAt q.route = none := by
  cases hl : cx.literalAt q.route with
  | none => rfl
  | some literal =>
    obtain ⟨hseen, hv, _, text, hok, _⟩ := of_literalAt_child (.inr h) hq hl
    have ho := hseen.1 _ (mem_outcomesAt_iff.mpr (.inl ⟨q, text, hv, hok, rfl⟩))
    obtain ⟨j, hj⟩ := Position.exists_route_of_mem_children hq
    exact absurd ⟨j, p.route, hj, List.suffix_refl _⟩ (h _ ho)

/-- The value of a folded property carries its literal, unless it is that literal already. -/
theorem literalAt_value {text : Text} (h : cx.Seen p) (hv : cx.value? p = some value)
    (hok : cx.verdict value = .ok text) :
    cx.literalAt value.route =
      if Literal.encode cx.options.quote text = cx.source.textOf value.node then none
      else some (Literal.encode cx.options.quote text) := by
  have hmem := mem_children_of_value? hv
  cases hl : cx.literalAt value.route with
  | some literal =>
    obtain ⟨_, _, hne, text', hok', rfl⟩ := of_literalAt_child (.inl h) hmem hl
    cases hok.symm.trans hok'
    rw [if_neg hne]
  | none =>
    have ho := h.1 _ (mem_outcomesAt_iff.mpr (.inl ⟨value, text, hv, hok, rfl⟩))
    have hnone := List.findSome?_eq_none_iff.mp hl _ ho
    simp only [Outcome.value, if_true, Outcome.replacement?] at hnone
    split at hnone
    · rename_i heq
      rw [if_pos heq]
    · cases hnone

/-- Only the value of a folded property carries a literal. -/
theorem literalAt_of_ne_value (h : cx.Seen p ∨ cx.Unseen p) (hv : cx.value? p = some value)
    (hq : q ∈ p.children) (hne : q ≠ value) : cx.literalAt q.route = none := by
  cases hl : cx.literalAt q.route with
  | none => rfl
  | some literal =>
    obtain ⟨_, hv', _⟩ := of_literalAt_child h hq hl
    exact absurd (Option.some.inj (hv'.symm.trans hv)) hne

/-! ## The edits of a pass -/

/-- The edit that an outcome asks for. -/
def edit? (cx : FoldContext) (o : Outcome) : Option Edit :=
  (o.replacement? cx.source).map (·.toEdit)

/-- The edits below a place. -/
def editsBelow (cx : FoldContext) (p : Position) : List Edit :=
  p.children.flatMap (Position.edits cx.literalAt)

theorem editsBelow_of_unseen (h : cx.Unseen p) : cx.editsBelow p = [] := by
  induction p using Position.induction_on_children with
  | step p ih =>
    rw [editsBelow, List.flatMap_eq_nil_iff]
    intro q hq
    rw [Position.edits_of_none (literalAt_of_unseen h hq)]
    exact ih q hq (h.child hq)

theorem flatMap_filter_of_nil {f g : Position → List Edit} {keep : Position → Bool}
    {l : List Position} (h : ∀ q ∈ l, f q = if keep q then g q else []) :
    l.flatMap f = (l.filter keep).flatMap g := by
  induction l with
  | nil => rfl
  | cons q l ih =>
    have hq := h q (List.mem_cons_self ..)
    rw [List.flatMap_cons, ih fun x hx => h x (List.mem_cons_of_mem _ hx), List.filter_cons]
    split at hq <;> simp_all

/-- Only the value of a folded property is edited. -/
theorem editsBelow_of_folds {text : Text} (h : cx.Seen p) (hv : cx.value? p = some value)
    (hok : cx.verdict value = .ok text) :
    cx.editsBelow p =
      (cx.edit? (.folded value (Literal.encode cx.options.quote text))).toList := by
  have hchild : ∀ q ∈ p.children, cx.Unseen q :=
    fun q hq => h.unseen_of_folds ⟨value, text, hv, hok⟩ hq
  -- the children before and after the value carry no literal and have no outcome below them
  obtain ⟨before, after, hsplit⟩ := List.append_of_mem (mem_children_of_value? hv)
  have hpair := p.children_pairwise
  rw [hsplit, List.pairwise_append, List.pairwise_cons] at hpair
  obtain ⟨_, ⟨hafter, _⟩, hbefore⟩ := hpair
  have hother : ∀ q ∈ p.children, q.route ≠ value.route → q.edits cx.literalAt = [] := by
    intro q hq hne
    rw [Position.edits_of_none (literalAt_of_ne_value (.inl h) hv hq fun heq => hne (heq ▸ rfl))]
    exact editsBelow_of_unseen (hchild q hq)
  have hbefore' : before.flatMap (Position.edits cx.literalAt) = [] := by
    rw [List.flatMap_eq_nil_iff]
    intro q hq
    exact hother q (by simp [hsplit, hq]) (hbefore q hq value (List.mem_cons_self ..))
  have hafter' : after.flatMap (Position.edits cx.literalAt) = [] := by
    rw [List.flatMap_eq_nil_iff]
    intro q hq
    exact hother q (by simp [hsplit, hq]) (hafter q hq).symm
  have hvalue : value.edits cx.literalAt =
      (cx.edit? (.folded value (Literal.encode cx.options.quote text))).toList := by
    have hl := literalAt_value h hv hok
    simp only [edit?, Outcome.replacement?]
    split at hl
    · rename_i heq
      rw [if_pos heq, Position.edits_of_none hl]
      exact editsBelow_of_unseen (hchild value (mem_children_of_value? hv))
    · rename_i hne
      rw [if_neg hne, Position.edits_of_some hl]
      rfl
  rw [editsBelow, hsplit, List.flatMap_append, List.flatMap_cons, hbefore', hafter', hvalue]
  simp

/-- The edits below a place that the pass looks at are those of its outcomes, in their order. -/
theorem editsBelow_of_seen (h : cx.Seen p) :
    cx.editsBelow p = (cx.outcomesAt p).filterMap cx.edit? := by
  induction p using Position.induction_on_children with
  | step p ih =>
    by_cases hfold : cx.Folds p
    · obtain ⟨value, text, hv, hok⟩ := hfold
      rw [editsBelow_of_folds h hv hok, outcomesAt_of_ok hv hok]
      cases hedit : cx.edit? (.folded value (Literal.encode cx.options.quote text)) <;> simp [hedit]
    · -- no child carries a literal, so the edits are those further down
      have hbelow : cx.editsBelow p =
          (p.namedChildren.flatMap cx.outcomesAt).filterMap cx.edit? := by
        rw [List.filterMap_flatMap, editsBelow, Position.namedChildren]
        apply flatMap_filter_of_nil
        intro q hq
        rw [Position.edits_of_none (literalAt_of_not_folds (.inl h) hfold hq)]
        split
        · rename_i hnamed
          exact ih q hq (h.child hfold (List.mem_filter.mpr ⟨hq, hnamed⟩))
        · rename_i hnamed
          exact editsBelow_of_unseen (h.unseen_of_not_named hq hnamed)
      cases hv : cx.value? p with
      | none => rw [hbelow, outcomesAt_of_none hv]
      | some value =>
        cases hok : cx.verdict value with
        | ok text => exact absurd ⟨value, text, hv, hok⟩ hfold
        | error reason =>
          rw [hbelow, outcomesAt_of_error hv hok]
          rfl

theorem outcomesAt_of_no_pair (h : p.tree.hasPair = false) : cx.outcomesAt p = [] := by
  induction p using Position.induction_on_children with
  | step p ih =>
    rw [Tree.hasPair_eq, Bool.or_eq_false_iff, decide_eq_false_iff_not] at h
    have hnone : cx.value? p = none := if_neg h.1
    rw [outcomesAt_of_none hnone, List.flatMap_eq_nil_iff]
    intro q hq
    have hq' := Position.mem_children_of_mem_namedChildren hq
    exact ih q hq' (Tree.hasPair_of_mem h.2 (Position.tree_mem_of_mem_children hq'))

/-- Where there are no properties there are no edits. -/
theorem edits_of_no_pair (hsettled : cx.Seen p ∨ cx.Unseen p) (hl : cx.literalAt p.route = none)
    (h : p.tree.hasPair = false) : p.edits cx.literalAt = [] := by
  rw [Position.edits_of_none hl]
  rcases hsettled with hseen | hunseen
  · have hbelow := editsBelow_of_seen hseen
    rwa [outcomesAt_of_no_pair h] at hbelow
  · exact editsBelow_of_unseen hunseen

theorem not_folds_of_kind (h : p.kind ≠ .pair) : ¬ cx.Folds p := by
  rintro ⟨value, text, hv, _⟩
  exact h (value?_eq_some_iff.mp hv).1

theorem literalAt_top (cx : FoldContext) : cx.literalAt [] = none := by
  cases hl : cx.literalAt [] with
  | none => rfl
  | some literal =>
    obtain ⟨value, ho, hroute, _⟩ := exists_outcome_of_literalAt hl
    obtain ⟨i, r, hi, _⟩ := below_of_mem_outcomesAt ho
    cases hroute.symm.trans hi

/-- The edits of the whole tree are the recorded replacements. -/
theorem edits_top (cx : FoldContext) :
    (Position.top cx.source.tree).edits cx.literalAt = cx.fold.replacements.map (·.toEdit) := by
  rw [Position.edits_of_none (literalAt_top cx), fold_replacements, List.map_filterMap]
  exact editsBelow_of_seen (seen_top cx)

/-- The rewritten text is what stood before the tree, the text of the tree with its edits
applied, and what stood behind it. -/
theorem exists_reparsed_text_eq (h : cx.source.Nested) :
    let top := Position.top cx.source.tree
    ∃ front u back, Text.slice cx.source.text 0 top.node.span.start = some front ∧
      Spliced cx.source.text top.node.span.start top.node.span.stop (top.edits cx.literalAt) u ∧
      Text.slice cx.source.text top.node.span.stop (Text.byteLength cx.source.text) = some back ∧
      cx.reparsed.text = front ++ (u ++ back) := by
  intro top
  have hmem := Position.top_mem_all cx.source.tree
  obtain ⟨hstart, hstop⟩ := h.bounded _ hmem
  have hzero : Text.isBoundary cx.source.text 0 := Text.isBoundary_iff.mpr ⟨[], _, rfl, rfl⟩
  have hend : Text.isBoundary cx.source.text (Text.byteLength cx.source.text) :=
    Text.isBoundary_iff.mpr ⟨_, [], by simp, rfl⟩
  obtain ⟨front, hfront⟩ := Text.exists_slice hzero hstart (Nat.zero_le _)
  obtain ⟨back, hback⟩ := Text.exists_slice hstop hend (Text.le_byteLength_of_isBoundary hstop)
  obtain ⟨u, hu⟩ := h.exists_spliced cx.literalAt hmem
  have hall := (hu.append (.nil hback)).prepend hfront
  rw [List.append_nil] at hall
  refine ⟨front, u, back, hfront, hu, hback, ?_⟩
  rw [← hall.splice_eq, edits_top]
  rfl

end LiteralFolding.FoldContext
