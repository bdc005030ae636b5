-- Where the text of a replacement was written. Each piece of it stands in a literal of the value,
-- or in the literal behind the name that a reference of the value means. The first kind is never
-- broken, since a pass leaves broken values alone. Nothing looks at the second kind.
import LiteralFolding.Proofs.Exchange
import LiteralFolding.Proofs.Marks
import LiteralFolding.Proofs.Provenance

namespace LiteralFolding

/-! ## Places and trees -/

namespace Position

variable {p q : Position}

theorem exists_child? {field : Field} {t : Tree} (h : p.tree.child? field = some t) :
    ∃ q, p.child? field = some q ∧ q.tree = t := by
  unfold Tree.child? at h
  rw [← map_tree_children, List.find?_map] at h
  exact Option.map_eq_some_iff.mp h

theorem exists_mem_namedChildren {t : Tree} (h : t ∈ p.tree.namedChildren) :
    ∃ q ∈ p.namedChildren, q.tree = t := by
  rw [← map_tree_namedChildren] at h
  exact List.mem_map.mp h

mutual

theorem meaningfulFrom_subset (above : List Node) (route : Route) :
    (t : Tree) → p ∈ meaningfulFrom above route t → p ∈ listFrom above route t
  | .mk node children, h => by
    rw [meaningfulFrom] at h
    rw [listFrom]
    rcases List.mem_cons.mp h with rfl | h
    · exact List.mem_cons_self ..
    · exact List.mem_cons_of_mem _ (meaningfulBelow_subset _ _ _ children h)

theorem meaningfulBelow_subset (above : List Node) (route : Route) (i : Nat) :
    (ts : List Tree) → p ∈ meaningfulBelow above route i ts → p ∈ listBelow above route i ts
  | [], h => by simp [meaningfulBelow] at h
  | t :: ts, h => by
    rw [meaningfulBelow] at h
    rw [listBelow]
    rcases List.mem_append.mp h with h | h
    · split at h
      · exact List.mem_append_left _ (meaningfulFrom_subset _ _ t h)
      · cases h
    · exact List.mem_append_right _ (meaningfulBelow_subset _ _ _ ts h)

end

theorem mem_all_of_mem_meaningful {t : Tree} (h : p ∈ meaningful t) : p ∈ all t :=
  meaningfulFrom_subset [] [] t h

end Position

/-! ## The parts of an expression -/

namespace Expression

variable {s : Source} {p q : Position}

/-- The expressions that an expression is put together from. -/
def parts : Expression → List Position
  | .template _ spans => spans.map (·.1)
  | .concatenation left _ right => [left, right]
  | .parenthesized inner => [inner]
  | _ => []

/-- The second place is the first, or is a part of a part of it at any depth. -/
inductive Operand (s : Source) : Position → Position → Prop
  | refl (p : Position) : Operand s p p
  | step {p q r : Position} : q ∈ (ofPosition s p).parts → Operand s q r → Operand s p r

theorem exists_substitution {cursor stop : Nat} {ps : List Position} {head : Text}
    {spans : List (Position × Text)} (h : segments? s cursor stop ps = some (head, spans))
    (hq : q ∈ spans.map (·.1)) : ∃ p ∈ ps, q = substituted p := by
  induction ps generalizing cursor head spans with
  | nil =>
    rw [segments?] at h
    obtain ⟨_, _, heq⟩ := Option.map_eq_some_iff.mp h
    cases heq
    simp at hq
  | cons p ps ih =>
    rw [segments?] at h
    split at h
    · rename_i hrest
      cases h
      rcases List.mem_cons.mp hq with rfl | hq
      · exact ⟨p, List.mem_cons_self .., rfl⟩
      · obtain ⟨p', hp', rfl⟩ := ih hrest hq
        exact ⟨p', List.mem_cons_of_mem _ hp', rfl⟩
    · cases h

/-- What passes down to the children passes down to the parts. -/
theorem closed_of_mem_parts {P : Position → Prop} (hclosed : ∀ p, P p → ∀ q ∈ p.children, P q)
    (hp : P p) (hq : q ∈ (ofPosition s p).parts) : P q := by
  have hform := form_ofPosition s p
  cases h : ofPosition s p with
  | literal text => simp [h, parts] at hq
  | template head spans =>
    rw [h] at hq hform
    obtain ⟨r, hr, rfl⟩ := exists_substitution hform.2 hq
    have hPr := hclosed p hp r (mem_children_of_mem_substitutions hr)
    unfold substituted
    cases hfirst : r.firstExpression? with
    | none => exact hPr
    | some e => exact hclosed r hPr e (Position.mem_children_of_firstExpression? hfirst)
  | concatenation left operator right =>
    rw [h] at hq hform
    simp only [parts, List.mem_cons, List.not_mem_nil, or_false] at hq
    rcases hq with rfl | rfl
    · exact hclosed p hp _ (Position.mem_children_of_child? hform.1)
    · exact hclosed p hp _ (Position.mem_children_of_child? hform.2)
  | parenthesized inner =>
    rw [h] at hq hform
    obtain rfl := List.mem_singleton.mp hq
    exact hclosed p hp _ (Position.mem_children_of_firstExpression? hform)
  | reference => simp [h, parts] at hq
  | unsupported => simp [h, parts] at hq

theorem Operand.closed {P : Position → Prop} (hclosed : ∀ p, P p → ∀ q ∈ p.children, P q)
    (h : Operand s p q) (hp : P p) : P q := by
  induction h with
  | refl p => exact hp
  | step hmem _ ih => exact ih (closed_of_mem_parts hclosed hp hmem)

end Expression

/-! ## Literals behind names -/

namespace Source

variable {s : Source} {p : Position}

/-- The literal stands behind a name at the place that the binding gives: as the value of a
variable or of an entry of an enumeration. -/
def Initializes (s : Source) (b : Binding) (literal : Position) : Prop :=
  ∃ holder ∈ Position.all s.tree,
    (holder.kind = .variableDeclarator ∨ holder.kind = .enumAssignment) ∧
    (∃ name, holder.child? .name = some name ∧ s.locationOf name.node = b.declaredAt) ∧
    holder.child? .value = some literal ∧ s.literalText? literal.tree = some b.text

theorem Initializes.mem_all {b : Binding} (h : s.Initializes b p) : p ∈ Position.all s.tree := by
  obtain ⟨holder, hholder, _, _, hvalue, _⟩ := h
  exact Position.mem_all_of_mem_children hholder (Position.mem_children_of_child? hvalue)

theorem exists_initializes_of_holder {b : Binding} {holder : Position} {spelled value : Tree}
    (hholder : holder ∈ Position.all s.tree)
    (hkind : holder.kind = .variableDeclarator ∨ holder.kind = .enumAssignment)
    (hspelled : holder.tree.child? .name = some spelled)
    (hlocation : s.locationOf spelled.node = b.declaredAt)
    (hvalue : holder.tree.child? .value = some value)
    (hliteral : s.literalText? value = some b.text) : ∃ literal, s.Initializes b literal := by
  obtain ⟨name, hname, rfl⟩ := Position.exists_child? hspelled
  obtain ⟨literal, hliteral', rfl⟩ := Position.exists_child? hvalue
  exact ⟨literal, holder, hholder, hkind, ⟨name, hname, hlocation⟩, hliteral', hliteral⟩

theorem exists_initializes_of_gives {name : Text} {b : Binding} (h : s.Gives name b) :
    ∃ literal, s.Initializes b literal := by
  cases h with
  | declarator _ hplace _ hdeclarator hspelled _ hlocation hvalue hliteral =>
    obtain ⟨holder, hholder, rfl⟩ := Position.exists_mem_namedChildren hdeclarator.1
    have hmem := Position.mem_all_of_mem_children (Position.mem_all_of_mem_meaningful hplace)
      (Position.mem_children_of_mem_namedChildren hholder)
    exact exists_initializes_of_holder hmem (.inl hdeclarator.2) hspelled.1 hlocation hvalue
      hliteral.2
  | entry _ hplace _ hbody hassignment hspelled _ hlocation hvalue hliteral =>
    obtain ⟨body, hbody', rfl⟩ := Position.exists_child? hbody
    obtain ⟨holder, hholder, rfl⟩ := Position.exists_mem_namedChildren hassignment.1
    have hmem := Position.mem_all_of_mem_children
      (Position.mem_all_of_mem_children (Position.mem_all_of_mem_meaningful hplace.1)
        (Position.mem_children_of_child? hbody'))
      (Position.mem_children_of_mem_namedChildren hholder)
    exact exists_initializes_of_holder hmem (.inr hassignment.2) hspelled hlocation hvalue
      hliteral.2

end Source

/-! ## Where a text was written -/

namespace Excerpt

/-- The excerpt is of a literal of the value, or of a template around other parts of it. -/
def Written (s : Source) (value : Position) (x : Excerpt) : Prop :=
  x.source = s ∧ Expression.Operand s value x.literal ∧
    (Expression.ofPosition s x.literal = .literal x.text ∨
      ∃ head spans, Expression.ofPosition s x.literal = .template head spans ∧
        x.text ∈ head :: spans.map (·.2))

/-- The excerpt is of the literal behind the name that a reference of the value means. -/
def Named (program : Program) (s : Source) (value : Position) (x : Excerpt) : Prop :=
  ∃ p b, Expression.Operand s value p ∧ Expression.ofPosition s p = .reference ∧
    program.symbols.resolve? s p = some b ∧ program.source? b.source = some x.source ∧
    x.source.Initializes b x.literal ∧ x.text = b.text

variable {program : Program} {s : Source} {p q value : Position} {x : Excerpt}

theorem Written.of_part (h : Written s q x) (hq : q ∈ (Expression.ofPosition s p).parts) :
    Written s p x :=
  ⟨h.1, .step hq h.2.1, h.2.2⟩

theorem Named.of_part (h : Named program s q x) (hq : q ∈ (Expression.ofPosition s p).parts) :
    Named program s p x := by
  obtain ⟨r, b, hr, hrest⟩ := h
  exact ⟨r, b, .step hq hr, hrest⟩

/-- Nothing in a value that is not broken is broken. -/
theorem Written.whole (hs : s.Delimited) (h : Written s value x)
    (hvalue : value ∈ Position.all s.tree) (hwhole : value.node.broken = false) :
    x.literal ∈ Position.all s.tree ∧ x.Whole := by
  refine h.2.1.closed (P := fun p => p ∈ Position.all s.tree ∧ p.node.broken = false) ?_
    ⟨hvalue, hwhole⟩
  intro p hp q hq
  refine ⟨Position.mem_all_of_mem_children hp.1 hq, ?_⟩
  by_contra hbroken
  have := hs.flagged p hp.1 q hq (by simpa using hbroken)
  simp [hp.2] at this

theorem Written.enclosed (hs : s.Delimited) (hnested : s.Nested) (h : Written s value x)
    (hvalue : value ∈ Position.all s.tree) (hwhole : value.node.broken = false) : x.Enclosed := by
  obtain ⟨hmem, hwhole⟩ := h.whole hs hvalue hwhole
  obtain ⟨source, literal, text⟩ := x
  obtain ⟨rfl, _, hform | ⟨head, spans, hform, htext⟩⟩ := h
  · have hliteral : Expression.Form source literal (.literal text) :=
      hform ▸ Expression.form_ofPosition source literal
    exact Source.enclosed_of_literalText? hs hmem hwhole hliteral
  · exact Source.enclosed_of_segment hs hnested hmem hwhole hform htext

/-- A literal behind a name has its text between its marks if it is not broken. -/
theorem Named.enclosed (hsources : ∀ s ∈ program.sources, s.Delimited) (h : Named program s value x)
    (hwhole : x.Whole) : x.Enclosed := by
  obtain ⟨p, b, _, _, _, hsource, hinitializes, htext⟩ := h
  obtain ⟨source, literal, text⟩ := x
  subst htext
  have hmem := hinitializes.mem_all
  obtain ⟨_, _, _, _, _, hliteral⟩ := hinitializes
  exact Source.enclosed_of_literalText? (hsources _ (List.mem_of_getElem? hsource)) hmem hwhole
    hliteral

end Excerpt

namespace Program

/-- What a reference is bound to was written behind a name. -/
theorem exists_initializes_of_resolve? {sources : List Source} {s : Source} {p : Position}
    {b : Binding} (h : (ofSources sources).symbols.resolve? s p = some b) :
    ∃ origin literal, (ofSources sources).source? b.source = some origin ∧
      origin.Initializes b literal := by
  obtain ⟨origin, horigin, _, _, hgives⟩ := exists_gives_of_resolve? h
  obtain ⟨literal, hliteral⟩ := Source.exists_initializes_of_gives hgives
  exact ⟨origin, literal, source?_of_gives horigin hgives, hliteral⟩

end Program

/-! ## All fragments of a value -/

namespace Fragment

variable {sources : List Source} {s : Source} {p q : Position} {texts : List Text}

/-- The texts are those of literals in the value and of literals behind names, in order. -/
def Explained (program : Program) (s : Source) (value : Position) (texts : List Text) : Prop :=
  ∃ xs : List Excerpt, xs.map (·.text) = texts ∧
    ∀ x ∈ xs, x.Written s value ∨ x.Named program s value

theorem Explained.append {program : Program} {more : List Text}
    (h : Explained program s p texts) (h' : Explained program s p more) :
    Explained program s p (texts ++ more) := by
  obtain ⟨xs, rfl, hxs⟩ := h
  obtain ⟨ys, rfl, hys⟩ := h'
  refine ⟨xs ++ ys, List.map_append, ?_⟩
  intro x hx
  rcases List.mem_append.mp hx with hx | hx
  · exact hxs x hx
  · exact hys x hx

theorem Explained.of_part {program : Program} (h : Explained program s q texts)
    (hq : q ∈ (Expression.ofPosition s p).parts) : Explained program s p texts := by
  obtain ⟨xs, htexts, hxs⟩ := h
  refine ⟨xs, htexts, ?_⟩
  intro x hx
  rcases hxs x hx with hwritten | hnamed
  · exact .inl (hwritten.of_part hq)
  · exact .inr (hnamed.of_part hq)

theorem explained_of_form {program : Program} {text : Text}
    (h : Expression.ofPosition s p = .literal text ∨
      ∃ head spans, Expression.ofPosition s p = .template head spans ∧
        text ∈ head :: spans.map (·.2)) : Explained program s p [text] := by
  refine ⟨[⟨s, p, text⟩], rfl, ?_⟩
  intro x hx
  obtain rfl := List.mem_singleton.mp hx
  exact .inl ⟨rfl, .refl p, h⟩

theorem explained_of_reference {text : Text} (h : Expression.ofPosition s p = .reference)
    (htext : (Program.ofSources sources).resolver s p = some text) :
    Explained (Program.ofSources sources) s p [text] := by
  obtain ⟨b, hb, rfl⟩ := Option.map_eq_some_iff.mp htext
  obtain ⟨origin, literal, horigin, hliteral⟩ := Program.exists_initializes_of_resolve? hb
  refine ⟨[⟨origin, literal, b.text⟩], rfl, ?_⟩
  intro x hx
  obtain rfl := List.mem_singleton.mp hx
  exact .inr ⟨p, b, .refl p, h, hb, horigin, hliteral, rfl⟩

theorem exists_of_andThen {a b : List Text × Option FragmentError}
    (h : andThen a b = (texts, none)) :
    ∃ front back, a = (front, none) ∧ b = (back, none) ∧ texts = front ++ back := by
  obtain ⟨front, _ | e⟩ := a
  · obtain ⟨back, failure⟩ := b
    rw [andThen_of_success] at h
    cases h
    exact ⟨front, back, rfl, rfl, rfl⟩
  · cases h

/-- The texts of the spans of a template, if those of its expressions are explained. -/
theorem explained_of_spans {resolver : Resolver} {program : Program} {head : Text}
    {all spans : List (Position × Text)} (h : Expression.ofPosition s p = .template head all)
    (hspans : ∀ span ∈ spans, span ∈ all)
    (hall : ∀ span ∈ all, ∀ texts, ofPosition s resolver span.1 = (texts, none) →
      Explained program s span.1 texts)
    (htexts : collect s resolver (Part.ofSpans spans) = (texts, none)) :
    Explained program s p texts := by
  induction spans generalizing texts with
  | nil =>
    have hnil : collect s resolver (Part.ofSpans []) = ([], none) := by
      simp [Part.ofSpans, collect]
    rw [hnil] at htexts
    cases htexts
    exact ⟨[], rfl, by simp⟩
  | cons span spans ih =>
    obtain ⟨q, text⟩ := span
    have hmem := hspans _ (List.mem_cons_self ..)
    rw [collect_ofSpans_cons] at htexts
    obtain ⟨front, back, hfront, hback, rfl⟩ := exists_of_andThen htexts
    obtain ⟨_, rest, heq, hrest, rfl⟩ := exists_of_andThen hback
    cases heq
    have hq : q ∈ (Expression.ofPosition s p).parts := by
      rw [h]
      exact List.mem_map_of_mem (f := (·.1)) hmem
    refine ((hall _ hmem _ hfront).of_part hq).append (.append ?_ (ih ?_ hrest))
    · apply explained_of_form
      exact .inr ⟨head, all, h, List.mem_cons_of_mem _ (List.mem_map_of_mem (f := (·.2)) hmem)⟩
    · intro span hspan
      exact hspans span (List.mem_cons_of_mem _ hspan)

/-- All fragments of an expression are explained. -/
theorem explained_ofPosition
    (h : ofPosition s (Program.ofSources sources).resolver p = (texts, none)) :
    Explained (Program.ofSources sources) s p texts := by
  -- the parts of an expression are smaller than the whole
  induction hn : p.tree.size using Nat.strongRecOn generalizing p texts with
  | _ n ih =>
    subst hn
    cases hform : Expression.ofPosition s p with
    | literal text =>
      rw [ofPosition_literal hform] at h
      cases h
      exact explained_of_form (.inl hform)
    | template head spans =>
      rw [ofPosition_template hform] at h
      obtain ⟨_, rest, heq, hrest, rfl⟩ := exists_of_andThen h
      cases heq
      refine (explained_of_form (.inr ⟨head, spans, hform, List.mem_cons_self ..⟩)).append ?_
      refine explained_of_spans hform (fun _ hspan => hspan) ?_ hrest
      intro span hspan texts htexts
      have hlt := Expression.sizeAll_template_lt hform
      have hle := Position.size_le_sizeAll (List.mem_map_of_mem (f := (·.1)) hspan)
      exact ih _ (by omega) htexts rfl
    | concatenation left operator right =>
      by_cases hop : operator = .plus
      · subst hop
        rw [ofPosition_plus hform] at h
        obtain ⟨front, back, hleft, hright, rfl⟩ := exists_of_andThen h
        have hlt := Expression.size_concatenation_lt hform
        have hl := ih _ (by omega) hleft rfl
        have hr := ih _ (by omega) hright rfl
        exact (hl.of_part (by simp [hform, Expression.parts])).append
          (hr.of_part (by simp [hform, Expression.parts]))
      · rw [ofPosition_other_operator hform hop] at h
        cases h
    | parenthesized inner =>
      rw [ofPosition_parenthesized hform] at h
      have hinner := ih _ (Expression.size_parenthesized_lt hform) h rfl
      exact hinner.of_part (by simp [hform, Expression.parts])
    | reference =>
      rw [ofPosition_reference hform] at h
      cases htext : (Program.ofSources sources).resolver s p with
      | none =>
        rw [htext] at h
        cases h
      | some text =>
        rw [htext] at h
        cases h
        exact explained_of_reference hform htext
    | unsupported =>
      rw [ofPosition_unsupported hform] at h
      cases h

end Fragment

/-! ## Replacements -/

/-- What becomes of a property below a place that is none becomes of it from the place on. -/
theorem FoldContext.mem_outcomesAt_of_child {cx : FoldContext} {p q : Position} {o : Outcome}
    {i : Nat} (h : cx.value? p = none) (hq : p.namedChildren[i]? = some q)
    (ho : o ∈ cx.outcomesAt q) : o ∈ cx.outcomesAt p := by
  rw [outcomesAt_of_none h]
  exact List.mem_flatMap.mpr ⟨q, List.mem_of_getElem? hq, ho⟩

namespace Program

/-- Every replacement of a program spells what the transform makes of texts that were written in
literals of the value, or behind the names that references of the value mean. The literals of the
value are never broken, and their texts stand between their marks. The same goes for a literal
behind a name as far as it is not broken itself, which nothing looks at. -/
theorem replacement_comes_from_literals {sources : List Source} {s : Source} {transform : Transform}
    {options : FoldOptions} {r : Replacement}
    (hgrammar : ∀ o ∈ (ofSources sources).sources, o.Nested ∧ o.Delimited)
    (hs : s ∈ (ofSources sources).sources)
    (hr : r ∈ (FoldContext.fold
      { source := s, resolver := (ofSources sources).resolver, transform, options }).replacements) :
    ∃ value text, ∃ xs : List Excerpt, value ∈ Position.all s.tree ∧
      r = Outcome.writing s value (Literal.encode options.quote text) ∧
      transform (xs.map (·.text)).flatten = .done text ∧
      (∀ x ∈ xs, Excerpt.Written s value x ∨ Excerpt.Named (ofSources sources) s value x) ∧
      (∀ x, Excerpt.Written s value x → x.Whole ∧ x.Enclosed) ∧
      (∀ x, Excerpt.Named (ofSources sources) s value x → x.Whole → x.Enclosed) := by
  obtain ⟨hnested, hdelimited⟩ := hgrammar s hs
  obtain ⟨p, value, literal, hp, hoccurs, houtcome, rfl⟩ :=
    FoldContext.exists_value_of_mem_replacements hr
  have hvalue : value ∈ Position.all s.tree :=
    Position.mem_all_of_mem_children
      (FoldContext.mem_all_of_reaches (Position.top_mem_all _) hp)
      (Position.mem_children_of_child? hoccurs.2.2)
  obtain ⟨text, ⟨_, hsound, texts, hfragments, htext⟩, rfl⟩ :=
    FoldContext.right_of_mem_outcomesAt houtcome
  have hwhole : value.node.broken = false := hsound _ (by simp)
  obtain ⟨xs, rfl, hxs⟩ := Fragment.explained_ofPosition hfragments
  refine ⟨value, text, xs, hvalue, rfl, htext, hxs, ?_, ?_⟩
  · intro x hx
    exact ⟨(hx.whole hdelimited hvalue hwhole).2, hx.enclosed hdelimited hnested hvalue hwhole⟩
  · intro x hx
    exact hx.enclosed (fun o ho => (hgrammar o ho).2)

/-- The script `var a='0';f({template:''+a})` with a character zero in the place of the `0`. The
grammar has no such character, so the string is broken. -/
def crackedName : Source where
  index := 0
  path := []
  dialect := .typeScript
  text := ['v', 'a', 'r', ' ', 'a', '=', '\'', '\x00', '\'', ';', 'f', '(', '\x7b', 't', 'e', 'm',
    'p', 'l', 'a', 't', 'e', ':', '\'', '\'', '+', 'a', '\x7d', ')']
  tree := .cracked (.other "program") none 0 28 [
    .cracked .variableDeclaration none 0 10 [.cracked .variableDeclarator none 4 9 [
      .piece .identifier (some .name) 4 5 [],
      .cracked .string (some .value) 6 9 [.cracked (.other "ERROR") none 7 8 []]]],
    .piece (.other "expression_statement") none 10 28 [
      .piece (.other "call_expression") none 10 28 [.piece .identifier none 10 11 [],
        .piece (.other "arguments") none 11 28 [.piece (.other "object") none 12 27 [
          .piece .pair none 13 26 [.piece .propertyIdentifier (some .key) 13 21 [],
            .piece .binaryExpression (some .value) 22 26 [
              .piece .string (some .left) 22 24 [],
              .piece .plus (some .operator) 24 25 [],
              .piece .identifier (some .right) 25 26 []]]]]]]]

/-- The pass over it that changes no text. -/
def crackedFold : FoldContext where
  source := crackedName
  resolver := (ofSources [crackedName]).resolver
  transform := .done
  options := { property := "template".toList, quote := .double }

theorem grammar_crackedName :
    ∀ o ∈ (ofSources [crackedName]).sources, o.Nested ∧ o.Delimited := by
  intro o ho
  obtain rfl : o = crackedName := List.mem_singleton.mp ho
  refine ⟨⟨?_, ?_⟩, ⟨⟨?_⟩, ?_, ?_⟩⟩ <;> decide

/-- What the name is bound to. -/
def crackedBinding : Binding where
  text := ['\x00']
  kind := .varBinding
  source := 0
  declaredAt := ⟨1, 1, 4, 5⟩

/-- The value is folded, with the character of the broken string in it. -/
theorem exists_replacement_crackedName :
    ∃ value left right,
      Expression.ofPosition crackedName value = .concatenation left .plus right ∧
      Expression.ofPosition crackedName right = .reference ∧
      (ofSources [crackedName]).symbols.resolve? crackedName right = some crackedBinding ∧
      Outcome.writing crackedName value ['"', '\\', '0', '"'] ∈ crackedFold.fold.replacements := by
  obtain ⟨statement, hstatement, hstatement', call, hcall, hcall', arguments, harguments,
      harguments', object, hobject, hobject', pair, hpair, value, hvalue, hreplaced, hentry, hsound,
      left, right, hsum, hleft, hright, hresolve, htop⟩ :
      ∃ statement, (Position.top crackedName.tree).namedChildren[1]? = some statement ∧
        crackedFold.value? statement = none ∧
      ∃ call, statement.namedChildren[0]? = some call ∧ crackedFold.value? call = none ∧
      ∃ arguments, call.namedChildren[1]? = some arguments ∧
        crackedFold.value? arguments = none ∧
      ∃ object, arguments.namedChildren[0]? = some object ∧ crackedFold.value? object = none ∧
      ∃ pair, object.namedChildren[0]? = some pair ∧
      ∃ value, crackedFold.value? pair = some value ∧
        crackedName.textOf value.node = ['\'', '\'', '+', 'a'] ∧ value.kind.isEntry = true ∧
        (∀ n ∈ (value.node :: value.above).take 3, n.broken = false) ∧
      ∃ left right, Expression.ofPosition crackedName value = .concatenation left .plus right ∧
        crackedName.literalText? left.tree = some [] ∧
        Expression.ofPosition crackedName right = .reference ∧
        (ofSources [crackedName]).symbols.resolve? crackedName right = some crackedBinding ∧
        crackedFold.value? (Position.top crackedName.tree) = none := by
    refine ⟨_, rfl, rfl, _, rfl, rfl, _, rfl, rfl, _, rfl, rfl, _, rfl, _, rfl, rfl, rfl, ?_, _, _,
      rfl, ?_, rfl, ?_, rfl⟩
    · decide
    · decide +kernel
    · decide +kernel
  have hpasses : crackedFold.Passes value ['\x00'] := by
    refine ⟨hentry, hsound, [[], ['\x00']], ?_, rfl⟩
    have htext : crackedFold.resolver crackedName right = some ['\x00'] :=
      congrArg (Option.map Binding.text) hresolve
    show Fragment.ofPosition crackedName crackedFold.resolver value = _
    rw [Fragment.ofPosition_plus hsum,
      Fragment.ofPosition_literal (Expression.ofPosition_of_literalText? hleft),
      Fragment.ofPosition_reference hright, htext]
    rfl
  have hfolded : .folded value ['"', '\\', '0', '"'] ∈ crackedFold.outcomes := by
    apply FoldContext.mem_outcomesAt_of_child htop hstatement
    apply FoldContext.mem_outcomesAt_of_child hstatement' hcall
    apply FoldContext.mem_outcomesAt_of_child hcall' harguments
    apply FoldContext.mem_outcomesAt_of_child harguments' hobject
    apply FoldContext.mem_outcomesAt_of_child hobject' hpair
    rw [FoldContext.outcomesAt_of_ok hvalue (FoldContext.verdict_eq_ok_iff.mpr hpasses)]
    exact List.mem_singleton.mpr rfl
  refine ⟨value, left, right, hsum, hright, hresolve, ?_⟩
  rw [FoldContext.fold_replacements]
  refine List.mem_filterMap.mpr ⟨_, hfolded, if_neg ?_⟩
  show ¬ ['"', '\\', '0', '"'] = crackedName.textOf value.node
  rw [hreplaced]
  decide

/-- The texts of that value: an empty one that is written in it, and one that only the name
brings in. -/
theorem crackedName_comes_from_literals :
    (∀ o ∈ (ofSources [crackedName]).sources, o.Nested ∧ o.Delimited) ∧
      ∃ r ∈ crackedFold.fold.replacements, r.literal = ['"', '\\', '0', '"'] ∧
      ∃ value text, ∃ xs : List Excerpt,
        r = Outcome.writing crackedName value (Literal.encode .double text) ∧
        (xs.map (·.text)).flatten = text ∧
        (∀ x ∈ xs, Excerpt.Written crackedName value x ∨
          Excerpt.Named (ofSources [crackedName]) crackedName value x) ∧
        (∀ x, Excerpt.Written crackedName value x → x.Whole ∧ x.Enclosed) := by
  refine ⟨grammar_crackedName, ?_⟩
  obtain ⟨_, _, _, _, _, _, hr⟩ := exists_replacement_crackedName
  obtain ⟨value, text, xs, _, hwriting, htext, hxs, hwritten, _⟩ :=
    replacement_comes_from_literals grammar_crackedName (List.mem_singleton.mpr rfl) hr
  have htexts : (xs.map (·.text)).flatten = text := by
    cases htext
    rfl
  exact ⟨_, hr, rfl, value, text, xs, hwriting, htexts, hxs, hwritten⟩

/-- A broken string is folded into a value that is not broken, by the name it stands behind. -/
theorem broken_literal_is_folded_by_name :
    (∀ o ∈ (ofSources [crackedName]).sources, o.Nested ∧ o.Delimited) ∧
      ∃ value x, Outcome.writing crackedName value ['"', '\\', '0', '"'] ∈
          crackedFold.fold.replacements ∧
        Excerpt.Named (ofSources [crackedName]) crackedName value x ∧ x.text = ['\x00'] ∧
        ¬ x.Whole := by
  refine ⟨grammar_crackedName, ?_⟩
  obtain ⟨value, left, right, hsum, hright, hresolve, hr⟩ := exists_replacement_crackedName
  obtain ⟨holder, hholder, hkind, name, hname, hlocation, literal, hliteral, hbroken, htext⟩ :
      ∃ holder, (Position.all crackedName.tree)[2]? = some holder ∧
        holder.kind = .variableDeclarator ∧
      ∃ name, holder.child? .name = some name ∧
        crackedName.locationOf name.node = crackedBinding.declaredAt ∧
      ∃ literal, holder.child? .value = some literal ∧ literal.node.broken = true ∧
        crackedName.literalText? literal.tree = some crackedBinding.text := by
    refine ⟨_, rfl, rfl, _, rfl, ?_, _, rfl, rfl, ?_⟩
    · decide +kernel
    · decide +kernel
  have hinitializes : crackedName.Initializes crackedBinding literal :=
    ⟨holder, List.mem_of_getElem? hholder, .inl hkind, ⟨name, hname, hlocation⟩, hliteral, htext⟩
  have hoperand : Expression.Operand crackedName value right :=
    .step (by simp [hsum, Expression.parts]) (.refl right)
  refine ⟨value, ⟨crackedName, literal, ['\x00']⟩, hr, ?_, rfl, ?_⟩
  · exact ⟨right, crackedBinding, hoperand, hright, hresolve, rfl, hinitializes, rfl⟩
  · simp [Excerpt.Whole, hbroken]

end Program

end LiteralFolding
