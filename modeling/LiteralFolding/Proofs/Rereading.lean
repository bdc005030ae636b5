-- Reading an image again: it is an expression of the same form as the place it comes from, and it
-- gives the same fragments or fails for the same kind of reason.
import LiteralFolding.Proofs.Fragments
import LiteralFolding.Proofs.Images
import Mathlib.Data.List.Forall2

namespace LiteralFolding

/-! ## Alike failures -/

/-- Two failures of the same kind. Where they stand and the text they quote may differ. -/
def FragmentError.Alike : FragmentError → FragmentError → Prop
  | .unsupportedOperator operator _, .unsupportedOperator operator' _ => operator' = operator
  | .unresolvedReference _ _, .unresolvedReference _ _ => True
  | .unsupportedNode kind _ _, .unsupportedNode kind' _ _ => kind' = kind
  | _, _ => False

namespace Fragment

/-- Two runs with the same texts that both end well, or both in alike failures. -/
inductive Alike : List Text × Option FragmentError → List Text × Option FragmentError → Prop
  | success (texts : List Text) : Alike (texts, none) (texts, none)
  | failure {texts : List Text} {e e' : FragmentError} :
      e.Alike e' → Alike (texts, some e) (texts, some e')

theorem Alike.andThen {a a' b b' : List Text × Option FragmentError} (ha : Alike a a')
    (hb : Alike b b') : Alike (andThen a b) (andThen a' b') := by
  cases ha with
  | failure he => exact .failure he
  | success texts =>
    cases hb with
    | success texts' => exact .success _
    | failure he => exact .failure he

end Fragment

namespace FoldContext

variable {cx : FoldContext} {p p' q q' : Position}

/-! ## Forms of expressions -/

/-- `p'` is the image of a place that is neither replaced nor broken. -/
structure Kept (cx : FoldContext) (p p' : Position) : Prop where
  image : cx.Image p p'
  literalAt_eq : cx.literalAt p.route = none
  sound : p.node.broken = false

theorem Kept.kind_eq (h : cx.Kept p p') : p'.kind = p.kind := h.image.kind_eq h.literalAt_eq

/-- What is right below an expression is kept with it. -/
theorem Kept.child (hparsed : cx.source.Parsed) (h : cx.Kept p p') (hkind : p.kind ≠ .pair)
    (hq : q ∈ p.children) (him : cx.Image q q') : cx.Kept q q' where
  image := him
  literalAt_eq := literalAt_of_not_folds h.image.settled (not_folds_of_kind hkind) hq
  sound := by
    cases hb : q.node.broken with
    | false => rfl
    | true =>
      have := hparsed.flagged p h.image.mem q hq hb
      rw [h.sound] at this
      cases this

/-- Two expressions of one form, with the same texts and with images for parts. -/
inductive Matching (cx : FoldContext) : Expression → Expression → Prop
  | literal (text : Text) : Matching cx (.literal text) (.literal text)
  | template {spans spans' : List (Position × Text)} (head : Text) :
      List.Forall₂ (fun part part' => cx.Kept part.1 part'.1 ∧ part'.2 = part.2) spans spans' →
      Matching cx (.template head spans) (.template head spans')
  | concatenation {left left' right right' : Position} (operator : Kind) :
      cx.Kept left left' → cx.Kept right right' →
      Matching cx (.concatenation left operator right) (.concatenation left' operator right')
  | parenthesized {inner inner' : Position} :
      cx.Kept inner inner' → Matching cx (.parenthesized inner) (.parenthesized inner')
  | reference : Matching cx .reference .reference
  | unsupported : Matching cx .unsupported .unsupported

theorem Aligned.isEmpty_eq {a a' b b' : Nat} {ps ps' : List Position}
    (h : cx.Aligned a a' b b' ps ps') : ps'.isEmpty = ps.isEmpty := by
  cases h <;> rfl

theorem Aligned.slice_of_nil {a a' b b' : Nat} {ps ps' : List Position}
    (h : cx.Aligned a a' b b' ps ps') (hps : ps = []) :
    ∃ gap, Text.slice cx.source.text a b = some gap ∧
      Text.slice cx.reparsed.text a' b' = some gap := by
  cases h with
  | nil hgap hgap' => exact ⟨_, hgap, hgap'⟩
  | cons => cases hps

theorem Kept.isLiteralLike_eq (hparsed : cx.source.Parsed) (h : cx.Kept p p') :
    p'.tree.isLiteralLike = p.tree.isLiteralLike := by
  by_cases hkind : p.kind = .templateString
  · rw [Expression.isLiteralLike_template hkind,
      Expression.isLiteralLike_template (h.kind_eq.trans hkind)]
    exact (h.image.aligned_substitutions hparsed h.literalAt_eq hkind).isEmpty_eq
  · have hkind' : p'.tree.kind = p.tree.kind := h.kind_eq
    have hne : p.tree.kind ≠ .templateString := hkind
    rw [Tree.isLiteralLike, Tree.isLiteralLike, hkind']
    split
    · rfl
    · rfl
    · rename_i htemplate
      exact absurd htemplate hne
    · rfl

/-- A literal keeps its text: nothing in it can be edited. -/
theorem Kept.textOf_eq (hparsed : cx.source.Parsed) (h : cx.Kept p p')
    (hlike : p.tree.isLiteralLike) : cx.reparsed.textOf p'.node = cx.source.textOf p.node := by
  by_cases hkind : p.kind = .templateString
  · have haligned := h.image.aligned_substitutions hparsed h.literalAt_eq hkind
    rw [Expression.isLiteralLike_template hkind, List.isEmpty_iff] at hlike
    obtain ⟨gap, hgap, hgap'⟩ := haligned.slice_of_nil hlike
    rw [Source.textOf, Source.textOf, hgap, hgap']
  · have hplain : p.kind ∈ [.string, .number, .propertyIdentifier] := by
      have hne : p.tree.kind ≠ .templateString := hkind
      rw [Tree.isLiteralLike] at hlike
      split at hlike <;> simp_all [Position.kind]
    exact h.image.textOf_eq
      (edits_of_no_pair h.image.settled h.literalAt_eq (hparsed.plain p h.image.mem hplain))

theorem Kept.literalText?_eq (hparsed : cx.source.Parsed) (h : cx.Kept p p') :
    cx.reparsed.literalText? p'.tree = cx.source.literalText? p.tree := by
  have hkind : p'.tree.kind = p.tree.kind := h.kind_eq
  rw [Source.literalText?, Source.literalText?, h.isLiteralLike_eq hparsed, hkind]
  by_cases hlike : p.tree.isLiteralLike = true
  · have htext : cx.reparsed.textOf p'.tree.node = cx.source.textOf p.tree.node :=
      h.textOf_eq hparsed hlike
    rw [htext]
  · rw [if_neg hlike, if_neg hlike]

/-! ## Templates -/

section Templates

variable {a a' b b' : Nat} {ps ps' : List Position}

theorem Image.start_le_stop (h : cx.Image p p') : p'.node.span.start ≤ p'.node.span.stop := by
  obtain ⟨u, _, hu⟩ := h.spliced
  exact Text.le_of_slice hu

theorem Aligned.lt_stop (h : cx.Aligned a a' b b' ps ps') (hroom : a + 1 ≤ b)
    (hps : ∀ q ∈ ps, q.node.span.stop + 1 ≤ b) : a' + 1 ≤ b' := by
  induction h with
  | nil hgap hgap' =>
    have := Text.byteLength_of_slice hgap
    have := Text.byteLength_of_slice hgap'
    omega
  | cons _ hgap' him _ ih =>
    have := ih (hps _ (List.mem_cons_self ..)) fun q hq => hps q (List.mem_cons_of_mem _ hq)
    have := Text.le_of_slice hgap'
    have := him.start_le_stop
    omega

/-- A template has room for its two backticks after the pass as it had before. -/
theorem Aligned.room (h : cx.Aligned a a' b b' ps ps') (hroom : a + 2 ≤ b)
    (hps : ∀ q ∈ ps, a + 1 ≤ q.node.span.start ∧ q.node.span.stop + 1 ≤ b) : a' + 2 ≤ b' := by
  cases h with
  | nil hgap hgap' =>
    have := Text.byteLength_of_slice hgap
    have := Text.byteLength_of_slice hgap'
    omega
  | cons hgap hgap' him hrest =>
    have hfirst := hps _ (List.mem_cons_self ..)
    have := hrest.lt_stop hfirst.2 fun q hq => (hps q (List.mem_cons_of_mem _ hq)).2
    have := Text.byteLength_of_slice hgap
    have := Text.byteLength_of_slice hgap'
    have := him.start_le_stop
    omega

/-- The segments between substitutions in line are the same before and after, also when the first
starts `k` bytes later. -/
theorem Aligned.segments? (h : cx.Aligned a a' b b' ps ps') (hroom : a + 1 ≤ b)
    (hps : ∀ q ∈ ps, q.node.span.stop + 1 ≤ b)
    (hkept : ∀ q ∈ ps, ∀ q', cx.Image q q' →
      cx.Kept (Expression.substituted q) (Expression.substituted q')) (k : Nat) :
    (Expression.segments? cx.source (a + k) (b - 1) ps = none ∧
      Expression.segments? cx.reparsed (a' + k) (b' - 1) ps' = none) ∨
    ∃ head spans spans',
      Expression.segments? cx.source (a + k) (b - 1) ps = some (head, spans) ∧
      Expression.segments? cx.reparsed (a' + k) (b' - 1) ps' = some (head, spans') ∧
      List.Forall₂ (fun part part' => cx.Kept part.1 part'.1 ∧ part'.2 = part.2) spans spans' := by
  induction h generalizing k with
  | @nil a a' b b' gap hgap hgap' =>
    have hlen := Text.byteLength_of_slice hgap
    have hlen' := Text.byteLength_of_slice hgap'
    have hstop : b - 1 = a + (Text.byteLength gap - 1) := by omega
    have hstop' : b' - 1 = a' + (Text.byteLength gap - 1) := by omega
    have hsegment : Expression.segment? cx.reparsed (a' + k) (b' - 1) =
        Expression.segment? cx.source (a + k) (b - 1) := by
      rw [Expression.segment?, Expression.segment?, hstop, hstop',
        Text.slice_congr hgap hgap' (Nat.sub_le ..)]
    rw [Expression.segments?, Expression.segments?, hsegment]
    cases Expression.segment? cx.source (a + k) (b - 1) with
    | none => exact .inl ⟨rfl, rfl⟩
    | some head => exact .inr ⟨head, [], [], rfl, rfl, .nil⟩
  | @cons a a' b b' p p' ps ps' gap hgap hgap' him _ ih =>
    have hlen := Text.byteLength_of_slice hgap
    have hlen' := Text.byteLength_of_slice hgap'
    have hsegment : Expression.segment? cx.reparsed (a' + k) p'.node.span.start =
        Expression.segment? cx.source (a + k) p.node.span.start := by
      rw [Expression.segment?, Expression.segment?, ← hlen, ← hlen',
        Text.slice_congr hgap hgap' (Nat.le_refl _)]
    rw [Expression.segments?, Expression.segments?, hsegment]
    cases Expression.segment? cx.source (a + k) p.node.span.start with
    | none => exact .inl ⟨rfl, rfl⟩
    | some head =>
      -- only the first segment starts after a backtick
      rcases ih (hps _ (List.mem_cons_self ..)) (fun q hq => hps q (List.mem_cons_of_mem _ hq))
        (fun q hq => hkept q (List.mem_cons_of_mem _ hq)) 0 with
        ⟨hnone, hnone'⟩ | ⟨next, spans, spans', hsome, hsome', hspans⟩
      · rw [Nat.add_zero] at hnone hnone'
        rw [hnone, hnone']
        exact .inl ⟨rfl, rfl⟩
      · rw [Nat.add_zero] at hsome hsome'
        rw [hsome, hsome']
        have hpart := hkept p (List.mem_cons_self ..) p' him
        exact .inr ⟨head, _, _, rfl, rfl, .cons ⟨hpart, rfl⟩ hspans⟩

theorem Kept.substituted (hparsed : cx.source.Parsed) (h : cx.Kept p p')
    (hkind : p.kind = .templateSubstitution) :
    cx.Kept (Expression.substituted p) (Expression.substituted p') := by
  have hpair : p.kind ≠ .pair := by simp [hkind]
  rw [Expression.substituted, Expression.substituted]
  rcases h.image.firstExpression? hparsed h.literalAt_eq (not_folds_of_kind hpair) with
    ⟨hnone, hnone'⟩ | ⟨q, q', hsome, hsome', him⟩
  · rw [hnone, hnone']
    exact h
  · rw [hsome, hsome']
    have hq : q ∈ p.children :=
      Position.mem_children_of_mem_namedChildren (List.mem_of_find?_eq_some hsome)
    exact h.child hparsed hpair hq him

/-- A template is split at the images of its substitutions into the same segments. -/
theorem Kept.ofTemplate (hparsed : cx.source.Parsed) (h : cx.Kept p p')
    (hkind : p.kind = .templateString) :
    cx.Matching (Expression.ofTemplate cx.source p) (Expression.ofTemplate cx.reparsed p') := by
  have haligned := h.image.aligned_substitutions hparsed h.literalAt_eq hkind
  obtain ⟨hroom, hinside⟩ := hparsed.quoted p h.image.mem hkind h.sound
  have hroom' := haligned.room hroom hinside
  have hmax : max (p.node.span.stop - 1) (p.node.span.start + 1) = p.node.span.stop - 1 := by omega
  have hmax' : max (p'.node.span.stop - 1) (p'.node.span.start + 1) = p'.node.span.stop - 1 := by
    omega
  have hkept : ∀ q ∈ Expression.substitutions p, ∀ q', cx.Image q q' →
      cx.Kept (Expression.substituted q) (Expression.substituted q') := by
    intro q hq q' him
    obtain ⟨hnamed, hsub⟩ := List.mem_filter.mp hq
    have hq' := Position.mem_children_of_mem_namedChildren hnamed
    exact (h.child hparsed (by simp [hkind]) hq' him).substituted hparsed (of_decide_eq_true hsub)
  rw [Expression.ofTemplate, Expression.ofTemplate, hmax, hmax']
  rcases haligned.segments? (by omega) (fun q hq => (hinside q hq).2) hkept 1 with
    ⟨hnone, hnone'⟩ | ⟨head, spans, spans', hsome, hsome', hspans⟩
  · rw [hnone, hnone']
    exact .unsupported
  · rw [hsome, hsome']
    exact .template head hspans

end Templates

/-! ## All expressions -/

theorem Kept.ofBinary (hparsed : cx.source.Parsed) (h : cx.Kept p p')
    (hkind : p.kind = .binaryExpression) (hlit : cx.source.literalText? p.tree = none) :
    cx.Matching (Expression.ofPosition cx.source p) (Expression.ofPosition cx.reparsed p') := by
  have hpair : p.kind ≠ .pair := by simp [hkind]
  have hkind' := h.kind_eq.trans hkind
  have hlit' := (h.literalText?_eq hparsed).trans hlit
  have hchild := h.image.child? hparsed h.literalAt_eq
  rcases hchild .left with ⟨hl, hl'⟩ | ⟨l, l', hl, hl', hleft⟩
  · simp only [Expression.ofPosition, hlit, hlit', hkind, hkind', hl, hl']
    exact .unsupported
  · rcases hchild .operator with ⟨ho, ho'⟩ | ⟨o, o', ho, ho', hop⟩
    · simp only [Expression.ofPosition, hlit, hlit', hkind, hkind', hl, hl', ho, ho']
      exact .unsupported
    · rcases hchild .right with ⟨hr, hr'⟩ | ⟨r, r', hr, hr', hright⟩
      · simp only [Expression.ofPosition, hlit, hlit', hkind, hkind', hl, hl', ho, ho', hr, hr']
        exact .unsupported
      · have hopkept := h.child hparsed hpair (Position.mem_children_of_child? ho) hop
        simp only [Expression.ofPosition, hlit, hlit', hkind, hkind', hl, hl', ho, ho', hr, hr',
          hopkept.kind_eq]
        exact .concatenation _ (h.child hparsed hpair (Position.mem_children_of_child? hl) hleft)
          (h.child hparsed hpair (Position.mem_children_of_child? hr) hright)

/-- The image of an expression is an expression of the same form. -/
theorem Kept.ofPosition (hparsed : cx.source.Parsed) (h : cx.Kept p p') :
    cx.Matching (Expression.ofPosition cx.source p) (Expression.ofPosition cx.reparsed p') := by
  have hlit' := h.literalText?_eq hparsed
  have hkind' := h.kind_eq
  cases hlit : cx.source.literalText? p.tree with
  | some text =>
    rw [hlit] at hlit'
    rw [Expression.ofPosition_of_literalText? hlit, Expression.ofPosition_of_literalText? hlit']
    exact .literal text
  | none =>
    by_cases hbinary : p.kind = .binaryExpression
    · exact h.ofBinary hparsed hbinary hlit
    · rw [hlit] at hlit'
      rw [Expression.ofPosition, Expression.ofPosition, hlit, hlit', hkind']
      dsimp only
      split
      · exact h.ofTemplate hparsed ‹_›
      · exact absurd ‹_› hbinary
      · rename_i hparen
        have hpair : p.kind ≠ .pair := by simp [hparen]
        rcases h.image.firstExpression? hparsed h.literalAt_eq (not_folds_of_kind hpair) with
          ⟨hnone, hnone'⟩ | ⟨q, q', hsome, hsome', him⟩
        · simp only [hnone, hnone']
          exact .unsupported
        · simp only [hsome, hsome']
          have hq : q ∈ p.children :=
            Position.mem_children_of_mem_namedChildren (List.mem_of_find?_eq_some hsome)
          exact .parenthesized (h.child hparsed hpair hq him)
      · exact .reference
      · exact .reference
      · exact .reference
      · exact .unsupported

/-! ## Fragments -/

/-- On every reference that survives, the second resolver answers as the first did. -/
def Answers (cx : FoldContext) (resolver : Resolver) : Prop :=
  ∀ p ∈ Position.all cx.source.tree, ∀ p' ∈ Position.all cx.reparsed.tree, p'.route = p.route →
    Expression.ofPosition cx.source p = .reference →
    resolver cx.reparsed p' = cx.resolver cx.source p

theorem collect_alike {resolver : Resolver} {spans spans' : List (Position × Text)}
    (h : List.Forall₂ (fun part part' => cx.Kept part.1 part'.1 ∧ part'.2 = part.2) spans spans')
    (ih : ∀ part ∈ spans, ∀ q', cx.Kept part.1 q' →
      Fragment.Alike (Fragment.ofPosition cx.source cx.resolver part.1)
        (Fragment.ofPosition cx.reparsed resolver q')) :
    Fragment.Alike (Fragment.collect cx.source cx.resolver (Part.ofSpans spans))
      (Fragment.collect cx.reparsed resolver (Part.ofSpans spans')) := by
  induction h with
  | nil =>
    simp only [Part.ofSpans, List.flatMap_nil, Fragment.collect]
    exact .success []
  | @cons part part' spans spans' hpart _ ihspans =>
    obtain ⟨q, t⟩ := part
    obtain ⟨q', t'⟩ := part'
    obtain ⟨hkept, rfl⟩ := hpart
    rw [Fragment.collect_ofSpans_cons, Fragment.collect_ofSpans_cons]
    refine (ih _ (List.mem_cons_self ..) q' hkept).andThen (.andThen (.success _) ?_)
    exact ihspans fun part hpart => ih part (List.mem_cons_of_mem _ hpart)

/-- The image of an expression gives the same fragments, or fails alike. -/
theorem Kept.fragments_alike {resolver : Resolver} (hparsed : cx.source.Parsed)
    (hanswers : cx.Answers resolver) (h : cx.Kept p p') :
    Fragment.Alike (Fragment.ofPosition cx.source cx.resolver p)
      (Fragment.ofPosition cx.reparsed resolver p') := by
  -- the parts of a template lie two levels down, so the induction is on the size of the tree
  induction hn : p.tree.size using Nat.strongRecOn generalizing p p' with
  | _ n ih =>
    subst hn
    have hmatch := h.ofPosition hparsed
    generalize he : Expression.ofPosition cx.source p = e at hmatch
    generalize he' : Expression.ofPosition cx.reparsed p' = e' at hmatch
    cases hmatch with
    | literal text =>
      rw [Fragment.ofPosition_literal he, Fragment.ofPosition_literal he']
      exact .success _
    | @template spans spans' head hspans =>
      rw [Fragment.ofPosition_template he, Fragment.ofPosition_template he']
      refine .andThen (.success _) (collect_alike hspans ?_)
      intro part hpart q' hkept
      have hlt := Expression.sizeAll_template_lt he
      have hle := Position.size_le_sizeAll (List.mem_map_of_mem (f := fun x => x.1) hpart)
      exact ih _ (Nat.lt_of_le_of_lt hle hlt) hkept rfl
    | @concatenation left left' right right' operator hleft hright =>
      have hlt := Expression.size_concatenation_lt he
      by_cases hop : operator = .plus
      · subst hop
        rw [Fragment.ofPosition_plus he, Fragment.ofPosition_plus he']
        exact (ih _ (by omega) hleft rfl).andThen (ih _ (by omega) hright rfl)
      · rw [Fragment.ofPosition_other_operator he hop, Fragment.ofPosition_other_operator he' hop]
        exact .failure rfl
    | parenthesized hinner =>
      rw [Fragment.ofPosition_parenthesized he, Fragment.ofPosition_parenthesized he']
      exact ih _ (Expression.size_parenthesized_lt he) hinner rfl
    | reference =>
      rw [Fragment.ofPosition_reference he, Fragment.ofPosition_reference he',
        hanswers p h.image.mem p' h.image.mem_reparsed h.image.route_eq he]
      cases cx.resolver cx.source p with
      | some text => exact .success _
      | none => exact .failure trivial
    | unsupported =>
      rw [Fragment.ofPosition_unsupported he, Fragment.ofPosition_unsupported he']
      exact .failure h.kind_eq

end FoldContext

end LiteralFolding
