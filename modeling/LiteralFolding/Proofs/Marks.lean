-- Literals and their marks. Where nothing is broken a string stands between its quotes and a
-- template between its backticks, so the text of a literal is all that is inside, and a segment of
-- a template goes from mark or substitution to mark or substitution.
import LiteralFolding.Proofs.Contraction
import LiteralFolding.Proofs.Fragments

namespace LiteralFolding

/-! ## The form of an expression -/

namespace Expression

/-- What the form of an expression says of its place. -/
def Form (s : Source) (p : Position) : Expression → Prop
  | .literal text => s.literalText? p.tree = some text
  | .template head spans =>
    p.kind = .templateString ∧
      segments? s (p.node.span.start + 1) (max (p.node.span.stop - 1) (p.node.span.start + 1))
        (substitutions p) = some (head, spans)
  | .concatenation left _ right => p.child? .left = some left ∧ p.child? .right = some right
  | .parenthesized inner => p.firstExpression? = some inner
  | .reference | .unsupported => True

theorem form_ofPosition (s : Source) (p : Position) : Form s p (ofPosition s p) := by
  unfold ofPosition
  split
  · rename_i text hliteral
    exact hliteral
  · split
    · rename_i hkind
      unfold ofTemplate
      dsimp only
      split
      · rename_i head spans hsegments
        exact ⟨hkind, hsegments⟩
      · trivial
    · split
      · rename_i hleft _ hright
        exact ⟨hleft, hright⟩
      · trivial
    · split
      · rename_i inner hinner
        exact hinner
      · trivial
    all_goals trivial

end Expression

/-! ## Literals between their marks -/

/-- Is the text what is inside it between two marks of one kind? -/
def Literal.isBetween (mark : Char) (t : Text) : Bool := t = mark :: (inside t ++ [mark])

/-- What a grammar grants of what is not broken. -/
structure Source.Delimited (s : Source) : Prop extends s.Flagged where
  /-- A string that is not broken has its quotes. -/
  strings : ∀ p ∈ Position.all s.tree, p.kind = .string → p.node.broken = false →
    Literal.isBetween '\'' (s.textOf p.node) ∨ Literal.isBetween '"' (s.textOf p.node)
  /-- A template that is not broken has its backticks, and its substitutions between them. -/
  templates : ∀ p ∈ Position.all s.tree, p.kind = .templateString → p.node.broken = false →
    Literal.isBetween '\x60' (s.textOf p.node) ∧
      ∀ q ∈ Expression.substitutions p,
        p.node.span.start + 1 ≤ q.node.span.start ∧ q.node.span.stop + 1 ≤ p.node.span.stop

/-- A text with the literal, or the template, that it was taken from. -/
structure Excerpt where
  source : Source
  literal : Position
  text : Text

namespace Excerpt

/-- The literal as it is written. -/
def raw (x : Excerpt) : Text := x.source.textOf x.literal.node

/-- Nothing in the literal is broken. -/
def Whole (x : Excerpt) : Prop := x.literal.node.broken = false

/-- The text spells what stands between the marks of the literal, all of it or a stretch of a
template that goes from mark or substitution to mark or substitution. Numbers have no marks. -/
inductive Enclosed (x : Excerpt) : Prop
  | number (hkind : x.literal.kind = .number) (htext : Literal.canonicalNumber? x.raw = some x.text)
  | string {mark : Char} {body : Text} (hkind : x.literal.kind = .string)
      (hmark : mark = '\'' ∨ mark = '"') (hraw : x.raw = mark :: (body ++ [mark]))
      (htext : Literal.decode? body = some x.text)
  | template {body : Text} (hkind : x.literal.kind = .templateString)
      (hraw : x.raw = '\x60' :: (body ++ ['\x60']))
      (htext : Literal.decodeSegment? body = some x.text)
  | segment {start stop : Nat} {inner body : Text} (hkind : x.literal.kind = .templateString)
      (hraw : x.raw = '\x60' :: (inner ++ ['\x60']))
      (hstart : start = x.literal.node.span.start + 1 ∨
        ∃ q ∈ Expression.substitutions x.literal, start = q.node.span.stop)
      (hstop : stop + 1 = x.literal.node.span.stop ∨
        ∃ q ∈ Expression.substitutions x.literal, stop = q.node.span.start)
      (hinside : x.literal.node.span.start + 1 ≤ start ∧ stop + 1 ≤ x.literal.node.span.stop)
      (hbody : Text.slice x.source.text start stop = some body)
      (htext : Literal.decodeSegment? body = some x.text)

end Excerpt

namespace Span

variable {a b a' b' : Nat} {spans : List Span}

theorem inOrder_of_le (h : inOrder a b spans) (ha : a' ≤ a) : inOrder a' b spans := by
  cases spans with
  | nil =>
    simp only [inOrder, decide_eq_true_eq] at h ⊢
    omega
  | cons s rest =>
    simp only [inOrder, Bool.and_eq_true, decide_eq_true_eq] at h ⊢
    exact ⟨⟨by omega, h.1.2⟩, h.2⟩

theorem inOrder_of_sublist {fewer : List Span} (h : inOrder a b spans)
    (hsub : fewer.Sublist spans) : inOrder a b fewer := by
  induction hsub generalizing a with
  | slnil => exact h
  | cons s _ ih =>
    simp only [inOrder, Bool.and_eq_true, decide_eq_true_eq] at h
    exact inOrder_of_le (ih h.2) (by omega)
  | cons_cons s _ ih =>
    simp only [inOrder, Bool.and_eq_true, decide_eq_true_eq] at h ⊢
    exact ⟨h.1, ih h.2⟩

theorem start_le_of_inOrder {s : Span} (h : inOrder a b spans) (hs : s ∈ spans) : a ≤ s.start := by
  induction spans generalizing a with
  | nil => simp at hs
  | cons s' rest ih =>
    simp only [inOrder, Bool.and_eq_true, decide_eq_true_eq] at h
    rcases List.mem_cons.mp hs with rfl | hs
    · exact h.1.1
    · have := ih h.2 hs
      omega

/-- Spans in order stay so between closer ends that leave room for them. -/
theorem inOrder_within (h : inOrder a b spans) (hab : a' ≤ b')
    (hspans : ∀ s ∈ spans, a' ≤ s.start ∧ s.stop ≤ b') : inOrder a' b' spans := by
  induction spans generalizing a a' with
  | nil => exact decide_eq_true hab
  | cons s rest ih =>
    simp only [inOrder, Bool.and_eq_true, decide_eq_true_eq] at h ⊢
    have hs := hspans s (List.mem_cons_self ..)
    refine ⟨⟨hs.1, h.1.2⟩, ih h.2 hs.2 ?_⟩
    intro s' hs'
    refine ⟨?_, (hspans s' (List.mem_cons_of_mem _ hs')).2⟩
    exact start_le_of_inOrder h.2 hs'

end Span

namespace Source

variable {s : Source} {p : Position} {text : Text}

theorem enclosed_of_literalText? (h : s.Delimited) (hp : p ∈ Position.all s.tree)
    (hwhole : p.node.broken = false) (htext : s.literalText? p.tree = some text) :
    Excerpt.Enclosed ⟨s, p, text⟩ := by
  have hlike := isLiteralLike_of_literalText? htext
  rw [literalText?, if_pos hlike] at htext
  unfold Tree.isLiteralLike at hlike
  split at hlike <;> rename_i hkind <;> simp only [hkind] at htext
  · rcases h.strings p hp hkind hwhole with hmark | hmark
    · exact .string hkind (.inl rfl) (of_decide_eq_true hmark) htext
    · exact .string hkind (.inr rfl) (of_decide_eq_true hmark) htext
  · exact .number hkind htext
  · exact .template hkind (of_decide_eq_true (h.templates p hp hkind hwhole).1) htext
  · cases hlike

/-- The segments of a template are decoded slices from cut to cut. -/
theorem exists_slice_of_mem_segments {cursor stop : Nat} {ps : List Position} {head : Text}
    {spans : List (Position × Text)}
    (h : Expression.segments? s cursor stop ps = some (head, spans))
    (hcursor : Text.isBoundary s.text cursor) (hstop : Text.isBoundary s.text stop)
    (hps : ∀ q ∈ ps, Text.isBoundary s.text q.node.span.start ∧
      Text.isBoundary s.text q.node.span.stop)
    (horder : Span.inOrder cursor stop (ps.map (·.node.span)))
    (htext : text ∈ head :: spans.map (·.2)) :
    ∃ a b body, (a = cursor ∨ ∃ q ∈ ps, a = q.node.span.stop) ∧
      (b = stop ∨ ∃ q ∈ ps, b = q.node.span.start) ∧ Text.slice s.text a b = some body ∧
      Literal.decodeSegment? body = some text := by
  induction ps generalizing cursor head spans with
  | nil =>
    rw [Expression.segments?] at h
    obtain ⟨head', hhead, heq⟩ := Option.map_eq_some_iff.mp h
    cases heq
    obtain rfl := List.mem_singleton.mp htext
    obtain ⟨body, hbody⟩ := Text.exists_slice hcursor hstop (of_decide_eq_true horder)
    refine ⟨cursor, stop, body, .inl rfl, .inl rfl, hbody, ?_⟩
    simpa only [Expression.segment?, hbody, Option.getD_some] using hhead
  | cons p ps ih =>
    rw [Expression.segments?] at h
    split at h
    · rename_i head' next spans' hhead hrest
      cases h
      simp only [List.map_cons, Span.inOrder, Bool.and_eq_true, decide_eq_true_eq] at horder
      have hp := hps p (List.mem_cons_self ..)
      rcases List.mem_cons.mp htext with rfl | htext
      · obtain ⟨body, hbody⟩ := Text.exists_slice hcursor hp.1 horder.1.1
        refine ⟨cursor, _, body, .inl rfl, .inr ⟨p, List.mem_cons_self .., rfl⟩, hbody, ?_⟩
        simpa only [Expression.segment?, hbody, Option.getD_some] using hhead
      · obtain ⟨a, b, body, ha, hb, hbody, hdecode⟩ := ih hrest hp.2
          (fun q hq => hps q (List.mem_cons_of_mem _ hq)) horder.2 htext
        refine ⟨a, b, body, .inr ?_, ?_, hbody, hdecode⟩
        · rcases ha with rfl | ⟨q, hq, rfl⟩
          · exact ⟨p, List.mem_cons_self .., rfl⟩
          · exact ⟨q, List.mem_cons_of_mem _ hq, rfl⟩
        · rcases hb with rfl | ⟨q, hq, rfl⟩
          · exact .inl rfl
          · exact .inr ⟨q, List.mem_cons_of_mem _ hq, rfl⟩
    · cases h

/-- Between the backticks of a template stands one slice of the text. -/
theorem slice_between_backticks {inner : Text} (h : s.Nested) (hp : p ∈ Position.all s.tree)
    (hraw : s.textOf p.node = '\x60' :: (inner ++ ['\x60'])) :
    p.node.span.start + 2 ≤ p.node.span.stop ∧
      Text.slice s.text (p.node.span.start + 1) (p.node.span.stop - 1) = some inner := by
  obtain ⟨hstart, hstop⟩ := h.bounded p hp
  obtain ⟨u, hu⟩ := Text.exists_slice hstart hstop (Span.le_of_inOrder (h.ordered p hp))
  have hcut : Text.slice s.text p.node.span.start p.node.span.stop =
      some (['\x60'] ++ (inner ++ ['\x60'])) := by
    rw [List.singleton_append, ← hraw]
    simp [textOf, hu]
  obtain ⟨_, hrest⟩ := Text.slice_cut hcut
  obtain ⟨hinner, hclose⟩ := Text.slice_cut hrest
  have hbyte : Text.byteLength ['\x60'] = 1 := rfl
  have hlength := Text.byteLength_of_slice hclose
  rw [hbyte] at hinner hlength
  have hstop : p.node.span.stop - 1 = p.node.span.start + 1 + Text.byteLength inner := by omega
  refine ⟨by omega, ?_⟩
  rwa [hstop]

/-- The substitutions of a template follow each other between its backticks. -/
theorem inOrder_substitutions (h : s.Nested) (hp : p ∈ Position.all s.tree)
    (hroom : p.node.span.start + 2 ≤ p.node.span.stop)
    (hinside : ∀ q ∈ Expression.substitutions p,
      p.node.span.start + 1 ≤ q.node.span.start ∧ q.node.span.stop + 1 ≤ p.node.span.stop) :
    Span.inOrder (p.node.span.start + 1) (p.node.span.stop - 1)
      ((Expression.substitutions p).map (·.node.span)) := by
  have hsub : (Expression.substitutions p).Sublist p.children :=
    List.filter_sublist.trans List.filter_sublist
  refine Span.inOrder_within (Span.inOrder_of_sublist (h.ordered p hp) (hsub.map _)) (by omega) ?_
  intro span hspan
  obtain ⟨q, hq, rfl⟩ := List.mem_map.mp hspan
  have := hinside q hq
  omega

theorem enclosed_of_segment {head : Text} {spans : List (Position × Text)} (h : s.Delimited)
    (hnested : s.Nested) (hp : p ∈ Position.all s.tree) (hwhole : p.node.broken = false)
    (hform : Expression.ofPosition s p = .template head spans)
    (htext : text ∈ head :: spans.map (·.2)) : Excerpt.Enclosed ⟨s, p, text⟩ := by
  obtain ⟨hkind, hsegments⟩ : Expression.Form s p (.template head spans) :=
    hform ▸ Expression.form_ofPosition s p
  obtain ⟨hmark, hinside⟩ := h.templates p hp hkind hwhole
  have hraw : s.textOf p.node = '\x60' :: (Literal.inside (s.textOf p.node) ++ ['\x60']) :=
    of_decide_eq_true hmark
  obtain ⟨hroom, hinner⟩ := slice_between_backticks hnested hp hraw
  have hstop : max (p.node.span.stop - 1) (p.node.span.start + 1) = p.node.span.stop - 1 := by omega
  rw [hstop] at hsegments
  have hmem : ∀ q ∈ Expression.substitutions p, q ∈ Position.all s.tree := fun q hq =>
    Position.mem_all_of_mem_children hp (Expression.mem_children_of_mem_substitutions hq)
  have hle : ∀ q ∈ Expression.substitutions p, q.node.span.start ≤ q.node.span.stop := fun q hq =>
    Span.le_of_inOrder (hnested.ordered q (hmem q hq))
  obtain ⟨a, b, body, ha, hb, hbody, hdecode⟩ := exists_slice_of_mem_segments hsegments
    (Text.isBoundary_start hinner) (Text.isBoundary_stop hinner)
    (fun q hq => hnested.bounded q (hmem q hq)) (inOrder_substitutions hnested hp hroom hinside)
    htext
  have hstart : p.node.span.start + 1 ≤ a := by
    rcases ha with rfl | ⟨q, hq, rfl⟩
    · omega
    · have := hinside q hq
      have := hle q hq
      omega
  have hstop : b + 1 ≤ p.node.span.stop := by
    rcases hb with rfl | ⟨q, hq, rfl⟩
    · omega
    · have := hinside q hq
      have := hle q hq
      omega
  refine .segment hkind hraw ha ?_ ⟨hstart, hstop⟩ hbody hdecode
  rcases hb with rfl | hb
  · left
    dsimp only
    omega
  · exact .inr hb

end Source

end LiteralFolding
