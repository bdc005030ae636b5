-- Templates divided at their substitutions. The segments and the substitutions make up all the text
-- between the backticks, and each segment goes to the substitution in front of it, the first one to
-- none. The template is given up when one segment cannot be decoded, and only then.
import LiteralFolding.Proofs.Marks
import Mathlib.Data.List.Forall2

namespace LiteralFolding

/-- A text, then both texts of each pair in turn. -/
def Text.woven (first : Text) : List (Text × Text) → Text
  | [] => first
  | (cut, next) :: rest => first ++ cut ++ woven next rest

namespace Expression

variable {s : Source} {p : Position} {ps : List Position} {a b : Nat} {first : Text}
  {rest : List Text}

/-- The text from byte `a` to byte `b`, cut at the spans of places: `first` stands before the first
place and one text of `rest` behind each. -/
inductive Cut (t : Text) : Nat → Nat → List Position → Text → List Text → Prop
  | nil {a b : Nat} {u : Text} : Text.slice t a b = some u → Cut t a b [] u []
  | cons {a b : Nat} {p : Position} {ps : List Position} {u v : Text} {rest : List Text} :
      Text.slice t a p.node.span.start = some u → p.node.span.start ≤ p.node.span.stop →
      Cut t p.node.span.stop b ps v rest → Cut t a b (p :: ps) u (v :: rest)

/-- The expression in a substitution: its first named part that is no comment, or the substitution
itself if there is none. -/
inductive Held (p : Position) : Position → Prop
  | part {comments rest : List Position} {q : Position} :
      p.namedChildren = comments ++ q :: rest → (∀ c ∈ comments, c.kind = .comment) →
      q.kind ≠ .comment → Held p q
  | itself : (∀ c ∈ p.namedChildren, c.kind = .comment) → Held p p

theorem held_substituted (p : Position) : Held p (substituted p) := by
  unfold substituted
  cases h : p.firstExpression? with
  | none =>
    apply Held.itself
    intro c hc
    have := List.find?_eq_none.mp h c hc
    simpa using this
  | some q =>
    obtain ⟨hq, comments, rest, heq, hcomments⟩ := List.find?_eq_some_iff_append.mp h
    refine .part heq (fun c hc => ?_) (of_decide_eq_true hq)
    have := hcomments c hc
    simpa using this

/-! ## Cuts -/

theorem Cut.length_eq {t : Text} (h : Cut t a b ps first rest) : rest.length = ps.length := by
  induction h with
  | nil => rfl
  | cons _ _ _ ih => rw [List.length_cons, List.length_cons, ih]

theorem Cut.isBoundary_start {t : Text} (h : Cut t a b ps first rest) : Text.isBoundary t a := by
  cases h with
  | nil hslice => exact Text.isBoundary_start hslice
  | cons hslice _ _ => exact Text.isBoundary_start hslice

/-- Nothing is lost between the pieces, and nothing stands in two of them. -/
theorem Cut.slice_eq (h : Cut s.text a b ps first rest) :
    Text.slice s.text a b = some (Text.woven first ((ps.map fun q => s.textOf q.node).zip rest)) := by
  induction h with
  | nil hslice => exact hslice
  | @cons a b p ps u v rest hslice hle hrest ih =>
    obtain ⟨cut, hcut⟩ := Text.exists_slice (Text.isBoundary_stop hslice) hrest.isBoundary_start hle
    have htext : s.textOf p.node = cut := by rw [Source.textOf, hcut, Option.getD_some]
    rw [List.map_cons, htext, List.zip_cons_cons, Text.woven]
    exact Text.slice_join (Text.slice_join hslice hcut) ih

theorem exists_cut {t : Text} (ha : Text.isBoundary t a) (hb : Text.isBoundary t b)
    (hps : ∀ q ∈ ps, Text.isBoundary t q.node.span.start ∧ Text.isBoundary t q.node.span.stop)
    (horder : Span.inOrder a b (ps.map (·.node.span))) : ∃ first rest, Cut t a b ps first rest := by
  induction ps generalizing a with
  | nil =>
    obtain ⟨u, hu⟩ := Text.exists_slice ha hb (of_decide_eq_true horder)
    exact ⟨u, [], .nil hu⟩
  | cons p ps ih =>
    simp only [List.map_cons, Span.inOrder, Bool.and_eq_true, decide_eq_true_eq] at horder
    have hp := hps p (List.mem_cons_self ..)
    obtain ⟨u, hu⟩ := Text.exists_slice ha hp.1 horder.1.1
    obtain ⟨v, rest, hrest⟩ := ih hp.2 (fun q hq => hps q (List.mem_cons_of_mem _ hq)) horder.2
    exact ⟨u, v :: rest, .cons hu horder.1.2 hrest⟩

/-- The spans of places that follow each other are in order. -/
theorem inOrder_of_pairwise (hab : a ≤ b)
    (hinside : ∀ q ∈ ps, a ≤ q.node.span.start ∧ q.node.span.start ≤ q.node.span.stop ∧
      q.node.span.stop ≤ b)
    (hpairs : ps.Pairwise fun q r => q.node.span.stop ≤ r.node.span.start) :
    Span.inOrder a b (ps.map (·.node.span)) := by
  induction ps generalizing a with
  | nil => exact decide_eq_true hab
  | cons p ps ih =>
    obtain ⟨hnext, hpairs⟩ := List.pairwise_cons.mp hpairs
    have hp := hinside p (List.mem_cons_self ..)
    simp only [List.map_cons, Span.inOrder, Bool.and_eq_true, decide_eq_true_eq]
    refine ⟨⟨hp.1, hp.2.1⟩, ih hp.2.2 (fun q hq => ?_) hpairs⟩
    exact ⟨hnext q hq, (hinside q (List.mem_cons_of_mem _ hq)).2⟩

/-! ## Segments -/

theorem segment?_of_slice {u : Text} (h : Text.slice s.text a b = some u) :
    segment? s a b = Literal.decodeSegment? u := by
  rw [segment?, h, Option.getD_some]

/-- A part of a template as it is found: a substitution with the raw text behind it becomes its
expression with the decoded text. -/
def Decoded (cut : Position × Text) (span : Position × Text) : Prop :=
  Held cut.1 span.1 ∧ Literal.decodeSegment? cut.2 = some span.2

/-- The run over the substitutions fails at a segment that cannot be decoded. Without one, every
segment is decoded and stands with its own substitution. -/
theorem Cut.segments? (h : Cut s.text a b ps first rest) :
    (Expression.segments? s a b ps = none ∧
      ∃ raw ∈ first :: rest, Literal.decodeSegment? raw = none) ∨
    (∀ raw ∈ first :: rest, Literal.decodeSegment? raw ≠ none) ∧
      ∃ head spans, Expression.segments? s a b ps = some (head, spans) ∧
        Literal.decodeSegment? first = some head ∧ List.Forall₂ Decoded (ps.zip rest) spans := by
  induction h with
  | @nil a b u hslice =>
    rw [Expression.segments?, segment?_of_slice hslice]
    cases hfirst : Literal.decodeSegment? u with
    | none => exact .inl ⟨rfl, u, List.mem_cons_self .., hfirst⟩
    | some head => exact .inr ⟨by simp [hfirst], head, [], rfl, rfl, .nil⟩
  | @cons a b p ps u v rest hslice _ _ ih =>
    rw [Expression.segments?, segment?_of_slice hslice]
    cases hfirst : Literal.decodeSegment? u with
    | none => exact .inl ⟨rfl, u, List.mem_cons_self .., hfirst⟩
    | some head =>
      rcases ih with ⟨hnone, raw, hraw, hfail⟩ | ⟨hall, next, spans, hsome, hnext, hspans⟩
      · rw [hnone]
        exact .inl ⟨rfl, raw, List.mem_cons_of_mem _ hraw, hfail⟩
      · rw [hsome]
        refine .inr ⟨?_, head, _, rfl, rfl, .cons ⟨held_substituted p, hnext⟩ hspans⟩
        exact List.forall_mem_cons.mpr ⟨by simp [hfirst], hall⟩

end Expression

/-! ## Between the backticks -/

/-- A text that starts and ends with a mark, if these are two, is its inside between them. -/
theorem Literal.eq_between {mark : Char} {t : Text} (hhead : t.head? = some mark)
    (hlast : t.getLast? = some mark) (hlen : 2 ≤ t.length) : t = mark :: (inside t ++ [mark]) := by
  obtain ⟨u, rfl⟩ := List.head?_eq_some_iff.mp hhead
  have hu : u ≠ [] := by
    rintro rfl
    simp at hlen
  rw [List.getLast?_cons_of_ne_nil hu] at hlast
  obtain ⟨v, rfl⟩ := List.getLast?_eq_some_iff.mp hlast
  simp [inside]

theorem Literal.eq_singleton {mark : Char} {t : Text} (hhead : t.head? = some mark)
    (hlen : ¬ 2 ≤ t.length) : t = [mark] := by
  obtain ⟨u, rfl⟩ := List.head?_eq_some_iff.mp hhead
  rw [List.length_cons] at hlen
  rw [List.eq_nil_of_length_eq_zero (by omega : u.length = 0)]

/-- What a template has between its backticks is one slice, also when one backtick is all of it. -/
theorem Text.slice_inside {t u : Text} {a b : Nat} (h : Text.slice t a b = some u)
    (hhead : u.head? = some '\x60') (hlast : u.getLast? = some '\x60') :
    Text.slice t (a + 1) (max (b - 1) (a + 1)) = some (Literal.inside u) := by
  have hbyte : Text.byteLength ['\x60'] = 1 := rfl
  by_cases hlen : 2 ≤ u.length
  · rw [Literal.eq_between hhead hlast hlen, ← List.singleton_append] at h
    obtain ⟨hinner, hclose⟩ := Text.slice_cut (Text.slice_cut h).2
    have hstop := Text.byteLength_of_slice hclose
    rw [hbyte] at hinner hstop
    have hmax : max (b - 1) (a + 1) = a + 1 + Text.byteLength (Literal.inside u) := by omega
    rwa [hmax]
  · obtain rfl := Literal.eq_singleton hhead hlen
    have hstop := Text.byteLength_of_slice h
    have hmax : max (b - 1) (a + 1) = a + 1 := by omega
    obtain ⟨w, hw⟩ := Text.exists_slice (Text.isBoundary_stop h) (Text.isBoundary_stop h)
      (Nat.le_refl _)
    obtain rfl : w = [] := Text.eq_nil_of_byteLength
      (Nat.add_left_cancel (Text.byteLength_of_slice hw))
    rw [hmax, ← hbyte, hstop]
    exact hw

/-- A template that starts and ends with a backtick, with its substitutions one behind the other
between the two. -/
structure Source.Backticked (s : Source) (p : Position) : Prop where
  kind : p.kind = .templateString
  opened : (s.textOf p.node).head? = some '\x60'
  closed : (s.textOf p.node).getLast? = some '\x60'
  inside : ∀ q ∈ Expression.substitutions p, p.node.span.start + 1 ≤ q.node.span.start ∧
    q.node.span.start ≤ q.node.span.stop ∧ q.node.span.stop + 1 ≤ p.node.span.stop
  /-- Substitutions start and stop between characters. -/
  bounded : ∀ q ∈ Expression.substitutions p, Text.isBoundary s.text q.node.span.start ∧
    Text.isBoundary s.text q.node.span.stop
  ordered : (Expression.substitutions p).Pairwise fun q r => q.node.span.stop ≤ r.node.span.start

namespace Source.Backticked

variable {s : Source} {p : Position}

theorem slice_eq (h : s.Backticked p) :
    Text.slice s.text p.node.span.start p.node.span.stop = some (s.textOf p.node) := by
  have hne : s.textOf p.node ≠ [] := by
    intro hnil
    have hopened := h.opened
    simp [hnil] at hopened
  rw [Source.textOf] at hne ⊢
  cases hslice : Text.slice s.text p.node.span.start p.node.span.stop with
  | none => simp [hslice] at hne
  | some u => rfl

theorem slice_inside (h : s.Backticked p) :
    Text.slice s.text (p.node.span.start + 1) (max (p.node.span.stop - 1) (p.node.span.start + 1)) =
      some (Literal.inside (s.textOf p.node)) :=
  Text.slice_inside h.slice_eq h.opened h.closed

/-- Without substitutions the template is a literal, and where that fails it cannot be split
either: both look at the same text. -/
theorem ofPosition_of_plain (h : s.Backticked p) (hplain : Expression.substitutions p = []) :
    (∃ text, Expression.ofPosition s p = .literal text ∧
      Literal.decodeSegment? (Literal.inside (s.textOf p.node)) = some text) ∨
    Expression.ofPosition s p = .unsupported ∧
      Literal.decodeSegment? (Literal.inside (s.textOf p.node)) = none := by
  have hkind : p.tree.kind = .templateString := h.kind
  have hlike : p.tree.isLiteralLike = true := by
    rw [Expression.isLiteralLike_template h.kind, hplain]
    rfl
  have hliteral : s.literalText? p.tree =
      Literal.decodeSegment? (Literal.inside (s.textOf p.node)) := by
    simp [Source.literalText?, hlike, hkind, Position.node]
  cases hdecoded : Literal.decodeSegment? (Literal.inside (s.textOf p.node)) with
  | some text =>
    refine .inl ⟨text, ?_, rfl⟩
    rw [Expression.ofPosition, hliteral, hdecoded]
  | none =>
    refine .inr ⟨?_, rfl⟩
    have hsegment := Expression.segment?_of_slice h.slice_inside
    rw [hdecoded] at hsegment
    simp [Expression.ofPosition, hliteral, hdecoded, h.kind, Expression.ofTemplate, hplain,
      Expression.segments?, hsegment]

/-- The substitutions cut what is between the backticks. -/
theorem exists_cut (h : s.Backticked p) (hsubs : Expression.substitutions p ≠ []) :
    ∃ first rest,
      Expression.Cut s.text (p.node.span.start + 1) (p.node.span.stop - 1)
        (Expression.substitutions p) first rest ∧
      s.textOf p.node = '\x60' :: (Text.woven first
        (((Expression.substitutions p).map fun q => s.textOf q.node).zip rest) ++ ['\x60']) := by
  obtain ⟨q, hq⟩ := List.exists_mem_of_ne_nil _ hsubs
  have hinside := h.inside q hq
  have hmax : max (p.node.span.stop - 1) (p.node.span.start + 1) = p.node.span.stop - 1 := by omega
  have hslice := h.slice_inside
  rw [hmax] at hslice
  have horder := Expression.inOrder_of_pairwise
    (a := p.node.span.start + 1) (b := p.node.span.stop - 1) (by omega)
    (fun q hq => by have := h.inside q hq; omega) h.ordered
  obtain ⟨first, rest, hcut⟩ := Expression.exists_cut (Text.isBoundary_start hslice)
    (Text.isBoundary_stop hslice) h.bounded horder
  refine ⟨first, rest, hcut, ?_⟩
  rw [← Option.some.inj (hslice.symm.trans hcut.slice_eq)]
  apply Literal.eq_between h.opened h.closed
  -- one backtick alone would leave no room for the substitution
  by_contra hshort
  have hlength := Text.byteLength_of_slice h.slice_eq
  rw [Literal.eq_singleton h.opened hshort] at hlength
  have hbyte : Text.byteLength ['\x60'] = 1 := rfl
  omega

theorem ofPosition_of_substitutions (h : s.Backticked p)
    (hsubs : Expression.substitutions p ≠ []) :
    Expression.ofPosition s p = Expression.ofTemplate s p := by
  have hnot : p.tree.isLiteralLike = false := by
    rw [Expression.isLiteralLike_template h.kind]
    exact List.isEmpty_eq_false_iff.mpr hsubs
  simp [Expression.ofPosition, Source.literalText?, hnot, h.kind]

end Source.Backticked

/-- A template between backticks loses no text. With substitutions it is cut at them into one
segment more than there are substitutions, and backtick, segments, substitutions and backtick
together are its text. It is given up exactly when a segment cannot be decoded. Otherwise it is a
template with as many spans as substitutions: the decoded first segment, then for each substitution
the expression in it with the decoded segment behind it. Without substitutions it is the literal
that stands between the backticks, or is given up when that cannot be decoded. -/
theorem Expression.template_loses_no_text {s : Source} {p : Position} (h : s.Backticked p) :
    (substitutions p ≠ [] → ∃ first rest,
      Cut s.text (p.node.span.start + 1) (p.node.span.stop - 1) (substitutions p) first rest ∧
      rest.length = (substitutions p).length ∧
      s.textOf p.node = '\x60' :: (Text.woven first
        (((substitutions p).map fun q => s.textOf q.node).zip rest) ++ ['\x60']) ∧
      (ofPosition s p = .unsupported ↔
        ∃ raw ∈ first :: rest, Literal.decodeSegment? raw = none) ∧
      ((∀ raw ∈ first :: rest, Literal.decodeSegment? raw ≠ none) →
        ∃ head spans, ofPosition s p = .template head spans ∧
          spans.length = (substitutions p).length ∧ Literal.decodeSegment? first = some head ∧
          List.Forall₂ Decoded ((substitutions p).zip rest) spans)) ∧
    (substitutions p = [] →
      (∃ text, ofPosition s p = .literal text ∧
        Literal.decodeSegment? (Literal.inside (s.textOf p.node)) = some text) ∨
      ofPosition s p = .unsupported ∧
        Literal.decodeSegment? (Literal.inside (s.textOf p.node)) = none) := by
  refine ⟨fun hsubs => ?_, h.ofPosition_of_plain⟩
  obtain ⟨first, rest, hcut, htext⟩ := h.exists_cut hsubs
  have hmax : max (p.node.span.stop - 1) (p.node.span.start + 1) = p.node.span.stop - 1 := by
    have := Text.le_of_slice hcut.slice_eq
    omega
  refine ⟨first, rest, hcut, hcut.length_eq, htext, ?_⟩
  rw [h.ofPosition_of_substitutions hsubs, ofTemplate, hmax]
  rcases hcut.segments? with ⟨hnone, hfail⟩ | ⟨hall, head, spans, hsome, hhead, hspans⟩
  · rw [hnone]
    refine ⟨⟨fun _ => hfail, fun _ => rfl⟩, fun hall => ?_⟩
    obtain ⟨raw, hraw, hnone⟩ := hfail
    exact absurd hnone (hall raw hraw)
  · rw [hsome]
    refine ⟨⟨(fun hgiven => by cases hgiven), ?_⟩, fun _ => ⟨head, spans, rfl, ?_, hhead, hspans⟩⟩
    · rintro ⟨raw, hraw, hnone⟩
      exact absurd hnone (hall raw hraw)
    · have hlength := hspans.length_eq
      rw [List.length_zip, hcut.length_eq, Nat.min_self] at hlength
      exact hlength.symm

/-- A template with two substitutions next to each other, in the second only a comment. -/
def adjacent : Source where
  index := 0
  path := []
  dialect := .typeScript
  text := ['\x60', 'é', '$', '\x7b', 'x', '\x7d', '$', '\x7b', '/', '*', '*', '/', '\x7d', '\\', 'n',
    '\x60']
  tree := .piece .templateString none 0 17
    [.piece .templateSubstitution none 3 7 [.piece .identifier none 5 6 []],
      .piece .templateSubstitution none 7 14 [.piece .comment none 9 13 []]]

/-- The segment between the two substitutions is empty and goes to the first of them. -/
theorem template_loses_no_text_adjacent :
    adjacent.Backticked (.top adjacent.tree) ∧
      ∃ head spans, Expression.ofPosition adjacent (.top adjacent.tree) = .template head spans ∧
        head = ['é'] ∧ spans.map (·.2) = [[], ['\n']] := by
  have hback : adjacent.Backticked (.top adjacent.tree) :=
    ⟨rfl, by decide, by decide, by decide, by decide, by decide⟩
  obtain ⟨first, rest, hcut, -, -, -, htemplate⟩ :=
    (Expression.template_loses_no_text hback).1 (by decide)
  rcases hcut with _ | ⟨hfirst, -, hcut⟩
  rcases hcut with _ | ⟨hsecond, -, hcut⟩
  rcases hcut with hthird | _
  obtain rfl := Option.some.inj (hfirst.symm.trans (by decide : _ = some ['é']))
  obtain rfl := Option.some.inj (hsecond.symm.trans (by decide : _ = some []))
  obtain rfl := Option.some.inj (hthird.symm.trans (by decide : _ = some ['\\', 'n']))
  obtain ⟨head, spans, hform, -, hhead, hspans⟩ := htemplate (by decide +kernel)
  refine ⟨hback, head, spans, hform, ?_, ?_⟩
  · exact Option.some.inj (hhead.symm.trans (by decide +kernel))
  · rcases hspans with _ | ⟨⟨-, hone⟩, hspans⟩
    rcases hspans with _ | ⟨⟨-, htwo⟩, hspans⟩
    rcases hspans with _ | _
    have hempty := Option.some.inj (hone.symm.trans (by decide +kernel : _ = some []))
    have hline := Option.some.inj (htwo.symm.trans (by decide +kernel : _ = some ['\n']))
    rw [List.map_cons, List.map_cons, List.map_nil, hempty, hline]

end LiteralFolding
