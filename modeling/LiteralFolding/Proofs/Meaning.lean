-- What an expression of literals means in a script, and when folding keeps that meaning. A
-- script adds two numbers and joins everything else; folding joins always, and it shows numerals
-- of another base as a number below their value where the digits slip.
import LiteralFolding.Literal.Quoted
import LiteralFolding.Proofs.Fragments
import LiteralFolding.Proofs.NumeralValues
import LiteralFolding.Proofs.Positions
import LiteralFolding.Proofs.Slices
import LiteralFolding.Proofs.Sums

namespace LiteralFolding

/-! ## Values of a script -/

namespace Script

/-- A value of a script. -/
inductive Value where
  | text (text : Text)
  | number (number : Number)
  deriving DecidableEq, Repr

namespace Value

/-- The text that a value is turned into. -/
def shown : Value → Text
  | .text t => t
  | .number n => n.text

/-- The sum of two values: numbers are added, everything else is joined as text. -/
def plus : Value → Value → Value
  | .number a, .number b => .number (a.add b)
  | a, b => .text (a.shown ++ b.shown)

end Value

/-! ## Expressions of literals -/

mutual

/-- An expression without references, as it is written. -/
inductive Expr where
  | string (body : Text)
  | number (numeral : Text)
  | template (head : Text) (spans : Spans)
  | parenthesized (inner : Expr)
  | binary (left : Expr) (operator : Kind) (right : Expr)

/-- The substitutions of a template, each with the segment after it. -/
inductive Spans where
  | nil
  | cons (expression : Expr) (segment : Text) (rest : Spans)

end

mutual

/-- The value of an expression; of operators only `+` has one here. -/
def Expr.value? : Expr → Option Value
  | .string body => (Literal.decode? body).map .text
  | .number numeral => (numeralValue? numeral).map .number
  | .template head spans =>
    (Literal.decodeSegment? head).bind fun t => spans.shown?.map fun u => .text (t ++ u)
  | .parenthesized inner => inner.value?
  | .binary left operator right =>
    if operator = .plus then left.value?.bind fun a => right.value?.map a.plus else none

/-- The text of substitutions: each value is turned into text. -/
def Spans.shown? : Spans → Option Text
  | .nil => some []
  | .cons expression segment rest =>
    expression.value?.bind fun v =>
      (Literal.decodeSegment? segment).bind fun t => rest.shown?.map fun u => v.shown ++ (t ++ u)

end

mutual

/-- The text that folding makes of an expression. -/
def Expr.folded? : Expr → Option Text
  | .string body => Literal.decode? body
  | .number numeral => Literal.canonicalNumber? numeral
  | .template head spans =>
    (Literal.decodeSegment? head).bind fun t => spans.folded?.map fun u => t ++ u
  | .parenthesized inner => inner.folded?
  | .binary left operator right =>
    if operator = .plus then left.folded?.bind fun t => right.folded?.map fun u => t ++ u else none

/-- The text that folding makes of substitutions. -/
def Spans.folded? : Spans → Option Text
  | .nil => some []
  | .cons expression segment rest =>
    expression.folded?.bind fun s =>
      (Literal.decodeSegment? segment).bind fun t => rest.folded?.map fun u => s ++ (t ++ u)

end

mutual

/-- An expression and all expressions inside it. -/
def Expr.parts : Expr → List Expr
  | .string body => [.string body]
  | .number numeral => [.number numeral]
  | .template head spans => .template head spans :: spans.parts
  | .parenthesized inner => .parenthesized inner :: inner.parts
  | .binary left operator right => .binary left operator right :: (left.parts ++ right.parts)

/-- All expressions inside substitutions. -/
def Spans.parts : Spans → List Expr
  | .nil => []
  | .cons expression _ rest => expression.parts ++ rest.parts

end

/-- Folding gives an expression's value as text, or both have none. -/
def Expr.Kept (e : Expr) : Prop := e.folded? = e.value?.map Value.shown

mutual

/-- Nothing in an expression is folded to something else than it means: no numeral of another base
slips, and no two numbers are added. -/
def Expr.Faithful : Expr → Prop
  | .string _ => True
  | .number numeral => ¬ Slipping numeral
  | .template _ spans => spans.Faithful
  | .parenthesized inner => inner.Faithful
  | .binary left operator right =>
    left.Faithful ∧ right.Faithful ∧
      (operator = .plus →
        ¬ ∃ a b, left.value? = some (.number a) ∧ right.value? = some (.number b))

def Spans.Faithful : Spans → Prop
  | .nil => True
  | .cons expression _ rest => expression.Faithful ∧ rest.Faithful

end

/-! ## When folding keeps the meaning -/

theorem shown_plus {a b : Value} (h : ¬ ∃ m n, a = .number m ∧ b = .number n) :
    (a.plus b).shown = a.shown ++ b.shown := by
  cases a with
  | text t => rfl
  | number m =>
    cases b with
    | text t => rfl
    | number n => exact absurd ⟨m, n, rfl, rfl⟩ h

mutual

/-- A faithful expression is folded to its value. -/
theorem Expr.kept_of_faithful : (e : Expr) → e.Faithful → e.Kept
  | .string body, _ => by
    simp only [Expr.Kept, Expr.folded?, Expr.value?, Option.map_map]
    cases Literal.decode? body <;> rfl
  | .number numeral, h => by
    have hshown := (Literal.canonicalNumber?_eq_iff numeral).mpr h
    simp only [Expr.Kept, Expr.folded?, Expr.value?, hshown, Option.map_map]
    rfl
  | .template head spans, h => by
    have hspans := spans.folded?_of_faithful h
    simp only [Expr.Kept, Expr.folded?, Expr.value?, hspans]
    cases Literal.decodeSegment? head with
    | none => rfl
    | some t => cases spans.shown? <;> rfl
  | .parenthesized inner, h => inner.kept_of_faithful h
  | .binary left operator right, h => by
    obtain ⟨hleft, hright, hsum⟩ := h
    have hl : left.folded? = left.value?.map Value.shown := left.kept_of_faithful hleft
    have hr : right.folded? = right.value?.map Value.shown := right.kept_of_faithful hright
    simp only [Expr.Kept, Expr.folded?, Expr.value?, hl, hr]
    by_cases hop : operator = .plus
    · simp only [hop, if_true]
      cases ha : left.value? with
      | none => rfl
      | some a =>
        cases hb : right.value? with
        | none => rfl
        | some b =>
          have hplus : (a.plus b).shown = a.shown ++ b.shown := by
            refine shown_plus ?_
            rintro ⟨m, n, rfl, rfl⟩
            exact hsum hop ⟨m, n, ha, hb⟩
          simp [hplus]
    · simp [hop]

theorem Spans.folded?_of_faithful : (spans : Spans) → spans.Faithful → spans.folded? = spans.shown?
  | .nil, _ => by rw [Spans.folded?, Spans.shown?]
  | .cons expression segment rest, h => by
    have he : expression.folded? = expression.value?.map Value.shown :=
      expression.kept_of_faithful h.1
    rw [Spans.folded?, Spans.shown?, he, rest.folded?_of_faithful h.2]
    cases expression.value? <;> rfl

end

/-- A number that an expression means is one of the format, or none at all. -/
theorem Expr.isValue_of_value? {x : Number} :
    (e : Expr) → e.value? = some (.number x) → x.IsValue
  | .string body, h => by
    simp [Expr.value?] at h
  | .number numeral, h => by
    simp only [Expr.value?, Option.map_eq_some_iff, Value.number.injEq, exists_eq_right] at h
    exact .inr (Literal.isRead_of_numeralValue? h)
  | .template head spans, h => by
    simp [Expr.value?, Option.bind_eq_some_iff] at h
  | .parenthesized inner, h => inner.isValue_of_value? h
  | .binary left operator right, h => by
    simp only [Expr.value?, Option.ite_none_right_eq_some, Option.bind_eq_some_iff,
      Option.map_eq_some_iff] at h
    obtain ⟨-, a, ha, b, hb, hplus⟩ := h
    cases a with
    | text t => cases hplus
    | number m =>
      cases b with
      | text t => cases hplus
      | number n =>
        cases hplus
        exact Number.isValue_add (left.isValue_of_value? ha) (right.isValue_of_value? hb)

theorem Expr.self_mem_parts (e : Expr) : e ∈ e.parts := by
  cases e <;> simp [parts]

mutual

/-- An expression that is folded to its value in all its parts is faithful. -/
theorem Expr.faithful_of_kept : (e : Expr) → (∀ part ∈ e.parts, part.Kept) → e.Faithful
  | .string _, _ => trivial
  | .number numeral, h => by
    have hkept := h _ (Expr.self_mem_parts _)
    simp only [Expr.Kept, Expr.folded?, Expr.value?, Option.map_map] at hkept
    exact (Literal.canonicalNumber?_eq_iff numeral).mp hkept
  | .template head spans, h =>
    spans.faithful_of_kept fun part hp => h part (by simp [Expr.parts, hp])
  | .parenthesized inner, h =>
    inner.faithful_of_kept fun part hp => h part (by simp [Expr.parts, hp])
  | .binary left operator right, h => by
    have hleft : ∀ part ∈ left.parts, part.Kept :=
      fun part hp => h part (by simp [Expr.parts, hp])
    have hright : ∀ part ∈ right.parts, part.Kept :=
      fun part hp => h part (by simp [Expr.parts, hp])
    refine ⟨left.faithful_of_kept hleft, right.faithful_of_kept hright, ?_⟩
    rintro hop ⟨a, b, ha, hb⟩
    -- the parts fold to the texts of `a` and `b`, and the whole to the text of their sum
    have hkept := h _ (Expr.self_mem_parts _)
    have hl : left.folded? = left.value?.map Value.shown := hleft left left.self_mem_parts
    have hr : right.folded? = right.value?.map Value.shown := hright right right.self_mem_parts
    simp only [Expr.Kept, Expr.folded?, Expr.value?, hop, if_true, hl, hr, ha, hb] at hkept
    exact Number.text_add_ne (left.isValue_of_value? ha) (right.isValue_of_value? hb)
      (Option.some.inj hkept).symm

theorem Spans.faithful_of_kept :
    (spans : Spans) → (∀ part ∈ spans.parts, part.Kept) → spans.Faithful
  | .nil, _ => trivial
  | .cons expression _ rest, h =>
    ⟨expression.faithful_of_kept fun part hp => h part (by simp [Spans.parts, hp]),
      rest.faithful_of_kept fun part hp => h part (by simp [Spans.parts, hp])⟩

end

mutual

/-- The parts of a faithful expression are faithful. -/
theorem Expr.faithful_part : (e : Expr) → e.Faithful → ∀ part ∈ e.parts, part.Faithful
  | .string body, h, part, hp => by
    simp only [Expr.parts, List.mem_singleton] at hp
    exact hp ▸ h
  | .number numeral, h, part, hp => by
    simp only [Expr.parts, List.mem_singleton] at hp
    exact hp ▸ h
  | .template head spans, h, part, hp => by
    rcases List.mem_cons.mp hp with rfl | hp
    · exact h
    · exact spans.faithful_part h part hp
  | .parenthesized inner, h, part, hp => by
    rcases List.mem_cons.mp hp with rfl | hp
    · exact h
    · exact inner.faithful_part h part hp
  | .binary left operator right, h, part, hp => by
    rcases List.mem_cons.mp hp with rfl | hp
    · exact h
    · rcases List.mem_append.mp hp with hp | hp
      · exact left.faithful_part h.1 part hp
      · exact right.faithful_part h.2.1 part hp

theorem Spans.faithful_part :
    (spans : Spans) → spans.Faithful → ∀ part ∈ spans.parts, part.Faithful
  | .nil, _, _, hp => by simp [Spans.parts] at hp
  | .cons expression _ rest, h, part, hp => by
    rcases List.mem_append.mp hp with hp | hp
    · exact expression.faithful_part h.1 part hp
    · exact rest.faithful_part h.2 part hp

end

theorem Expr.faithful_iff (e : Expr) : e.Faithful ↔ ∀ part ∈ e.parts, part.Kept :=
  ⟨fun h part hp => part.kept_of_faithful (e.faithful_part h part hp), e.faithful_of_kept⟩

/-! ## Expressions in a source -/

mutual

/-- The tree at a place is the expression: each node is of the kind and has the text and the
parts that the grammar gives it. -/
inductive Spells (s : Source) : Position → Expr → Prop
  | string {p : Position} {q : Quote} {body : Text} :
      p.kind = .string → s.textOf p.node = q.char :: (body ++ [q.char]) →
      Spells s p (.string body)
  | number {p : Position} {numeral : Text} :
      p.kind = .number → s.textOf p.node = numeral → Spells s p (.number numeral)
  | template {p : Position} {head : Text} {spans : Spans} :
      p.kind = .templateString → p.node.span.start + 2 ≤ p.node.span.stop →
      Text.slice s.text p.node.span.start (p.node.span.start + 1) = some ['\x60'] →
      Text.slice s.text (p.node.span.stop - 1) p.node.span.stop = some ['\x60'] →
      SpellsSpans s (p.node.span.start + 1) (p.node.span.stop - 1) (Expression.substitutions p)
        head spans →
      Spells s p (.template head spans)
  | parenthesized {p q : Position} {inner : Expr} :
      p.kind = .parenthesizedExpression → p.firstExpression? = some q → Spells s q inner →
      Spells s p (.parenthesized inner)
  | binary {p l o r : Position} {left right : Expr} {operator : Kind} :
      p.kind = .binaryExpression → p.child? .left = some l → p.child? .operator = some o →
      p.child? .right = some r → o.kind = operator → Spells s l left → Spells s r right →
      Spells s p (.binary left operator right)

/-- From byte `cursor` to byte `stop` there are a first segment and the substitutions, each with
the segment after it. -/
inductive SpellsSpans (s : Source) : Nat → Nat → List Position → Text → Spans → Prop
  | nil {cursor stop : Nat} {head : Text} :
      Text.slice s.text cursor stop = some head → SpellsSpans s cursor stop [] head .nil
  | cons {cursor stop : Nat} {p q : Position} {ps : List Position} {head next : Text}
      {expression : Expr} {rest : Spans} :
      Text.slice s.text cursor p.node.span.start = some head → p.firstExpression? = some q →
      Spells s q expression → SpellsSpans s p.node.span.stop stop ps next rest →
      SpellsSpans s cursor stop (p :: ps) head (.cons expression next rest)

end

end Script

namespace Fragment

/-- The whole text of a run of fragments, if it did not fail. -/
def text? : List Text × Option FragmentError → Option Text
  | (texts, none) => some texts.flatten
  | (_, some _) => none

theorem text?_andThen (a b : List Text × Option FragmentError) :
    text? (andThen a b) = (text? a).bind fun t => (text? b).map fun u => t ++ u := by
  obtain ⟨ta, _ | ea⟩ := a
  · obtain ⟨tb, _ | eb⟩ := b <;> simp [text?]
  · rfl

theorem exists_texts_of_text? {run : List Text × Option FragmentError} {t : Text}
    (h : text? run = some t) : ∃ texts, run = (texts, none) ∧ texts.flatten = t := by
  obtain ⟨texts, _ | e⟩ := run
  · exact ⟨texts, rfl, Option.some.inj h⟩
  · cases h

end Fragment

namespace Script

variable {s : Source} {resolver : Resolver}

theorem text?_of_literalText? {p : Position} {t : Text} (h : s.literalText? p.tree = some t) :
    Fragment.text? (Fragment.ofPosition s resolver p) = some t := by
  rw [Fragment.ofPosition_literal (Expression.ofPosition_of_literalText? h)]
  simp [Fragment.text?]

theorem text?_of_unsupported {p : Position} (h : Expression.ofPosition s p = .unsupported) :
    Fragment.text? (Fragment.ofPosition s resolver p) = none := by
  rw [Fragment.ofPosition_unsupported h]
  rfl

/-- A string or a number gives the text of its literal. -/
theorem text?_of_literal {p : Position} (hkind : p.kind = .string ∨ p.kind = .number) :
    Fragment.text? (Fragment.ofPosition s resolver p) = s.literalText? p.tree := by
  cases h : s.literalText? p.tree with
  | some t => exact text?_of_literalText? h
  | none =>
    apply text?_of_unsupported
    rcases hkind with hkind | hkind <;> simp [Expression.ofPosition, h, hkind]

theorem text?_of_string {p : Position} {quote : Quote} {body : Text} (hkind : p.kind = .string)
    (htext : s.textOf p.node = quote.char :: (body ++ [quote.char])) :
    Fragment.text? (Fragment.ofPosition s resolver p) = Literal.decode? body := by
  have hkind' : p.tree.kind = .string := hkind
  have htext' : s.textOf p.tree.node = quote.char :: (body ++ [quote.char]) := htext
  rw [text?_of_literal (.inl hkind)]
  simp [Source.literalText?, Tree.isLiteralLike, hkind', htext', Literal.inside]

theorem text?_of_number {p : Position} (hkind : p.kind = .number) :
    Fragment.text? (Fragment.ofPosition s resolver p) =
      Literal.canonicalNumber? (s.textOf p.node) := by
  have hkind' : p.tree.kind = .number := hkind
  rw [text?_of_literal (.inr hkind)]
  simp [Source.literalText?, Tree.isLiteralLike, hkind', Position.node]

theorem slice_template {p : Position} {head : Text}
    (hopen : Text.slice s.text p.node.span.start (p.node.span.start + 1) = some ['\x60'])
    (hclose : Text.slice s.text (p.node.span.stop - 1) p.node.span.stop = some ['\x60'])
    (hhead : Text.slice s.text (p.node.span.start + 1) (p.node.span.stop - 1) = some head) :
    Literal.inside (s.textOf p.tree.node) = head := by
  have hall : Text.slice s.text p.node.span.start p.node.span.stop =
      some (['\x60'] ++ head ++ ['\x60']) := Text.slice_join (Text.slice_join hopen hhead) hclose
  have htext : s.textOf p.tree.node = ['\x60'] ++ head ++ ['\x60'] := by
    rw [Source.textOf]
    exact congrArg (Option.getD · []) hall
  simp [htext, Literal.inside]

/-- A template gives its segments with the texts of its substitutions between them, whether it
is read as a literal or split. -/
theorem text?_of_template {p : Position} (hkind : p.kind = .templateString)
    (hlen : p.node.span.start + 2 ≤ p.node.span.stop)
    (hopen : Text.slice s.text p.node.span.start (p.node.span.start + 1) = some ['\x60'])
    (hclose : Text.slice s.text (p.node.span.stop - 1) p.node.span.stop = some ['\x60']) :
    Fragment.text? (Fragment.ofPosition s resolver p) =
      (Expression.segments? s (p.node.span.start + 1) (p.node.span.stop - 1)
        (Expression.substitutions p)).bind fun (t, parts) =>
          (Fragment.text? (Fragment.collect s resolver (Part.ofSpans parts))).map
            fun u => t ++ u := by
  have hmax : max (p.node.span.stop - 1) (p.node.span.start + 1) = p.node.span.stop - 1 := by omega
  cases hlit : s.literalText? p.tree with
  | some t =>
    -- nothing is substituted, and the only segment is the inside of the literal
    have hlike := Source.isLiteralLike_of_literalText? hlit
    have hsubs : Expression.substitutions p = [] := by
      rwa [Expression.isLiteralLike_template hkind, List.isEmpty_iff] at hlike
    obtain ⟨head, hhead⟩ := Text.exists_slice (Text.isBoundary_stop hopen)
      (Text.isBoundary_start hclose) (by omega)
    have hsegment :
        Expression.segment? s (p.node.span.start + 1) (p.node.span.stop - 1) = some t := by
      have hkind' : p.tree.kind = .templateString := hkind
      have hinside := slice_template hopen hclose hhead
      rw [← hlit, Expression.segment?, hhead, Source.literalText?, if_pos hlike, hkind']
      exact congrArg Literal.decodeSegment? hinside.symm
    rw [text?_of_literalText? hlit, hsubs, Expression.segments?, hsegment]
    simp [Part.ofSpans, Fragment.collect, Fragment.text?]
  | none =>
    have hexpr : Expression.ofPosition s p = Expression.ofTemplate s p := by
      simp [Expression.ofPosition, hlit, hkind]
    rw [Expression.ofTemplate, hmax] at hexpr
    cases hseg : Expression.segments? s (p.node.span.start + 1) (p.node.span.stop - 1)
        (Expression.substitutions p) with
    | none =>
      rw [hseg] at hexpr
      exact text?_of_unsupported hexpr
    | some found =>
      rw [hseg] at hexpr
      obtain ⟨head, spans⟩ := found
      rw [Fragment.ofPosition_template hexpr, Fragment.text?_andThen]
      simp [Fragment.text?]

theorem Spans.folded?_cons (expression : Expr) (segment : Text) (rest : Spans) :
    (Spans.cons expression segment rest).folded? =
      expression.folded?.bind fun s =>
        ((Literal.decodeSegment? segment).bind fun t => rest.folded?.map fun u => t ++ u).map
          fun u => s ++ u := by
  rw [Spans.folded?]
  cases Literal.decodeSegment? segment <;> cases rest.folded? <;> rfl

mutual

/-- The fragments of an expression make the text that folding gives it. -/
theorem text?_of_spells {p : Position} {e : Expr} :
    Spells s p e → Fragment.text? (Fragment.ofPosition s resolver p) = e.folded?
  | .string hkind htext => by
    rw [text?_of_string hkind htext, Expr.folded?]
  | .number hkind htext => by
    rw [text?_of_number hkind, htext, Expr.folded?]
  | .template hkind hlen hopen hclose hspans => by
    rw [text?_of_template hkind hlen hopen hclose, Expr.folded?]
    exact segments?_of_spells hspans
  | .parenthesized (q := q) hkind hq hinner => by
    have hexpr : Expression.ofPosition s p = .parenthesized q := by
      have hnone : s.literalText? p.tree = none := by
        have hkind' : p.tree.kind = .parenthesizedExpression := hkind
        simp [Source.literalText?, Tree.isLiteralLike, hkind']
      simp [Expression.ofPosition, hnone, hkind, hq]
    rw [Fragment.ofPosition_parenthesized hexpr, text?_of_spells hinner, Expr.folded?]
  | .binary (l := l) (o := o) (r := r) hkind hl ho hr rfl hleft hright => by
    have hexpr : Expression.ofPosition s p = .concatenation l o.kind r := by
      have hnone : s.literalText? p.tree = none := by
        have hkind' : p.tree.kind = .binaryExpression := hkind
        simp [Source.literalText?, Tree.isLiteralLike, hkind']
      simp [Expression.ofPosition, hnone, hkind, hl, ho, hr]
    rw [Expr.folded?]
    by_cases hop : o.kind = .plus
    · rw [hop] at hexpr
      rw [if_pos hop, Fragment.ofPosition_plus hexpr, Fragment.text?_andThen,
        text?_of_spells hleft, text?_of_spells hright]
    · rw [if_neg hop, Fragment.ofPosition_other_operator hexpr hop]
      rfl

/-- The segments of a template are there when all of them can be decoded, and then the fragments
after the first are those of the substitutions. -/
theorem segments?_of_spells {cursor stop : Nat} {ps : List Position} {head : Text} {spans : Spans} :
    SpellsSpans s cursor stop ps head spans →
      ((Expression.segments? s cursor stop ps).bind fun (t, parts) =>
        (Fragment.text? (Fragment.collect s resolver (Part.ofSpans parts))).map fun u => t ++ u) =
      (Literal.decodeSegment? head).bind fun t => spans.folded?.map fun u => t ++ u
  | .nil hhead => by
    simp only [Expression.segments?, Expression.segment?, hhead, Option.getD_some, Spans.folded?]
    cases Literal.decodeSegment? head <;> simp [Part.ofSpans, Fragment.collect, Fragment.text?]
  | .cons (p := p) (q := q) hhead hq hexpr hrest => by
    have hseg := segments?_of_spells hrest
    have htext := text?_of_spells hexpr
    rw [Spans.folded?_cons, ← hseg, Expression.segments?, Expression.segment?, hhead,
      Option.getD_some]
    cases Literal.decodeSegment? head with
    | none => rfl
    | some t =>
      cases Expression.segments? s p.node.span.stop stop _ with
      | none => cases Expr.folded? _ <;> rfl
      | some found =>
        obtain ⟨n, parts⟩ := found
        have hsub : Expression.substituted p = q := by
          rw [Expression.substituted, hq, Option.getD_some]
        have hnext : Fragment.text? ([n], none) = some n := by simp [Fragment.text?]
        simp only [Option.bind_some, hsub, Fragment.collect_ofSpans_cons, Fragment.text?_andThen,
          htext, hnext]

end

mutual

/-- Every part of an expression stands at its place or below it. -/
theorem exists_spells_of_mem_parts {p : Position} {e part : Expr} :
    Spells s p e → part ∈ e.parts → ∃ q, p.Within q ∧ Spells s q part
  | .string hkind htext, hp => by
    obtain rfl := List.mem_singleton.mp hp
    exact ⟨p, .refl p, .string hkind htext⟩
  | .number hkind htext, hp => by
    obtain rfl := List.mem_singleton.mp hp
    exact ⟨p, .refl p, .number hkind htext⟩
  | .template hkind hlen hopen hclose hspans, hp => by
    rcases List.mem_cons.mp hp with rfl | hp
    · exact ⟨p, .refl p, .template hkind hlen hopen hclose hspans⟩
    · obtain ⟨r, hr, q, hq, hspells⟩ := exists_spells_of_mem_spans hspans hp
      exact ⟨q, .step (Expression.mem_children_of_mem_substitutions hr) hq, hspells⟩
  | .parenthesized hkind hinner hspells, hp => by
    rcases List.mem_cons.mp hp with rfl | hp
    · exact ⟨p, .refl p, .parenthesized hkind hinner hspells⟩
    · obtain ⟨q, hq, hspells⟩ := exists_spells_of_mem_parts hspells hp
      exact ⟨q, .step (Position.mem_children_of_firstExpression? hinner) hq, hspells⟩
  | .binary hkind hl ho hr hop hleft hright, hp => by
    rcases List.mem_cons.mp hp with rfl | hp
    · exact ⟨p, .refl p, .binary hkind hl ho hr hop hleft hright⟩
    · rcases List.mem_append.mp hp with hp | hp
      · obtain ⟨q, hq, hspells⟩ := exists_spells_of_mem_parts hleft hp
        exact ⟨q, .step (Position.mem_children_of_child? hl) hq, hspells⟩
      · obtain ⟨q, hq, hspells⟩ := exists_spells_of_mem_parts hright hp
        exact ⟨q, .step (Position.mem_children_of_child? hr) hq, hspells⟩

theorem exists_spells_of_mem_spans {cursor stop : Nat} {ps : List Position} {head : Text}
    {spans : Spans} {part : Expr} :
    SpellsSpans s cursor stop ps head spans → part ∈ spans.parts →
      ∃ r ∈ ps, ∃ q, r.Within q ∧ Spells s q part
  | .nil _, hp => by simp [Spans.parts] at hp
  | .cons (p := p) _ hfirst hexpr hrest, hp => by
    rcases List.mem_append.mp hp with hp | hp
    · obtain ⟨q, hq, hspells⟩ := exists_spells_of_mem_parts hexpr hp
      exact ⟨p, List.mem_cons_self .., q,
        .step (Position.mem_children_of_firstExpression? hfirst) hq, hspells⟩
    · obtain ⟨r, hr, hspells⟩ := exists_spells_of_mem_spans hrest hp
      exact ⟨r, List.mem_cons_of_mem _ hr, hspells⟩

end

/-- Folding keeps the meaning of a faithful expression: its fragments, joined, are the text of
its value. An expression that is not faithful has a part, at its place or below it, that is folded
to something else. -/
theorem folding_keeps_meaning_iff_faithful {p : Position} {e : Expr} {texts : List Text}
    (h : Spells s p e) (hfold : Fragment.ofPosition s resolver p = (texts, none)) :
    (e.Faithful → ∃ value, e.value? = some value ∧ value.shown = texts.flatten) ∧
      (¬ e.Faithful → ∃ q part, p.Within q ∧ part ∈ e.parts ∧ Spells s q part ∧
        Fragment.text? (Fragment.ofPosition s resolver q) ≠ part.value?.map Value.shown) := by
  have htext : e.folded? = some texts.flatten := by
    rw [← text?_of_spells h, hfold, Fragment.text?]
  constructor
  · intro hfaithful
    have hkept : e.folded? = e.value?.map Value.shown := e.kept_of_faithful hfaithful
    rw [htext] at hkept
    exact Option.map_eq_some_iff.mp hkept.symm
  · intro hfaithful
    rw [Expr.faithful_iff] at hfaithful
    obtain ⟨part, hfaithful⟩ := Classical.not_forall.mp hfaithful
    obtain ⟨hpart, hkept⟩ := Classical.not_imp.mp hfaithful
    obtain ⟨q, hwithin, hq⟩ := exists_spells_of_mem_parts h hpart
    exact ⟨q, part, hwithin, hpart, hq, fun heq => hkept ((text?_of_spells hq).symm.trans heq)⟩

/-- A template in which a number is joined with a string. -/
def greeting : Source where
  index := 0
  path := []
  dialect := .typeScript
  text := ['\x60', 'a', '$', '\x7b', '1', ' ', '+', ' ', '\'', 'b', '\'', '\x7d', '\x60']
  tree := .piece .templateString none 0 13 [.piece .templateSubstitution none 2 12
    [.piece .binaryExpression none 4 11 [.piece .number (some .left) 4 5 [],
      .piece .plus (some .operator) 6 7 [], .piece .string (some .right) 8 11 []]]]

/-- The template is folded to the text that it means. -/
theorem folding_keeps_greeting :
    ∃ (e : Expr) (texts : List Text), Spells greeting (.top greeting.tree) e ∧
      Fragment.ofPosition greeting (fun _ _ => none) (.top greeting.tree) = (texts, none) ∧
      e.Faithful ∧ texts.flatten = ['a', '1', 'b'] ∧
      ∃ value, e.value? = some value ∧ value.shown = texts.flatten := by
  let sum : Expr := .binary (.number ['1']) .plus (.string ['b'])
  have hspells : Spells greeting (.top greeting.tree) (.template ['a'] (.cons sum [] .nil)) := by
    refine .template rfl (by decide) (by decide) (by decide) ?_
    refine .cons (by decide) rfl ?_ (.nil (by decide))
    refine .binary rfl rfl rfl rfl rfl (.number rfl (by decide)) ?_
    exact .string (q := .single) rfl (by decide)
  have hone : ¬ Slipping ['1'] := (Literal.canonicalNumber?_eq_iff _).mp (by decide +kernel)
  have hstring : (Expr.string ['b']).value? = some (.text ['b']) := by decide +kernel
  have hfaithful : (Expr.template ['a'] (.cons sum [] .nil)).Faithful := by
    refine ⟨⟨hone, trivial, ?_⟩, trivial⟩
    rintro - ⟨a, b, -, hb⟩
    cases hstring.symm.trans hb
  obtain ⟨texts, hfold, hflat⟩ := Fragment.exists_texts_of_text?
    ((text?_of_spells hspells).trans (by decide +kernel : _ = some ['a', '1', 'b']))
  exact ⟨_, texts, hspells, hfold, hfaithful, hflat,
    (folding_keeps_meaning_iff_faithful hspells hfold).1 hfaithful⟩

/-- A sum of two numbers. -/
def total : Source where
  index := 0
  path := []
  dialect := .typeScript
  text := ['1', '+', '2']
  tree := .piece .binaryExpression none 0 3 [.piece .number (some .left) 0 1 [],
    .piece .plus (some .operator) 1 2 [], .piece .number (some .right) 2 3 []]

/-- Two numbers are joined where a script adds them: `1+2` is folded to `12`. -/
theorem folding_joins_numbers :
    ∃ (e : Expr) (texts : List Text), Spells total (.top total.tree) e ∧
      Fragment.ofPosition total (fun _ _ => none) (.top total.tree) = (texts, none) ∧
      texts.flatten = ['1', '2'] ∧ e.value?.map Value.shown = some ['3'] := by
  have hspells : Spells total (.top total.tree) (.binary (.number ['1']) .plus (.number ['2'])) :=
    .binary rfl rfl rfl rfl rfl (.number rfl (by decide)) (.number rfl (by decide))
  obtain ⟨texts, hfold, hflat⟩ := Fragment.exists_texts_of_text?
    ((text?_of_spells hspells).trans (by decide +kernel : _ = some ['1', '2']))
  exact ⟨_, texts, hspells, hfold, hflat, by decide +kernel⟩

end Script

end LiteralFolding
