-- What a pass leaves alone. The values it replaces follow each other in the text and none
-- reaches into another, so every edit is made, and all text outside of them is kept, once and in
-- its order.
import LiteralFolding.Proofs.Idempotence

namespace LiteralFolding

/-- Two texts, from byte `a` of the first on, are the same but for the edits: each edit stands at
its span and exchanges what was there for its literal. -/
inductive Exchanged : Nat → List Edit → Text → Text → Prop
  | rest (a : Nat) (t : Text) : Exchanged a [] t t
  | edit {a : Nat} {e : Edit} {es : List Edit} {gap old t u : Text} :
      e.span.start = a + Text.byteLength gap → e.span.stop = e.span.start + Text.byteLength old →
      Exchanged e.span.stop es t u →
      Exchanged a (e :: es) (gap ++ old ++ t) (gap ++ e.literal ++ u)

namespace Exchanged

variable {a : Nat} {es : List Edit} {t u : Text}

theorem eq_of_nil (h : Exchanged a [] t u) : u = t := by
  cases h
  rfl

end Exchanged

namespace Spliced

variable {t u : Text} {a b : Nat} {es : List Edit}

theorem le (h : Spliced t a b es u) : a ≤ b := by
  induction h with
  | nil hslice => exact Text.le_of_slice hslice
  | cons hslice hle _ ih =>
    have := Text.le_of_slice hslice
    omega

theorem stop_le (h : Spliced t a b es u) : ∀ e ∈ es, e.span.stop ≤ b := by
  induction h with
  | nil => simp
  | cons _ _ hrest ih =>
    intro e he
    rcases List.mem_cons.mp he with rfl | he
    · exact hrest.le
    · exact ih e he

theorem start_le_stop (h : Spliced t a b es u) : ∀ e ∈ es, e.span.start ≤ e.span.stop := by
  induction h with
  | nil => simp
  | cons _ hle _ ih =>
    intro e he
    rcases List.mem_cons.mp he with rfl | he
    · exact hle
    · exact ih e he

/-- No edit starts before the end of an edit in front of it. -/
theorem pairwise_stop_le (h : Spliced t a b es u) :
    es.Pairwise (·.span.stop ≤ ·.span.start) := by
  induction h with
  | nil => exact List.Pairwise.nil
  | cons _ _ hrest ih =>
    apply List.pairwise_cons.mpr
    exact ⟨hrest.start_le, ih⟩

theorem isBoundary_start (h : Spliced t a b es u) : Text.isBoundary t a := by
  cases h with
  | nil hslice => exact Text.isBoundary_start hslice
  | cons hslice _ _ => exact Text.isBoundary_start hslice

/-- Splicing exchanges the edits and keeps the stretches between them. -/
theorem exchanged (h : Spliced t a b es u) :
    ∃ v, Text.slice t a b = some v ∧ Exchanged a es v u := by
  induction h with
  | nil hslice => exact ⟨_, hslice, .rest _ _⟩
  | @cons a b e es gap u hgap hle hrest ih =>
    obtain ⟨v, hv, hexchanged⟩ := ih
    -- between the gap and the rest stands what the edit takes away
    obtain ⟨old, hold⟩ := Text.exists_slice (Text.isBoundary_stop hgap) hrest.isBoundary_start hle
    have hstart := Text.byteLength_of_slice hgap
    have hstop := Text.byteLength_of_slice hold
    refine ⟨gap ++ old ++ v, Text.slice_join (Text.slice_join hgap hold) hv, ?_⟩
    exact .edit hstart.symm hstop.symm hexchanged

end Spliced

/-- What a grammar grants of the nodes that can be folded: one that is not broken is not empty. -/
def Source.Solid (s : Source) : Prop :=
  ∀ p ∈ Position.all s.tree, p.kind.isEntry = true → p.node.broken = false →
    p.node.span.start < p.node.span.stop

instance (s : Source) : Decidable s.Solid := by
  unfold Source.Solid
  infer_instance

namespace FoldContext

variable {cx : FoldContext}

theorem spliced_fold (h : cx.source.Nested) :
    Spliced cx.source.text 0 (Text.byteLength cx.source.text)
      (cx.fold.replacements.map (·.toEdit)) cx.fold.text := by
  obtain ⟨front, u, back, hfront, hu, hback, htext⟩ := exists_reparsed_text_eq h
  have hall := (hu.append (.nil hback)).prepend hfront
  rw [List.append_nil, edits_top] at hall
  have hfold : cx.fold.text = front ++ (u ++ back) := htext
  rwa [hfold]

/-- A recorded replacement is of a property's value. -/
theorem exists_value_of_mem_replacements {r : Replacement} (h : r ∈ cx.fold.replacements) :
    ∃ p value literal, (Position.top cx.source.tree).Reaches p ∧ cx.Occurs p value ∧
      .folded value literal ∈ cx.outcomes ∧ r = Outcome.writing cx.source value literal := by
  rw [fold_replacements] at h
  obtain ⟨o, ho, hr⟩ := List.mem_filterMap.mp h
  obtain ⟨p, hp, hv⟩ := exists_reaches_of_mem_outcomesAt ho
  cases o with
  | skipped value reason => cases hr
  | folded value literal =>
    simp only [Outcome.replacement?] at hr
    split at hr
    · cases hr
    · cases hr
      exact ⟨p, value, literal, hp, value?_eq_some_iff.mp hv, ho, rfl⟩

theorem mem_all_of_reaches {p q : Position} (hp : p ∈ Position.all cx.source.tree)
    (h : p.Reaches q) : q ∈ Position.all cx.source.tree := by
  induction h with
  | refl p => exact hp
  | step hmem _ ih =>
    apply ih
    exact Position.mem_all_of_mem_children hp (Position.mem_children_of_mem_namedChildren hmem)

/-- What a replacement records as replaced is what stands at its span. -/
theorem slice_replaced (h : cx.source.Nested) {r : Replacement} (hr : r ∈ cx.fold.replacements) :
    Text.slice cx.source.text r.span.start r.span.stop = some r.replaced := by
  obtain ⟨p, value, literal, hp, hv, _, rfl⟩ := exists_value_of_mem_replacements hr
  have hmem : value ∈ Position.all cx.source.tree :=
    Position.mem_all_of_mem_children (mem_all_of_reaches (Position.top_mem_all _) hp)
      (Position.mem_children_of_child? hv.2.2)
  obtain ⟨hstart, hstop⟩ := h.bounded value hmem
  obtain ⟨u, hu⟩ := Text.exists_slice hstart hstop (Span.le_of_inOrder (h.ordered value hmem))
  simp [Outcome.writing, Source.textOf, hu]

/-- A value that is replaced takes up room in the text. -/
theorem start_lt_stop_of_mem_replacements (h : cx.source.Solid) {r : Replacement}
    (hr : r ∈ cx.fold.replacements) : r.span.start < r.span.stop := by
  obtain ⟨p, value, literal, hp, hv, houtcome, rfl⟩ := exists_value_of_mem_replacements hr
  have hmem : value ∈ Position.all cx.source.tree :=
    Position.mem_all_of_mem_children (mem_all_of_reaches (Position.top_mem_all _) hp)
      (Position.mem_children_of_child? hv.2.2)
  obtain ⟨text, ⟨hentry, hsound, _⟩, _⟩ := right_of_mem_outcomesAt houtcome
  exact h value hmem hentry (hsound _ (by simp))

/-- Where the nodes of a tree lie inside one another and in order, a pass changes nothing but the
values it folds. The replacements stand at values of properties, within the text, each behind the
one before, and so in strict order where values that are not broken are not empty. All of them are
made: the new text is the old one with their spans exchanged for their literals and with all else
kept, so it grows by the literals less the spans. -/
theorem fold_changes_only_folded_values (h : cx.source.Nested) :
    (∀ r ∈ cx.fold.replacements,
      (∃ p value, (Position.top cx.source.tree).Reaches p ∧ cx.Occurs p value ∧
        r.span = value.node.span) ∧
      r.span.start ≤ r.span.stop ∧ r.span.stop ≤ Text.byteLength cx.source.text ∧
      Text.slice cx.source.text r.span.start r.span.stop = some r.replaced) ∧
    cx.fold.replacements.Pairwise (fun r r' => r.span.stop ≤ r'.span.start) ∧
    (cx.source.Solid →
      cx.fold.replacements.Pairwise (fun r r' => r.span.start < r'.span.start)) ∧
    Exchanged 0 (cx.fold.replacements.map (·.toEdit)) cx.source.text cx.fold.text ∧
    (Text.byteLength cx.fold.text : Int) =
      Text.byteLength cx.source.text + Edit.growth (cx.fold.replacements.map (·.toEdit)) ∧
    (cx.fold.replacements = [] → cx.fold.text = cx.source.text) := by
  have hspliced := spliced_fold h
  have hexchanged : Exchanged 0 (cx.fold.replacements.map (·.toEdit)) cx.source.text
      cx.fold.text := by
    obtain ⟨v, hv, hexchanged⟩ := hspliced.exchanged
    obtain rfl := Option.some.inj ((Text.slice_all cx.source.text).symm.trans hv)
    exact hexchanged
  have horder : cx.fold.replacements.Pairwise (fun r r' => r.span.stop ≤ r'.span.start) :=
    List.pairwise_map.mp hspliced.pairwise_stop_le
  refine ⟨?_, horder, ?_, hexchanged, ?_, ?_⟩
  · intro r hr
    have hedit := List.mem_map_of_mem (f := Replacement.toEdit) hr
    obtain ⟨p, value, literal, hp, hv, _, rfl⟩ := exists_value_of_mem_replacements hr
    exact ⟨⟨p, value, hp, hv, rfl⟩, hspliced.start_le_stop _ hedit, hspliced.stop_le _ hedit,
      slice_replaced h hr⟩
  · intro hsolid
    refine List.Pairwise.imp_of_mem ?_ horder
    intro r r' hr _ hle
    exact Nat.lt_of_lt_of_le (start_lt_stop_of_mem_replacements hsolid hr) hle
  · rw [hspliced.byteLength]
    omega
  · intro hnone
    rw [hnone] at hexchanged
    exact hexchanged.eq_of_nil

/-- Two properties side by side, each with a string for its value. -/
def siblings : FoldContext where
  source :=
    { index := 0
      path := []
      dialect := .typeScript
      text := ['\x7b', 't', ':', '\'', 'a', '\'', ',', 't', ':', '\'', 'b', '\'', '\x7d']
      tree := .piece (.other "object") none 0 13 [
        .piece .pair none 1 6 [.piece .propertyIdentifier (some .key) 1 2 [],
          .piece .string (some .value) 3 6 []],
        .piece .pair none 7 12 [.piece .propertyIdentifier (some .key) 7 8 [],
          .piece .string (some .value) 9 12 []]] }
  resolver := fun _ _ => none
  transform := .done
  options := { property := ['t'], quote := .double }

theorem replacements_siblings :
    siblings.fold.replacements.map (fun r => (r.span.start, r.literal)) =
      [(3, ['"', 'a', '"']), (9, ['"', 'b', '"'])] := by
  obtain ⟨p, q, hnone, hchildren, first, hfirst, second, hsecond, hstarts, htexts, hone, htwo⟩ :
      ∃ p q, siblings.value? (.top siblings.source.tree) = none ∧
        (Position.top siblings.source.tree).namedChildren = [p, q] ∧
        ∃ first, siblings.value? p = some first ∧ ∃ second, siblings.value? q = some second ∧
          (first.node.span.start = 3 ∧ second.node.span.start = 9) ∧
          (siblings.source.textOf first.node = ['\'', 'a', '\''] ∧
            siblings.source.textOf second.node = ['\'', 'b', '\'']) ∧
          siblings.Passes first ['a'] ∧ siblings.Passes second ['b'] := by
    refine ⟨_, _, rfl, rfl, _, rfl, _, rfl, ⟨rfl, rfl⟩, ⟨rfl, rfl⟩, ?_, ?_⟩
    · exact passes_of_literalText? rfl (by decide) (by decide +kernel) rfl
    · exact passes_of_literalText? rfl (by decide) (by decide +kernel) rfl
  have hliterals : Literal.encode siblings.options.quote ['a'] = ['"', 'a', '"'] ∧
      Literal.encode siblings.options.quote ['b'] = ['"', 'b', '"'] := by decide
  have houtcomes : siblings.outcomes =
      [.folded first ['"', 'a', '"'], .folded second ['"', 'b', '"']] := by
    rw [outcomes, outcomesAt_of_none hnone, hchildren]
    simp [outcomesAt_of_ok hfirst (verdict_eq_ok_iff.mpr hone),
      outcomesAt_of_ok hsecond (verdict_eq_ok_iff.mpr htwo), hliterals]
  simp [fold_replacements, houtcomes, Outcome.replacement?, htexts, Outcome.writing, hstarts]

/-- Both strings are exchanged for their literals, the first before the second. -/
theorem fold_exchanges_siblings :
    siblings.source.Nested ∧ siblings.source.Solid ∧
      siblings.fold.replacements.map (fun r => (r.span.start, r.literal)) =
        [(3, ['"', 'a', '"']), (9, ['"', 'b', '"'])] ∧
      siblings.fold.replacements.Pairwise (fun r r' => r.span.start < r'.span.start) ∧
      Exchanged 0 (siblings.fold.replacements.map (·.toEdit)) siblings.source.text
        siblings.fold.text ∧
      (Text.byteLength siblings.fold.text : Int) =
        Text.byteLength siblings.source.text +
          Edit.growth (siblings.fold.replacements.map (·.toEdit)) := by
  have hnested : siblings.source.Nested := ⟨by decide, by decide⟩
  have hsolid : siblings.source.Solid := by decide
  obtain ⟨_, _, hstrict, hexchanged, hlength, _⟩ := fold_changes_only_folded_values hnested
  exact ⟨hnested, hsolid, replacements_siblings, hstrict hsolid, hexchanged, hlength⟩

end FoldContext

end LiteralFolding
