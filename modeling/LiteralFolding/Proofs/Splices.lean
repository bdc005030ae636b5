-- Splices between two bytes of a text: what edits in order make of that stretch, how long it
-- gets, and that stretches next to each other can be spliced on their own.
import LiteralFolding.Replacement
import LiteralFolding.Proofs.Slices

namespace LiteralFolding

/-- From byte `a` to byte `b` of a text the edits follow each other, and they make `u` of that
stretch. -/
inductive Spliced (t : Text) : Nat → Nat → List Edit → Text → Prop
  | nil {a b : Nat} {u : Text} : Text.slice t a b = some u → Spliced t a b [] u
  | cons {a b : Nat} {e : Edit} {es : List Edit} {u v : Text} :
      Text.slice t a e.span.start = some u → e.span.start ≤ e.span.stop →
      Spliced t e.span.stop b es v → Spliced t a b (e :: es) (u ++ e.literal ++ v)

/-- By how many bytes edits make a text longer. -/
def Edit.growth : List Edit → Int
  | [] => 0
  | e :: es => Text.byteLength e.literal - (e.span.stop - e.span.start) + growth es

@[simp] theorem Edit.growth_nil : growth [] = 0 := rfl

theorem Edit.growth_append (es fs : List Edit) : growth (es ++ fs) = growth es + growth fs := by
  induction es with
  | nil => simp
  | cons e es ih =>
    rw [List.cons_append, growth, growth, ih]
    omega

namespace Spliced

variable {t u v : Text} {a b c : Nat} {es fs : List Edit}

theorem byteLength (h : Spliced t a b es u) :
    (Text.byteLength u : Int) = b - a + Edit.growth es := by
  induction h with
  | nil hslice =>
    have := Text.byteLength_of_slice hslice
    rw [Edit.growth_nil]
    omega
  | cons hslice _ _ ih =>
    have := Text.byteLength_of_slice hslice
    rw [Edit.growth, Text.byteLength_append, Text.byteLength_append]
    omega

/-- Edits make one text of a stretch. -/
theorem unique (h : Spliced t a b es u) (h' : Spliced t a b es v) : u = v := by
  induction h generalizing v with
  | nil hslice =>
    cases h' with
    | nil hslice' => exact Option.some.inj (hslice.symm.trans hslice')
  | cons hslice _ _ ih =>
    cases h' with
    | cons hslice' _ hrest =>
      obtain rfl := Option.some.inj (hslice.symm.trans hslice')
      rw [ih hrest]

/-- An edit makes its literal of the stretch it covers. -/
theorem eq_literal {e : Edit} (h : Spliced t e.span.start e.span.stop [e] u) : u = e.literal := by
  cases h with
  | cons hfront _ hrest =>
    cases hrest with
    | nil hback =>
      have hf := Text.byteLength_of_slice hfront
      have hb := Text.byteLength_of_slice hback
      rw [Text.eq_nil_of_byteLength (Nat.add_left_cancel hf),
        Text.eq_nil_of_byteLength (Nat.add_left_cancel hb)]
      simp

/-- Text before a stretch is kept. -/
theorem prepend (hu : Text.slice t a b = some u) (hv : Spliced t b c es v) :
    Spliced t a c es (u ++ v) := by
  cases hv with
  | nil hslice => exact .nil (Text.slice_join hu hslice)
  | cons hslice hle hrest =>
    rw [← List.append_assoc, ← List.append_assoc]
    exact .cons (Text.slice_join hu hslice) hle hrest

/-- Stretches next to each other are spliced each on its own. -/
theorem append (hu : Spliced t a b es u) (hv : Spliced t b c fs v) :
    Spliced t a c (es ++ fs) (u ++ v) := by
  induction hu with
  | nil hslice => exact prepend hslice hv
  | cons hslice hle _ ih =>
    rw [List.append_assoc]
    exact .cons hslice hle (ih hv)

theorem start_le (h : Spliced t a b es u) : ∀ e ∈ es, a ≤ e.span.start := by
  induction h with
  | nil => simp
  | cons hslice hle _ ih =>
    have := Text.le_of_slice hslice
    intro e he
    rcases List.mem_cons.mp he with rfl | he
    · exact this
    · have := ih e he
      omega

theorem pairwise (h : Spliced t a b es u) : es.Pairwise (·.span.start ≤ ·.span.start) := by
  induction h with
  | nil => exact List.Pairwise.nil
  | cons _ hle hrest ih =>
    refine List.pairwise_cons.mpr ⟨fun e he => ?_, ih⟩
    have := hrest.start_le e he
    omega

theorem spliceFrom_eq (h : Spliced t a b es u) (hb : b = Text.byteLength t) :
    Edit.spliceFrom t a es = u := by
  induction h with
  | nil hslice =>
    obtain ⟨front, back, rfl, rfl, hlen⟩ := Text.slice_eq_some_iff.mp hslice
    obtain rfl : back = [] := by
      apply Text.eq_nil_of_byteLength
      simp only [Text.byteLength_append] at hb
      omega
    rw [Edit.spliceFrom, List.append_nil, Text.dropBytes_append, Option.getD_some]
  | cons hslice _ _ ih =>
    rw [Edit.spliceFrom, hslice]
    dsimp only
    rw [ih hb]

/-- Edits in order are applied as they stand. -/
theorem splice_eq (h : Spliced t 0 (Text.byteLength t) es u) : Edit.splice t es = u := by
  have hsorted : Edit.sorted es = es :=
    List.mergeSort_of_pairwise (h.pairwise.imp fun hab => decide_eq_true hab)
  rw [Edit.splice, hsorted, h.spliceFrom_eq rfl]

end Spliced

end LiteralFolding
