-- Edits in any order that may overlap. They are taken by where they start; one that starts inside
-- an edit already made is left out, and the others are all made. So the order in which edits are
-- given matters only between two that start at the same byte.
import LiteralFolding.Proofs.Exchange
import Mathlib.Data.List.Nodup

namespace LiteralFolding.Edit

variable {t : Text} {edits ordered kept : List Edit} {a : Nat}

/-- The edit is of a stretch of the text that starts and stops between characters. -/
structure Fits (t : Text) (e : Edit) : Prop where
  le : e.span.start ≤ e.span.stop
  start : Text.isBoundary t e.span.start
  stop : Text.isBoundary t e.span.stop

instance (t : Text) (e : Edit) : Decidable (e.Fits t) :=
  decidable_of_iff
    (e.span.start ≤ e.span.stop ∧ Text.isBoundary t e.span.start ∧ Text.isBoundary t e.span.stop)
    ⟨fun h => ⟨h.1, h.2.1, h.2.2⟩, fun h => ⟨h.le, h.start, h.stop⟩⟩

/-- The same edits by their starts. Those with one start keep the order they had. -/
structure Ordered (edits ordered : List Edit) : Prop where
  perm : ordered.Perm edits
  sorted : ordered.Pairwise (·.span.start ≤ ·.span.start)
  stable : ∀ start, ordered.filter (·.span.start = start) = edits.filter (·.span.start = start)

/-- Which of the edits are kept, when the last one kept ends at byte `a`: each that does not start
before the end of the one kept before it. -/
inductive Kept : Nat → List Edit → List Edit → Prop
  | nil (a : Nat) : Kept a [] []
  | keep {a : Nat} {e : Edit} {rest kept : List Edit} :
      a ≤ e.span.start → Kept e.span.stop rest kept → Kept a (e :: rest) (e :: kept)
  | drop {a : Nat} {e : Edit} {rest kept : List Edit} :
      e.span.start < a → Kept a rest kept → Kept a (e :: rest) kept

/-! ## The order -/

theorem start_le_trans (e f g : Edit) (hef : decide (e.span.start ≤ f.span.start) = true)
    (hfg : decide (f.span.start ≤ g.span.start) = true) :
    decide (e.span.start ≤ g.span.start) = true :=
  decide_eq_true (Nat.le_trans (of_decide_eq_true hef) (of_decide_eq_true hfg))

theorem start_le_total (e f : Edit) :
    (decide (e.span.start ≤ f.span.start) || decide (f.span.start ≤ e.span.start)) = true := by
  simp only [Bool.or_eq_true, decide_eq_true_eq]
  omega

theorem sorted_perm (edits : List Edit) : (sorted edits).Perm edits := List.mergeSort_perm _ _

theorem sorted_pairwise (edits : List Edit) :
    (sorted edits).Pairwise (·.span.start ≤ ·.span.start) :=
  (List.pairwise_mergeSort start_le_trans start_le_total edits).imp of_decide_eq_true

/-- Edits that start at one byte stand in order, so sorting leaves them as they are. -/
theorem filter_sorted (edits : List Edit) (start : Nat) :
    (sorted edits).filter (·.span.start = start) = edits.filter (·.span.start = start) := by
  have hsame : (edits.filter (·.span.start = start)).Pairwise
      fun e f => decide (e.span.start ≤ f.span.start) = true := by
    apply List.pairwise_of_forall_mem_list
    intro e he f hf
    have he := of_decide_eq_true (List.mem_filter.mp he).2
    have hf := of_decide_eq_true (List.mem_filter.mp hf).2
    exact decide_eq_true (by omega)
  have hsub : (edits.filter (·.span.start = start)).Sublist (sorted edits) :=
    List.sublist_mergeSort start_le_trans start_le_total hsame List.filter_sublist
  have hwithin := hsub.filter (·.span.start = start)
  simp only [List.filter_filter, Bool.and_self] at hwithin
  have hlength := ((sorted_perm edits).filter (·.span.start = start)).length_eq
  exact (hwithin.eq_of_length hlength.symm).symm

theorem ordered_sorted (edits : List Edit) : Ordered edits (sorted edits) where
  perm := sorted_perm edits
  sorted := sorted_pairwise edits
  stable := filter_sorted edits

/-- Edits that all start at different bytes have one order. -/
theorem sorted_eq_of_perm {edits' : List Edit} (hperm : edits'.Perm edits)
    (hstarts : (edits.map (·.span.start)).Nodup) : sorted edits' = sorted edits := by
  have hsame := (sorted_perm edits').trans hperm
  refine List.Perm.eq_of_pairwise ?_ (sorted_pairwise edits') (sorted_pairwise edits)
    (hsame.trans (sorted_perm edits).symm)
  intro e f he hf hef hfe
  have he := hsame.mem_iff.mp he
  have hf := (sorted_perm edits).mem_iff.mp hf
  exact List.inj_on_of_nodup_map hstarts he hf (Nat.le_antisymm hef hfe)

/-! ## The splice -/

/-- The splice goes on after an edit exactly when the edit does not start before the cursor. -/
theorem exists_spliced_of_fits (ha : Text.isBoundary t a) (h : ∀ e ∈ edits, e.Fits t) :
    ∃ kept, Kept a edits kept ∧
      Spliced t a (Text.byteLength t) kept (spliceFrom t a edits) := by
  induction edits generalizing a with
  | nil =>
    have hend : Text.isBoundary t (Text.byteLength t) := Text.isBoundary_stop (Text.slice_all t)
    obtain ⟨u, hu⟩ := Text.exists_slice ha hend (Text.le_byteLength_of_isBoundary ha)
    refine ⟨[], .nil a, ?_⟩
    have hspliced := Spliced.nil hu
    rwa [hspliced.spliceFrom_eq rfl]
  | cons e rest ih =>
    have he := h e (List.mem_cons_self ..)
    have hrest : ∀ f ∈ rest, f.Fits t := fun f hf => h f (List.mem_cons_of_mem _ hf)
    by_cases hle : a ≤ e.span.start
    · obtain ⟨gap, hgap⟩ := Text.exists_slice ha he.start hle
      obtain ⟨kept, hkept, hspliced⟩ := ih he.stop hrest
      refine ⟨e :: kept, .keep hle hkept, ?_⟩
      rw [spliceFrom, hgap]
      exact .cons hgap he.le hspliced
    · obtain ⟨kept, hkept, hspliced⟩ := ih ha hrest
      refine ⟨kept, .drop (Nat.not_le.mp hle) hkept, ?_⟩
      rwa [spliceFrom, Text.slice, if_neg hle]

/-- Edits of stretches of a text are applied by their starts, one start in the order given. Each
is made unless it starts before the end of the last one made; then it is left out. What the edits
made cover is exchanged for their literals, and all other text is kept, once and in its order.
Edits that start at different bytes may be given in any order. -/
theorem splice_drops_overlapping (h : ∀ e ∈ edits, e.Fits t) :
    (∃ ordered kept, Ordered edits ordered ∧ Kept 0 ordered kept ∧
      Exchanged 0 kept t (splice t edits)) ∧
    ∀ edits' : List Edit, edits'.Perm edits → (edits.map (·.span.start)).Nodup →
      splice t edits' = splice t edits := by
  constructor
  · have hordered := ordered_sorted edits
    have hfits : ∀ e ∈ sorted edits, e.Fits t := fun e he => h e ((sorted_perm edits).mem_iff.mp he)
    have hstart : Text.isBoundary t 0 := Text.isBoundary_start (Text.slice_all t)
    obtain ⟨kept, hkept, hspliced⟩ := exists_spliced_of_fits hstart hfits
    obtain ⟨v, hv, hexchanged⟩ := hspliced.exchanged
    obtain rfl := Option.some.inj ((Text.slice_all t).symm.trans hv)
    exact ⟨sorted edits, kept, hordered, hkept, hexchanged⟩
  · intro edits' hperm hstarts
    rw [splice, splice, sorted_eq_of_perm hperm hstarts]

/-- Three edits, the first of which starts inside the second. -/
def crossing : List Edit :=
  [⟨⟨3, 5⟩, ['B']⟩, ⟨⟨1, 4⟩, ['A']⟩, ⟨⟨4, 4⟩, ['D']⟩]

/-- The edit that starts inside another is left out, the empty one right behind it is made, and
given the other way round they make the same text. -/
theorem splice_crossing :
    (∀ e ∈ crossing, e.Fits "xéyz".toList) ∧
      (∃ ordered kept, Ordered crossing ordered ∧ Kept 0 ordered kept ∧
        Exchanged 0 kept "xéyz".toList "xADz".toList) ∧
      splice "xéyz".toList crossing.reverse = "xADz".toList := by
  have hfits : ∀ e ∈ crossing, e.Fits "xéyz".toList := by decide
  have hsorted : sorted crossing = [⟨⟨1, 4⟩, ['A']⟩, ⟨⟨3, 5⟩, ['B']⟩, ⟨⟨4, 4⟩, ['D']⟩] := by
    rw [crossing, sorted_eq_of_perm (List.Perm.swap ..) (by decide)]
    exact List.mergeSort_of_pairwise (by decide)
  have htext : splice "xéyz".toList crossing = "xADz".toList := by
    rw [splice, hsorted]
    decide
  obtain ⟨hmade, hany⟩ := splice_drops_overlapping hfits
  rw [htext] at hmade hany
  exact ⟨hfits, hmade, hany _ (List.reverse_perm _) (by decide)⟩

end LiteralFolding.Edit
