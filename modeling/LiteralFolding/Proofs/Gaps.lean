-- What minified markup keeps: every character outside comments that is no white space, in its
-- order, and between two of them one space exactly where white space stood, unless they are the
-- end of one tag and the start of the next. Only a comment without an end is refused.
import LiteralFolding.Proofs.Minifying

namespace LiteralFolding

/-! ## The first place of a part -/

namespace Text

variable {part t before after : Text}

/-- `before` and `after` stand around the first place of a part in a text. -/
structure CutFirst (part t before after : Text) : Prop where
  split : t = before ++ part ++ after
  first : ∀ b a, t = b ++ part ++ a → before.length ≤ b.length

theorem CutFirst.isInfix (h : CutFirst part t before after) : part <:+: t :=
  ⟨before, after, h.split.symm⟩

theorem CutFirst.unique {before' after' : Text} (h : CutFirst part t before after)
    (h' : CutFirst part t before' after') : before = before' ∧ after = after' := by
  have hlen : before.length = before'.length :=
    Nat.le_antisymm (h.first _ _ h'.split) (h'.first _ _ h.split)
  have heq := h.split.symm.trans h'.split
  rw [List.append_assoc, List.append_assoc] at heq
  obtain ⟨hbefore, hrest⟩ := List.append_inj heq hlen
  exact ⟨hbefore, List.append_cancel_left hrest⟩

theorem cutFirst_of_cutAt (h : cutAt part t = some (before, after)) :
    CutFirst part t before after := by
  refine ⟨eq_of_cutAt h, ?_⟩
  induction t generalizing before with
  | nil =>
    obtain ⟨rest, _, heq⟩ := Option.map_eq_some_iff.mp h
    obtain ⟨rfl, rfl⟩ := Prod.mk.inj heq
    intro b a _
    exact Nat.zero_le _
  | cons c t ih =>
    intro b a heq
    rw [cutAt] at h
    split at h
    · obtain ⟨rfl, rfl⟩ := Prod.mk.inj (Option.some.inj h)
      exact Nat.zero_le _
    · rename_i hstrip
      obtain ⟨⟨before', after'⟩, hcut, hpair⟩ := Option.map_eq_some_iff.mp h
      obtain ⟨rfl, rfl⟩ := Prod.mk.inj hpair
      cases b with
      | nil => exact absurd ⟨a, heq.symm⟩ (strip?_eq_none_iff.mp hstrip)
      | cons d b =>
        have htail : t = b ++ part ++ a := (List.cons.inj heq).2
        exact Nat.succ_le_succ (ih hcut b a htail)

theorem cutAt_eq_some_iff : cutAt part t = some (before, after) ↔ CutFirst part t before after := by
  constructor
  · exact cutFirst_of_cutAt
  · intro h
    cases hcut : cutAt part t with
    | none => exact absurd h.isInfix (cutAt_eq_none_iff.mp hcut)
    | some found =>
      obtain ⟨rfl, rfl⟩ := h.unique (cutFirst_of_cutAt hcut)
      rfl

end Text

namespace Markup

open Text (CutFirst)

variable {t kept gap before : Text} {a b : Char}

/-! ## The scan for comments -/

/-- The scan from left to right comes to an opening of a comment that has no end after it. -/
inductive Unclosed : Text → Prop
  | here {t before body : Text} :
      CutFirst commentOpen t before body → ¬ commentClose <:+: body → Unclosed t
  | later {t before body inner rest : Text} :
      CutFirst commentOpen t before body → CutFirst commentClose body inner rest →
      Unclosed rest → Unclosed t

/-- The text outside the comments that the scan skips, each from an opening to the first end
after it. -/
inductive Outside : Text → Text → Prop
  | plain {t : Text} : ¬ commentOpen <:+: t → Outside t t
  | comment {t before body inner rest kept : Text} :
      CutFirst commentOpen t before body → CutFirst commentClose body inner rest →
      Outside rest kept → Outside t (before ++ kept)

theorem stripComments?_comment {body inner rest : Text} (hopen : CutFirst commentOpen t before body)
    (hclose : CutFirst commentClose body inner rest) :
    stripComments? t = (stripComments? rest).map (before ++ ·) := by
  have hcut := Text.cutAt_eq_some_iff.mpr hopen
  have hcut' := Text.cutAt_eq_some_iff.mpr hclose
  rw [stripComments?]
  split <;> simp_all
  split <;> simp_all

theorem stripComments?_unclosed {body : Text} (hopen : CutFirst commentOpen t before body)
    (hclose : ¬ commentClose <:+: body) : stripComments? t = none := by
  have hcut := Text.cutAt_eq_some_iff.mpr hopen
  have hcut' := Text.cutAt_eq_none_iff.mpr hclose
  rw [stripComments?]
  split <;> simp_all
  split <;> simp_all

theorem stripComments?_of_unclosed (h : Unclosed t) : stripComments? t = none := by
  induction h with
  | here hopen hclose => exact stripComments?_unclosed hopen hclose
  | later hopen hclose _ ih => rw [stripComments?_comment hopen hclose, ih, Option.map_none]

theorem stripComments?_of_outside (h : Outside t kept) : stripComments? t = some kept := by
  induction h with
  | plain hopen => exact stripComments?_of_no_comment hopen
  | comment hopen hclose _ ih => rw [stripComments?_comment hopen hclose, ih, Option.map_some]

/-- The scan ends: it stops in an open comment, or it leaves the text outside all of them. -/
theorem unclosed_or_outside (t : Text) : Unclosed t ∨ ∃ kept, Outside t kept := by
  induction hn : t.length using Nat.strongRecOn generalizing t with
  | _ n ih =>
    cases hcut : Text.cutAt commentOpen t with
    | none => exact .inr ⟨t, .plain (Text.cutAt_eq_none_iff.mp hcut)⟩
    | some found =>
      obtain ⟨before, body⟩ := found
      have hopen := Text.cutAt_eq_some_iff.mp hcut
      cases hcut' : Text.cutAt commentClose body with
      | none => exact .inl (.here hopen (Text.cutAt_eq_none_iff.mp hcut'))
      | some found =>
        obtain ⟨inner, rest⟩ := found
        have hclose := Text.cutAt_eq_some_iff.mp hcut'
        have hlen : rest.length < n := by
          rw [← hn, hopen.split, hclose.split]
          simp [commentOpen]
          omega
        rcases ih _ hlen rest rfl with hrest | ⟨kept, hrest⟩
        · exact .inl (.later hopen hclose hrest)
        · exact .inr ⟨before ++ kept, .comment hopen hclose hrest⟩

/-! ## Neighbours -/

/-- In a text, `a` and `b` follow each other when white space is not counted. `before` holds the
characters in front of them that are no white space, and `gap` is all that is between them. -/
def Adjacent (t before : Text) (a : Char) (gap : Text) (b : Char) : Prop :=
  ∃ u w, t = u ++ a :: (gap ++ b :: w) ∧ solid u = before ∧ Text.isBlank a = false ∧
    Text.isBlank b = false ∧ ∀ c ∈ gap, Text.isBlank c = true

theorem solid_eq_nil_iff : solid t = [] ↔ ∀ c ∈ t, Text.isBlank c = true := by
  simp [solid, List.filter_eq_nil_iff]

theorem solid_cons_solid {c : Char} (hc : Text.isBlank c = false) (t : Text) :
    solid (c :: t) = c :: solid t := by
  simp [solid, hc]

/-- The first characters that are no white space come after blanks only. -/
theorem exists_append_of_solid_eq_cons {rest : Text} (h : solid t = a :: rest) :
    ∃ g w, t = g ++ a :: w ∧ (∀ c ∈ g, Text.isBlank c = true) ∧ Text.isBlank a = false ∧
      solid w = rest := by
  obtain ⟨g, w, rfl, hg, ha, hw⟩ := List.filter_eq_cons_iff.mp h
  exact ⟨g, w, rfl, by simpa using hg, by simpa using ha, hw⟩

theorem exists_append_of_solid_eq {rest : Text} (h : solid t = before ++ a :: rest) :
    ∃ u w, t = u ++ a :: w ∧ solid u = before ∧ Text.isBlank a = false ∧ solid w = rest := by
  obtain ⟨u, v, rfl, hu, hv⟩ := List.filter_eq_append_iff.mp h
  obtain ⟨g, w, rfl, hg, ha, hw⟩ := exists_append_of_solid_eq_cons hv
  refine ⟨u ++ g, w, (List.append_assoc ..).symm, ?_, ha, hw⟩
  rw [solid_append, solid_eq_nil_iff.mpr hg, List.append_nil]
  exact hu

theorem adjacent_of_solid_eq {rest : Text} (h : solid t = before ++ a :: b :: rest) :
    ∃ gap, Adjacent t before a gap b := by
  obtain ⟨u, w, rfl, hu, ha, hw⟩ := exists_append_of_solid_eq h
  obtain ⟨gap, w, rfl, hgap, hb, _⟩ := exists_append_of_solid_eq_cons hw
  exact ⟨gap, u, w, rfl, hu, ha, hb, hgap⟩

theorem Adjacent.solid_eq (h : Adjacent t before a gap b) :
    ∃ rest, solid t = before ++ a :: b :: rest := by
  obtain ⟨u, w, rfl, rfl, ha, hb, hgap⟩ := h
  refine ⟨solid w, ?_⟩
  rw [solid_append, solid_cons_solid ha, solid_append, solid_eq_nil_iff.mpr hgap,
    solid_cons_solid hb, List.nil_append]

/-- The same characters at the same place have one gap. -/
theorem Adjacent.gap_unique {gap' : Text} (h : Adjacent t before a gap b)
    (h' : Adjacent t before a gap' b) : gap = gap' := by
  obtain ⟨u, w, rfl, hu, ha, hb, hgap⟩ := h
  obtain ⟨u', w', heq, hu', _, _, hgap'⟩ := h'
  -- a longer text in front would hold `a` and so have one more character that is no white space
  have hno : ∀ x y : Text, solid x = solid (x ++ a :: y) → False := by
    intro x y hxy
    rw [solid_append, solid_cons_solid ha] at hxy
    simp at hxy
  have hsame : u = u' ∧ a :: (gap ++ b :: w) = a :: (gap' ++ b :: w') := by
    rcases List.append_eq_append_iff.mp heq with ⟨x, rfl, hx⟩ | ⟨x, rfl, hx⟩
    · cases x with
      | nil => exact ⟨(List.append_nil u).symm, hx⟩
      | cons c x =>
        obtain ⟨rfl, _⟩ := List.cons.inj hx
        exact (hno u x (hu.trans hu'.symm)).elim
    · cases x with
      | nil => exact ⟨List.append_nil u', hx.symm⟩
      | cons c x =>
        obtain ⟨rfl, _⟩ := List.cons.inj hx
        exact (hno u' x (hu'.trans hu.symm)).elim
  have hrest := (List.cons.inj hsame.2).2
  have htake : ∀ g v : Text, (∀ c ∈ g, Text.isBlank c = true) →
      (g ++ b :: v).takeWhile Text.isBlank = g := by
    intro g v hg
    rw [List.takeWhile_append_of_pos hg, List.takeWhile_cons_of_neg (by simp [hb]), List.append_nil]
  rw [← htake gap w hgap, hrest, htake gap' w' hgap']

/-! ## Collapsing -/

/-- What is left of the white space between two characters. -/
def gapBetween (a : Char) (gap : Text) (b : Char) : Text :=
  if gap ≠ [] ∧ ¬ (a = '>' ∧ b = '<') then [' '] else []

theorem space_mem_gapBetween_iff :
    ' ' ∈ gapBetween a gap b ↔ gap ≠ [] ∧ ¬ (a = '>' ∧ b = '<') := by
  unfold gapBetween
  split
  · simp_all
  · simp_all

/-- A text that is collapsed in two parts: the second starts where the first left off. -/
theorem exists_collapseAfter_append (last : Option Char) (g : Bool) (u v : Text) :
    ∃ last' g', collapseAfter last g (u ++ v) =
      collapseAfter last g u ++ collapseAfter last' g' v := by
  induction u generalizing last g with
  | nil => exact ⟨last, g, rfl⟩
  | cons c u ih =>
    by_cases hc : Text.isBlank c = true
    · rw [List.cons_append, collapseAfter_blank hc, collapseAfter_blank hc]
      exact ih last true
    · have hc : Text.isBlank c = false := by simpa using hc
      obtain ⟨last', g', hu⟩ := ih (some c) false
      refine ⟨last', g', ?_⟩
      rw [List.cons_append, collapseAfter_solid hc, collapseAfter_solid hc, hu, List.append_assoc,
        List.cons_append]

theorem collapseAfter_gap (last : Option Char) (g : Bool) (hgap : ∀ c ∈ gap, Text.isBlank c = true)
    (t : Text) : collapseAfter last g (gap ++ t) = collapseAfter last (g || !gap.isEmpty) t := by
  induction gap generalizing g with
  | nil => simp
  | cons c gap ih =>
    rw [List.cons_append, collapseAfter_blank (hgap c (List.mem_cons_self ..)),
      ih true fun x hx => hgap x (List.mem_cons_of_mem _ hx)]
    simp

/-- Neighbours stay neighbours, and of what is between them a space is left or nothing. -/
theorem Adjacent.collapse (h : Adjacent t before a gap b) :
    Adjacent (collapse t) before a (gapBetween a gap b) b := by
  obtain ⟨u, w, rfl, rfl, ha, hb, hgap⟩ := h
  obtain ⟨last, g, hu⟩ := exists_collapseAfter_append none false u (a :: (gap ++ b :: w))
  have hsep : (if (false || !gap.isEmpty) && (some a).isSome && !(some a = some '>' && b = '<')
      then [' '] else []) = gapBetween a gap b := by
    simp [gapBetween, Decidable.imp_iff_not_or]
  rw [Markup.collapse, hu, collapseAfter_solid ha, collapseAfter_gap _ _ hgap,
    collapseAfter_solid hb, hsep, ← List.append_assoc]
  refine ⟨_, collapseAfter (some b) false w, rfl, ?_, ha, hb, ?_⟩
  · rw [solid_append, solid_collapseAfter]
    split
    · simp [solid, isBlank_space]
    · simp [solid]
  · intro c hc
    rw [gapBetween] at hc
    split at hc
    · rw [List.mem_singleton.mp hc, isBlank_space]
    · cases hc

/-- What a text must be to be another one with its white space reduced. -/
structure Reduced (kept out : Text) : Prop where
  solid_eq : solid out = solid kept
  eq_space : ∀ c ∈ out, Text.isBlank c = true → c = ' '
  head_solid : ∀ c, out.head? = some c → Text.isBlank c = false
  last_solid : ∀ c, out.getLast? = some c → Text.isBlank c = false
  spaces_apart : ¬ [' ', ' '] <:+: out
  space_iff : ∀ before a gap b, Adjacent out before a gap b →
    ∃ gap', Adjacent kept before a gap' b ∧
      (' ' ∈ gap ↔ gap' ≠ [] ∧ ¬ (a = '>' ∧ b = '<'))

theorem eq_space_of_mem_collapseAfter (last : Option Char) (g : Bool) {c : Char}
    (h : c ∈ collapseAfter last g t) (hc : Text.isBlank c = true) : c = ' ' := by
  induction t generalizing last g with
  | nil => cases h
  | cons d t ih =>
    by_cases hd : Text.isBlank d = true
    · rw [collapseAfter_blank hd] at h
      exact ih last true h
    · rw [collapseAfter_solid (by simpa using hd)] at h
      rcases List.mem_append.mp h with h | h
      · split at h
        · exact List.mem_singleton.mp h
        · cases h
      · rcases List.mem_cons.mp h with rfl | h
        · exact absurd hc hd
        · exact ih (some d) false h

/-- Nothing written before means no space at the start. -/
theorem isBlank_head_collapseAfter (g : Bool) {c : Char}
    (h : (collapseAfter none g t).head? = some c) : Text.isBlank c = false := by
  induction t generalizing g with
  | nil => cases h
  | cons d t ih =>
    by_cases hd : Text.isBlank d = true
    · rw [collapseAfter_blank hd] at h
      exact ih true h
    · have hd : Text.isBlank d = false := by simpa using hd
      rw [collapseAfter_solid hd] at h
      simp only [Option.isSome_none, Bool.and_false, Bool.false_and, Bool.false_eq_true, if_false,
        List.nil_append, List.head?_cons, Option.some.injEq] at h
      exact h ▸ hd

/-- A space is written together with the character after it, so none comes last. -/
theorem isBlank_last_collapseAfter (last : Option Char) (g : Bool) {c : Char}
    (h : (collapseAfter last g t).getLast? = some c) : Text.isBlank c = false := by
  induction t generalizing last g with
  | nil => cases h
  | cons d t ih =>
    by_cases hd : Text.isBlank d = true
    · rw [collapseAfter_blank hd] at h
      exact ih last true h
    · have hd : Text.isBlank d = false := by simpa using hd
      rw [collapseAfter_solid hd, List.getLast?_append, List.getLast?_cons, Option.some_or,
        Option.some.injEq] at h
      cases hrest : (collapseAfter (some d) false t).getLast? with
      | none =>
        rw [hrest, Option.getD_none] at h
        exact h ▸ hd
      | some e =>
        rw [hrest, Option.getD_some] at h
        exact ih (some d) false (h ▸ hrest)

theorem not_two_spaces_collapseAfter (last : Option Char) (g : Bool) :
    ¬ [' ', ' '] <:+: collapseAfter last g t := by
  induction t generalizing last g with
  | nil => simp [collapseAfter]
  | cons d t ih =>
    by_cases hd : Text.isBlank d = true
    · rw [collapseAfter_blank hd]
      exact ih last true
    · have hd : Text.isBlank d = false := by simpa using hd
      have hspace : ' ' ≠ d := by
        rintro rfl
        rw [isBlank_space] at hd
        cases hd
      rw [collapseAfter_solid hd]
      have hrest : ¬ [' ', ' '] <:+: d :: collapseAfter (some d) false t := by
        rw [List.infix_cons_iff, List.cons_prefix_cons]
        rintro (⟨h, _⟩ | h)
        · exact hspace h
        · exact ih (some d) false h
      split
      · rw [List.singleton_append, List.infix_cons_iff, List.cons_prefix_cons,
          List.cons_prefix_cons]
        rintro (⟨_, h, _⟩ | h)
        · exact hspace h
        · exact hrest h
      · exact hrest

theorem reduced_collapse (t : Text) : Reduced t (collapse t) where
  solid_eq := solid_collapseAfter none false t
  eq_space _ hmem hc := eq_space_of_mem_collapseAfter none false hmem hc
  head_solid _ h := isBlank_head_collapseAfter false h
  last_solid _ h := isBlank_last_collapseAfter none false h
  spaces_apart := not_two_spaces_collapseAfter none false
  space_iff before a gap b h := by
    -- the characters are neighbours in the text too, and collapsing that gap gives this one
    obtain ⟨rest, hsolid⟩ := h.solid_eq
    rw [collapse, solid_collapseAfter] at hsolid
    obtain ⟨gap', h'⟩ := adjacent_of_solid_eq hsolid
    refine ⟨gap', h', ?_⟩
    rw [h.gap_unique h'.collapse, space_mem_gapBetween_iff]

/-! ## Minifying -/

theorem run_minify_of_unclosed (h : Unclosed t) :
    minify.run t = .error (.rejected "unterminated HTML comment".toList) := by
  simp [Transform.run, minify, stripComments?_of_unclosed h]

theorem run_minify_of_outside (h : Outside t kept) : minify.run t = .ok (collapse kept) := by
  simp [Transform.run, minify, stripComments?_of_outside h]

/-- Minifying refuses a text exactly if the scan for comments stops in an open one. Every other
text loses its comments, and what is left has its white space reduced and nothing else. -/
theorem minify_loses_comments_and_blanks_only (t : Text) :
    (minify.run t = .error (.rejected "unterminated HTML comment".toList) ↔ Unclosed t) ∧
      (Unclosed t ∨ ∃ kept out, Outside t kept ∧ minify.run t = .ok out ∧ Reduced kept out) := by
  rcases unclosed_or_outside t with h | ⟨kept, h⟩
  · exact ⟨⟨fun _ => h, run_minify_of_unclosed⟩, .inl h⟩
  · have hrun := run_minify_of_outside h
    refine ⟨⟨?_, run_minify_of_unclosed⟩, .inr ⟨kept, collapse kept, h, hrun, reduced_collapse kept⟩⟩
    intro herror
    cases hrun.symm.trans herror

end Markup

end LiteralFolding
