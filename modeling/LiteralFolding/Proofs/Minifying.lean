-- Minified markup: what a second pass does to a text that was minified once. White space is
-- reduced for good, but where a comment stood between two pieces of text these now meet, and
-- together they may open a comment that was not there before.
import LiteralFolding.Transform

namespace LiteralFolding

/-! ## Where a part stands -/

namespace Text

variable {part t : Text}

theorem strip?_eq_none_iff : strip? part t = none ↔ ¬ part <+: t := by
  rw [Option.eq_none_iff_forall_ne_some]
  constructor
  · rintro h ⟨rest, rfl⟩
    exact h rest (strip?_eq_some_iff.mpr rfl)
  · intro h rest hrest
    exact h ⟨rest, (strip?_eq_some_iff.mp hrest).symm⟩

/-- A text can be cut at a part unless the part stands nowhere in it. -/
theorem cutAt_eq_none_iff : cutAt part t = none ↔ ¬ part <:+: t := by
  induction t with
  | nil =>
    rw [cutAt, Option.map_eq_none_iff, strip?_eq_none_iff, List.prefix_nil, List.infix_nil]
  | cons c t ih =>
    rw [List.infix_cons_iff, not_or, ← strip?_eq_none_iff, ← ih, cutAt]
    cases strip? part (c :: t) with
    | none => simp
    | some rest => simp

end Text

namespace Markup

variable {t kept out : Text} {last : Option Char} {gap : Bool}

/-! ## White space -/

/-- The characters of a text that are no white space. -/
def solid (t : Text) : Text := t.filter (!Text.isBlank ·)

theorem solid_append (t u : Text) : solid (t ++ u) = solid t ++ solid u := List.filter_append ..

theorem isBlank_space : Text.isBlank ' ' = true := by decide

theorem collapseAfter_blank {c : Char} (hc : Text.isBlank c = true) :
    collapseAfter last gap (c :: t) = collapseAfter last true t := by
  rw [collapseAfter, if_pos hc]

/-- What is written for a character that is no white space, and whether a space comes first. -/
theorem collapseAfter_solid {c : Char} (hc : Text.isBlank c = false) :
    collapseAfter last gap (c :: t) =
      (if gap && last.isSome && !(last = some '>' && c = '<') then [' '] else []) ++
        c :: collapseAfter (some c) false t := by
  rw [collapseAfter, hc]
  split
  · simp_all
  · split <;> simp_all

/-- Collapsing takes away white space only. -/
theorem solid_collapseAfter (last : Option Char) (gap : Bool) (t : Text) :
    solid (collapseAfter last gap t) = solid t := by
  induction t generalizing last gap with
  | nil => rfl
  | cons c t ih =>
    by_cases hc : Text.isBlank c = true
    · rw [collapseAfter_blank hc, ih]
      simp [solid, hc]
    · have hc : Text.isBlank c = false := by simpa using hc
      rw [collapseAfter_solid hc, solid_append]
      have hspace : ∀ b : Bool, solid (if b then [' '] else []) = [] := by
        intro b
        cases b <;> decide
      rw [hspace]
      simpa [solid, hc] using ih (some c) false

/-- A text that was collapsed stays as it is. -/
theorem collapseAfter_again (last : Option Char) (gap : Bool) (t : Text) :
    collapseAfter last false (collapseAfter last gap t) = collapseAfter last gap t := by
  induction t generalizing last gap with
  | nil => rfl
  | cons c t ih =>
    by_cases hc : Text.isBlank c = true
    · rw [collapseAfter_blank hc]
      exact ih last true
    · have hc : Text.isBlank c = false := by simpa using hc
      rw [collapseAfter_solid hc]
      split
      · rename_i hsep
        -- the space that was written stands for a gap again, between the same two characters
        have hgap : (true && last.isSome && !(last = some '>' && c = '<')) = true := by
          simp_all
        rw [List.singleton_append, collapseAfter_blank isBlank_space, collapseAfter_solid hc,
          if_pos hgap, ih, List.singleton_append]
      · rw [List.nil_append, collapseAfter_solid hc, ih]
        simp

theorem collapse_collapse (t : Text) : collapse (collapse t) = collapse t :=
  collapseAfter_again none false t

/-! ## Openings of comments under collapsing -/

/-- An opening is kept as it is, whatever stands around it. -/
theorem commentOpen_infix_collapseAfter (last : Option Char) (gap : Bool)
    (h : commentOpen <:+: t) : commentOpen <:+: collapseAfter last gap t := by
  obtain ⟨before, after, rfl⟩ := h
  induction before generalizing last gap with
  | nil =>
    have h₁ : Text.isBlank '<' = false := by decide
    have h₂ : Text.isBlank '!' = false := by decide
    have h₃ : Text.isBlank '-' = false := by decide
    simp only [commentOpen, List.nil_append, List.cons_append, collapseAfter_solid h₁,
      collapseAfter_solid h₂, collapseAfter_solid h₃, Bool.false_and, Bool.false_eq_true, if_false]
    exact ⟨_, _, List.append_assoc ..⟩
  | cons c before ih =>
    rw [List.cons_append, List.cons_append]
    by_cases hc : Text.isBlank c = true
    · rw [collapseAfter_blank hc]
      exact ih last true
    · rw [collapseAfter_solid (by simpa using hc)]
      exact ((ih (some c) false).trans (List.suffix_cons c _).isInfix).trans
        (List.suffix_append _ _).isInfix

/-- After a gap the next character is not written at once, unless `<` follows `>`. -/
theorem head?_collapseAfter_gap {l : Char} (hl : l ≠ '>') :
    (collapseAfter (some l) true t).head? = none ∨
      (collapseAfter (some l) true t).head? = some ' ' := by
  induction t with
  | nil => exact .inl rfl
  | cons c t ih =>
    by_cases hc : Text.isBlank c = true
    · rw [collapseAfter_blank hc]
      exact ih
    · rw [collapseAfter_solid (by simpa using hc)]
      simp [hl]

theorem plain_commentOpen : ∀ c ∈ commentOpen, Text.isBlank c = false ∧ c ≠ '>' := by
  intro c hc
  simp only [commentOpen, List.mem_cons, List.not_mem_nil, or_false] at hc
  rcases hc with rfl | rfl | rfl | rfl
  all_goals decide

/-- What follows a written character without a space followed it before. -/
theorem prefix_of_prefix_collapseAfter {word : Text} {l : Char}
    (hword : ∀ c ∈ word, Text.isBlank c = false) (hl : ∀ c ∈ l :: word, c ≠ '>')
    (h : word <+: collapseAfter (some l) false t) : word <+: t := by
  induction word generalizing l t with
  | nil => exact List.nil_prefix
  | cons w word ih =>
    cases t with
    | nil => exact h
    | cons c t =>
      by_cases hc : Text.isBlank c = true
      · rw [collapseAfter_blank hc] at h
        have hw := hword w (List.mem_cons_self ..)
        have hhead : (collapseAfter (some l) true t).head? = some w := by
          obtain ⟨rest, hrest⟩ := h
          rw [← hrest]
          rfl
        rcases head?_collapseAfter_gap (t := t) (hl l (List.mem_cons_self ..)) with hg | hg
        · rw [hg] at hhead
          cases hhead
        · rw [hg] at hhead
          obtain rfl := Option.some.inj hhead
          rw [isBlank_space] at hw
          cases hw
      · rw [collapseAfter_solid (by simpa using hc)] at h
        simp only [Bool.false_and, Bool.false_eq_true, if_false, List.nil_append,
          List.cons_prefix_cons] at h ⊢
        obtain ⟨rfl, h⟩ := h
        refine ⟨rfl, ih (fun x hx => hword x (List.mem_cons_of_mem _ hx)) ?_ h⟩
        intro x hx
        exact hl x (List.mem_cons_of_mem _ hx)

/-- Collapsing makes no opening of a comment. -/
theorem commentOpen_infix_of_collapseAfter (last : Option Char) (gap : Bool)
    (h : commentOpen <:+: collapseAfter last gap t) : commentOpen <:+: t := by
  induction t generalizing last gap with
  | nil => exact h
  | cons c t ih =>
    by_cases hc : Text.isBlank c = true
    · rw [collapseAfter_blank hc] at h
      exact List.infix_cons_iff.mpr (.inr (ih last true h))
    · rw [collapseAfter_solid (by simpa using hc)] at h
      have h : commentOpen <:+: c :: collapseAfter (some c) false t := by
        split at h
        · rw [List.singleton_append, List.infix_cons_iff] at h
          rcases h with h | h
          · simp [commentOpen] at h
          · exact h
        · exact h
      rcases List.infix_cons_iff.mp h with h | h
      · rw [commentOpen, List.cons_prefix_cons] at h
        obtain ⟨rfl, h⟩ := h
        have hrest := prefix_of_prefix_collapseAfter
          (fun c hc => (plain_commentOpen c (List.mem_cons_of_mem _ hc)).1)
          (fun c hc => (plain_commentOpen c hc).2) h
        exact List.infix_cons_iff.mpr (.inl (List.cons_prefix_cons.mpr ⟨rfl, hrest⟩))
      · exact List.infix_cons_iff.mpr (.inr (ih (some c) false h))

theorem commentOpen_infix_collapse_iff : commentOpen <:+: collapse t ↔ commentOpen <:+: t :=
  ⟨commentOpen_infix_of_collapseAfter none false, commentOpen_infix_collapseAfter none false⟩

/-! ## Comments -/

theorem stripComments?_of_no_comment (h : ¬ commentOpen <:+: t) : stripComments? t = some t := by
  have hcut := Text.cutAt_eq_none_iff.mpr h
  rw [stripComments?]
  split
  · rfl
  · simp_all

theorem exists_comment_of_stripComments? (h : stripComments? t = some kept)
    (hopen : commentOpen <:+: t) :
    ∃ before inner rest kept', t = before ++ commentOpen ++ (inner ++ commentClose ++ rest) ∧
      stripComments? rest = some kept' ∧ kept = before ++ kept' := by
  rw [stripComments?] at h
  split at h
  · rename_i hcut
    exact absurd hopen (Text.cutAt_eq_none_iff.mp hcut)
  · rename_i before body hcut
    split at h
    · cases h
    · rename_i inner rest hclose
      obtain ⟨kept', hkept, rfl⟩ := Option.map_eq_some_iff.mp h
      have ht := Text.eq_of_cutAt hcut
      rw [Text.eq_of_cutAt hclose] at ht
      exact ⟨before, inner, rest, kept', ht, hkept, rfl⟩

/-- Nothing is added when comments are taken out. -/
theorem length_solid_stripComments?_le (h : stripComments? t = some kept) :
    (solid kept).length ≤ (solid t).length := by
  induction hn : t.length using Nat.strongRecOn generalizing t kept with
  | _ n ih =>
    by_cases hopen : commentOpen <:+: t
    · obtain ⟨before, inner, rest, kept', rfl, hrest, rfl⟩ :=
        exists_comment_of_stripComments? h hopen
      have hlen : rest.length < n := by
        rw [← hn]
        simp [commentOpen]
        omega
      have := ih _ hlen hrest rfl
      simp only [solid_append, List.length_append]
      omega
    · rw [stripComments?_of_no_comment hopen] at h
      cases h
      exact Nat.le_refl _

/-- Taking out a comment takes out its marks. -/
theorem length_solid_stripComments?_lt (h : stripComments? t = some kept)
    (hopen : commentOpen <:+: t) : (solid kept).length < (solid t).length := by
  obtain ⟨before, inner, rest, kept', rfl, hrest, rfl⟩ := exists_comment_of_stripComments? h hopen
  have hle := length_solid_stripComments?_le hrest
  have hmark : (solid commentOpen).length = 4 := by decide
  simp only [solid_append, List.length_append]
  omega

/-! ## A second pass -/

theorem minify_eq_done_iff :
    minify t = .done out ↔ ∃ kept, stripComments? t = some kept ∧ out = collapse kept := by
  unfold minify
  cases stripComments? t with
  | none => simp
  | some kept => simp [eq_comm]

/-- A text without comments that was collapsed before is minified. -/
theorem minify_of_no_comment (h : ¬ commentOpen <:+: t) (hcollapse : collapse t = t) :
    minify t = .done t :=
  minify_eq_done_iff.mpr ⟨t, stripComments?_of_no_comment h, hcollapse.symm⟩

/-- No text with an opening of a comment is left as it is. -/
theorem minify_ne_of_comment (h : commentOpen <:+: t) : minify t ≠ .done t := by
  intro hdone
  obtain ⟨kept, hkept, ht⟩ := minify_eq_done_iff.mp hdone
  have hlt := length_solid_stripComments?_lt hkept h
  have hsolid : solid t = solid kept := by
    rw [ht]
    exact solid_collapseAfter none false kept
  rw [hsolid] at hlt
  exact Nat.lt_irrefl _ hlt

/-- A minified text is left as it is by a second pass exactly if the pieces around its comments
did not open a comment when they met. -/
theorem minify_again_iff (h : minify t = .done out) :
    ∃ kept, stripComments? t = some kept ∧
      (minify out = .done out ↔ ¬ commentOpen <:+: kept) := by
  obtain ⟨kept, hkept, rfl⟩ := minify_eq_done_iff.mp h
  refine ⟨kept, hkept, ?_⟩
  rw [← commentOpen_infix_collapse_iff]
  constructor
  · intro hagain hopen
    exact minify_ne_of_comment hopen hagain
  · intro hopen
    exact minify_of_no_comment hopen (collapse_collapse kept)

/-- `<p> a <!--x--> b` is minified to `<p> a b`, and that is all. -/
theorem minify_again_note :
    minify "<p> a <!--x--> b".toList = .done "<p> a b".toList ∧
      ∃ kept, stripComments? "<p> a <!--x--> b".toList = some kept ∧
        (minify "<p> a b".toList = .done "<p> a b".toList ↔ ¬ commentOpen <:+: kept) := by
  have h : minify "<p> a <!--x--> b".toList = .done "<p> a b".toList := by decide +kernel
  exact ⟨h, minify_again_iff h⟩

/-- What is around the comment of `<!<!--a-->--b-->` is a comment once that is gone, and a second
pass takes it out too. -/
theorem minify_joins_comment :
    minify "<!<!--a-->--b-->".toList = .done "<!--b-->".toList ∧
      minify "<!--b-->".toList = .done [] := by
  decide +kernel

end Markup

end LiteralFolding
