-- The value of a numeral. A script takes the number nearest to what the numeral spells, rounded
-- once. The canonical text shows that number for every decimal, and for digits of another base
-- exactly if they do not slip.
import LiteralFolding.Proofs.Canonical
import LiteralFolding.Proofs.Numerals

namespace LiteralFolding

/-! ## Digits that are read and digits that are spelled -/

/-- Whatever is made of digits, all characters have to be digits. -/
theorem Text.isSome_foldlM_digits {α : Type} {base : Nat} (f : α → Nat → α) (a : α) (word : Text) :
    (word.foldlM (fun acc c => (digitValue? base c).map (f acc)) a).isSome =
      word.all fun c => (digitValue? base c).isSome := by
  induction word generalizing a with
  | nil => rfl
  | cons c word ih =>
    rw [List.foldlM_cons, List.all_cons]
    cases digitValue? base c with
    | none => rfl
    | some d => exact ih (f a d)

namespace Number

variable {bits n : Nat} {x y : Number} {digits : Text}

/-- Digits in a base are read exactly if they spell a number. -/
theorem readBase?_cases (hbits : bits ≤ 971) (digits : Text) :
    Text.wholeValue? (2 ^ bits) digits = none ∧ readBase? (2 ^ bits) digits = none ∨
      ∃ n x, Text.wholeValue? (2 ^ bits) digits = some n ∧
        readBase? (2 ^ bits) digits = some x ∧ Reads bits n x := by
  cases hvalue : Text.wholeValue? (2 ^ bits) digits with
  | some n =>
    obtain ⟨hne, hspelled⟩ := Text.wholeValue?_eq_some_iff.mp hvalue
    obtain ⟨x, hreads, hfold, -⟩ := reads_of_spelled hbits hspelled
    refine .inr ⟨n, x, rfl, ?_, hreads⟩
    rw [readBase?, if_neg (by simpa using hne)]
    exact hfold
  | none =>
    refine .inl ⟨rfl, ?_⟩
    unfold Text.wholeValue? at hvalue
    unfold readBase?
    split
    · rfl
    · rename_i hne
      rw [if_neg hne, ← Option.isNone_iff_eq_none, ← Option.not_isSome] at hvalue
      rw [← Option.isNone_iff_eq_none, ← Option.not_isSome]
      rwa [Text.isSome_foldlM_digits] at hvalue ⊢

theorem read?_text {negative : Bool} {m : Nat} {e : Int} (hm : m ≠ 0)
    (hx : (Number.finite negative m e).IsFinite) :
    read? (Number.finite negative m e).text = some (.finite negative m e) := by
  rw [text_finite negative hm]
  exact read?_scripted hm hx

/-- A number and the one just below it have different texts. -/
theorem text_ne_of_justBelow (hx : x.IsRead) (hy : y.IsRead) (h : JustBelow x y) :
    x.text ≠ y.text := by
  obtain ⟨m, e, rfl, rfl⟩ := h
  have hx := hx.resolve_right (by rintro ⟨_, hx⟩; cases hx)
  have hy := hy.resolve_right (by rintro ⟨_, hy⟩; cases hy)
  intro heq
  have hread := read?_text m.succ_ne_zero hy
  rw [← heq] at hread
  by_cases hm : m = 0
  · subst hm
    have hzero : read? (Number.finite false 0 e).text = some zero := by
      rw [text, if_pos rfl]
      decide
    rw [hzero] at hread
    cases hread
  · rw [read?_text hm hx] at hread
    simp at hread

/-- Digits in a base show the number nearest to what they spell exactly if they do not slip. -/
theorem text_readBase?_eq_iff (hbits : bits ≤ 971) :
    (readBase? (2 ^ bits) digits).map text =
        ((Text.wholeValue? (2 ^ bits) digits).map ofNat).map text ↔
      ∀ n, Text.Spelled (2 ^ bits) digits n → ¬ Slips bits n := by
  rcases readBase?_cases hbits digits with ⟨hvalue, hread⟩ | ⟨n, x, hvalue, hread, hreads⟩
  · rw [hvalue, hread]
    refine ⟨fun _ n hn => ?_, fun _ => rfl⟩
    -- what is spelled and has no value is nothing at all
    obtain rfl : digits = [] := by
      by_contra hne
      rw [Text.wholeValue?_eq_some_iff.mpr ⟨hne, hn⟩] at hvalue
      cases hvalue
    have hlt : n < 1 := hn.lt_pow
    exact not_slips_of_lt (Nat.lt_of_lt_of_le hlt Nat.one_le_two_pow)
  · obtain ⟨-, hspelled⟩ := Text.wholeValue?_eq_some_iff.mp hvalue
    rw [hvalue, hread, Option.map_some, Option.map_some, Option.map_some, Option.some.injEq]
    rcases hreads.eq_or_justBelow with ⟨hkept, rfl⟩ | ⟨hslips, hbelow⟩
    · refine ⟨fun _ n' hn' => ?_, fun _ => rfl⟩
      rwa [hn'.unique hspelled]
    · have hne := text_ne_of_justBelow (isRead_of_readBase? hread)
        (isRead_ofRatio Nat.one_ne_zero n) hbelow
      exact ⟨fun heq => absurd heq hne, fun h => absurd hslips (h n hspelled)⟩

end Number

/-! ## Numerals -/

namespace Script

/-- The number nearest to what a numeral spells, rounded once: digits of a base as a whole
number, or a decimal. A big integer is no number. -/
def numeralValue? (numeral : Text) : Option Number :=
  let t := Literal.cleaned numeral
  if t.getLast? = some 'n' then none
  else
    match t with
    | '0' :: 'x' :: digits => (Text.wholeValue? 16 digits).map Number.ofNat
    | '0' :: 'o' :: digits => (Text.wholeValue? 8 digits).map Number.ofNat
    | '0' :: 'b' :: digits => (Text.wholeValue? 2 digits).map Number.ofNat
    | _ =>
      if Literal.isLegacyOctal t then (Text.wholeValue? 8 (t.drop 1)).map Number.ofNat
      else Number.read? t

/-- The numeral has digits of another base that slip. -/
def Slipping (numeral : Text) : Prop :=
  ∃ radix digits n, Literal.InBase (Literal.cleaned numeral) radix digits ∧
    Text.Spelled (2 ^ radix.bits) digits n ∧ Number.Slips radix.bits n

end Script

namespace Literal

open Script

variable {t digits numeral : Text} {radix : Radix}

theorem InBase.not_isDecimal (h : InBase t radix digits) : ¬ IsDecimal t := by
  intro hdecimal
  cases h with
  | letter radix digits =>
    refine hdecimal.letter radix.letter ?_ ⟨digits, rfl⟩
    cases radix <;> decide
  | legacy h =>
    rw [hdecimal.octal] at h
    cases h

theorem exists_inBase_or_isDecimal (hlast : t.getLast? ≠ some 'n') :
    (∃ radix digits, InBase t radix digits) ∨ IsDecimal t := by
  by_cases hoctal : isLegacyOctal t
  · exact .inl ⟨_, _, .legacy hoctal⟩
  · by_cases hletter : ∃ radix : Radix, ['0', radix.letter] <+: t
    · obtain ⟨radix, digits, rfl⟩ := hletter
      exact .inl ⟨radix, digits, .letter radix digits⟩
    · refine .inr ⟨hlast, ?_, by simpa using hoctal⟩
      intro c hc hprefix
      simp only [List.mem_cons, List.not_mem_nil, or_false] at hc
      rcases hc with rfl | rfl | rfl
      · exact hletter ⟨.hexadecimal, hprefix⟩
      · exact hletter ⟨.octal, hprefix⟩
      · exact hletter ⟨.binary, hprefix⟩

theorem InBase.unique {radix' : Radix} {digits' : Text} (h : InBase t radix digits)
    (h' : InBase t radix' digits') : radix = radix' ∧ digits = digits' := by
  cases h with
  | letter radix digits =>
    generalize ht : '0' :: radix.letter :: digits = t at h'
    cases h' with
    | letter radix' digits' =>
      simp only [List.cons.injEq, true_and] at ht
      refine ⟨?_, ht.2⟩
      cases radix <;> cases radix' <;> first | rfl | exact absurd ht.1 (by decide)
    | legacy h' =>
      subst ht
      cases radix <;> simp [isLegacyOctal, Radix.letter] at h'
  | legacy h =>
    cases h' with
    | letter radix' digits' => cases radix' <;> simp [isLegacyOctal, Radix.letter] at h
    | legacy h' => exact ⟨rfl, rfl⟩

/-- Digits that spell a number do not end in the mark of a big integer. -/
theorem InBase.getLast?_ne {n : Nat} (h : InBase t radix digits)
    (hspelled : Text.Spelled (2 ^ radix.bits) digits n) : t.getLast? ≠ some 'n' := by
  intro hlast
  have hmem := List.mem_of_getLast? hlast
  have hnot : 'n' ∉ digits := fun hmem => by
    have := hspelled.isSome_hexValue? _ hmem
    revert this
    decide
  cases h with
  | letter radix digits => cases radix <;> simp [Radix.letter, hnot] at hmem
  | legacy h =>
    cases t with
    | nil => cases hmem
    | cons c rest =>
      rcases List.mem_cons.mp hmem with rfl | hmem
      · simp [isLegacyOctal] at h
      · exact hnot hmem

theorem InBase.numeralValue?_eq (h : InBase (cleaned numeral) radix digits)
    (hlast : (cleaned numeral).getLast? ≠ some 'n') :
    numeralValue? numeral = (Text.wholeValue? (2 ^ radix.bits) digits).map Number.ofNat := by
  unfold numeralValue?
  generalize cleaned numeral = t at h hlast
  dsimp only
  rw [if_neg hlast]
  cases h with
  | letter radix digits => cases radix <;> rfl
  | legacy h =>
    split
    · simp [isLegacyOctal] at h
    · simp [isLegacyOctal] at h
    · simp [isLegacyOctal] at h
    · exact if_pos h

theorem IsDecimal.numeralValue?_eq (h : IsDecimal (cleaned numeral)) :
    numeralValue? numeral = Number.read? (cleaned numeral) := by
  unfold numeralValue?
  generalize cleaned numeral = t at h
  dsimp only
  rw [if_neg h.last]
  split
  · exact absurd ⟨_, rfl⟩ (h.letter 'x' (by decide))
  · exact absurd ⟨_, rfl⟩ (h.letter 'o' (by decide))
  · exact absurd ⟨_, rfl⟩ (h.letter 'b' (by decide))
  · rw [h.octal, if_neg Bool.false_ne_true]

theorem isRead_of_numeralValue? {x : Number} (h : numeralValue? numeral = some x) : x.IsRead := by
  have hlast : (cleaned numeral).getLast? ≠ some 'n' := by
    intro hlast
    rw [numeralValue?, if_pos hlast] at h
    cases h
  rcases exists_inBase_or_isDecimal hlast with ⟨radix, digits, hbase⟩ | hdecimal
  · rw [hbase.numeralValue?_eq hlast, Option.map_eq_some_iff] at h
    obtain ⟨n, -, rfl⟩ := h
    exact Number.isRead_ofRatio Nat.one_ne_zero n
  · rw [hdecimal.numeralValue?_eq] at h
    exact Number.isRead_of_read? (Text.lowerAscii_lowerAscii _) hlast h

/-- The canonical text of a numeral shows its value exactly if the numeral does not slip. -/
theorem canonicalNumber?_eq_iff (numeral : Text) :
    canonicalNumber? numeral = (numeralValue? numeral).map Number.text ↔ ¬ Slipping numeral := by
  by_cases hlast : (cleaned numeral).getLast? = some 'n'
  · have hnumber : numberOf? (cleaned numeral) = none := if_pos hlast
    have hvalue : numeralValue? numeral = none := if_pos hlast
    rw [canonicalNumber?, hnumber, hvalue]
    refine ⟨?_, fun _ => rfl⟩
    rintro - ⟨radix, digits, n, hbase, hspelled, -⟩
    exact hbase.getLast?_ne hspelled hlast
  · rcases exists_inBase_or_isDecimal hlast with ⟨radix, digits, hbase⟩ | hdecimal
    · have hbits : radix.bits ≤ 971 := by cases radix <;> decide
      rw [canonicalNumber?, hbase.numberOf?_eq hlast, hbase.numeralValue?_eq hlast,
        Number.text_readBase?_eq_iff hbits]
      constructor
      · rintro h ⟨radix', digits', n, hbase', hspelled, hslips⟩
        obtain ⟨rfl, rfl⟩ := hbase.unique hbase'
        exact h n hspelled hslips
      · intro h n hspelled hslips
        exact h ⟨radix, digits, n, hbase, hspelled, hslips⟩
    · rw [canonicalNumber?, hdecimal.numberOf?_eq, hdecimal.numeralValue?_eq]
      refine ⟨?_, fun _ => rfl⟩
      rintro - ⟨radix, digits, n, hbase, -⟩
      exact hbase.not_isDecimal hdecimal

end Literal

end LiteralFolding
