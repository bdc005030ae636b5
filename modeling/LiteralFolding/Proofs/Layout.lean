-- How the digits of a decimal are laid out as a numeral. The place of the point alone picks one of four
-- layouts, each gives a numeral of the same value, and from the text alone the layout can be told.
import LiteralFolding.Number.Written
import LiteralFolding.Proofs.Shortest

namespace LiteralFolding

/-! ## Numerals -/

namespace Text

variable {c : Char} {word word' rest rest' t : Text} {n : Nat} {v w : ℚ} {p q : Int}

/-- The exponent of a numeral: nothing, or `e`, a sign and digits. -/
inductive Power : Text → Int → Prop
  | none : Power [] 0
  | plus {word : Text} {n : Nat} : word ≠ [] → Spelled 10 word n → Power ('e' :: '+' :: word) n
  | minus {word : Text} {n : Nat} : word ≠ [] → Spelled 10 word n → Power ('e' :: '-' :: word) (-n)

/-- A decimal numeral and its exact value: digits, digits after a point if there is one, and an
exponent if there is one. -/
inductive Numeral : Text → ℚ → Prop
  | whole {word power : Text} {n : Nat} {p : Int} : word ≠ [] → Spelled 10 word n → Power power p →
      Numeral (word ++ power) (n * 10 ^ p)
  | fraction {word more power : Text} {n : Nat} {p : Int} : word ≠ [] → more ≠ [] →
      Spelled 10 (word ++ more) n → Power power p →
      Numeral (word ++ '.' :: (more ++ power)) (n * 10 ^ (p - more.length))

theorem isSome_digitValue?_iff : (digitValue? 10 c).isSome ↔ c.isDigit := by
  constructor
  · intro h
    obtain ⟨d, hd⟩ := Option.isSome_iff_exists.mp h
    obtain ⟨hvalue, hlt⟩ := digitValue?_eq_some_iff.mp hd
    rw [isDigit_iff]
    by_contra hletter
    unfold hexValue? at hvalue
    rw [if_neg hletter] at hvalue
    split at hvalue
    · cases hvalue
      omega
    · split at hvalue
      · cases hvalue
        omega
      · cases hvalue
  · intro h
    obtain ⟨d, hd, hvalue⟩ := exists_value_of_isDigit h
    rw [digitValue?_eq_some_iff.mpr ⟨hvalue, hd⟩]
    rfl

theorem not_mem_of_digits (h : ∀ c ∈ word, c.isDigit) (hc : c.isDigit = false) : c ∉ word := by
  intro hmem
  rw [h c hmem] at hc
  cases hc

theorem Spelled.isDigit (h : Spelled 10 word n) : ∀ c ∈ word, c.isDigit := by
  induction h with
  | nil => simp
  | snoc _ hvalue hd ih =>
    intro x hx
    rcases List.mem_append.mp hx with hx | hx
    · exact ih x hx
    · rw [List.mem_singleton.mp hx, ← isSome_digitValue?_iff, digitValue?_eq_some_iff.mpr ⟨hvalue, hd⟩]
      rfl

/-- Digits and what follows them are told apart by the first character that is no digit. -/
theorem spanDigits_append (hword : ∀ c ∈ word, c.isDigit) (hrest : ∀ c ∈ rest.head?, ¬ c.isDigit) :
    spanDigits 10 (word ++ rest) = (word, rest) := by
  have hword : ∀ c ∈ word, (digitValue? 10 c).isSome :=
    fun c hc => isSome_digitValue?_iff.mpr (hword c hc)
  unfold spanDigits
  rw [List.takeWhile_append_of_pos hword, List.dropWhile_append_of_pos hword]
  cases rest with
  | nil => simp
  | cons c rest =>
    have hc : ¬ (digitValue? 10 c).isSome := fun h => hrest c rfl (isSome_digitValue?_iff.mp h)
    simp [hc]

theorem append_inj_of_digits (hword : ∀ c ∈ word, c.isDigit) (hrest : ∀ c ∈ rest.head?, ¬ c.isDigit)
    (hword' : ∀ c ∈ word', c.isDigit) (hrest' : ∀ c ∈ rest'.head?, ¬ c.isDigit)
    (h : word ++ rest = word' ++ rest') : word = word' ∧ rest = rest' := by
  have hspan := spanDigits_append hword hrest
  rw [h, spanDigits_append hword' hrest'] at hspan
  obtain ⟨rfl, rfl⟩ := Prod.mk.inj hspan
  exact ⟨rfl, rfl⟩

theorem Power.head_eq (h : Power t p) : ∀ c ∈ t.head?, c = 'e' := by
  cases h <;> simp

theorem Power.head_not_digit (h : Power t p) : ∀ c ∈ t.head?, ¬ c.isDigit := by
  intro c hc
  rw [h.head_eq c hc]
  decide

theorem Power.unique (h : Power t p) (h' : Power t q) : p = q := by
  cases h with
  | none =>
    cases h'
    rfl
  | plus _ hword =>
    cases h' with
    | plus _ hword' => rw [hword.unique hword']
  | minus _ hword =>
    cases h' with
    | minus _ hword' => rw [hword.unique hword']

theorem head_not_digit {c : Char} (hc : c.isDigit = false) (t : Text) :
    ∀ c' ∈ (c :: t).head?, ¬ c'.isDigit := by
  rintro _ ⟨⟩
  simp [hc]

/-- A numeral has one value. -/
theorem Numeral.unique (h : Numeral t v) (h' : Numeral t w) : v = w := by
  cases h with
  | @whole word power n p _ hword hpower =>
    generalize ht : word ++ power = t at h'
    cases h' with
    | whole _ hword' hpower' =>
      obtain ⟨rfl, rfl⟩ := append_inj_of_digits hword.isDigit hpower.head_not_digit hword'.isDigit
        hpower'.head_not_digit ht
      rw [hword.unique hword', hpower.unique hpower']
    | fraction _ _ hword' _ =>
      obtain ⟨-, rfl⟩ := append_inj_of_digits hword.isDigit hpower.head_not_digit
        (fun c hc => hword'.isDigit c (List.mem_append_left _ hc)) (head_not_digit (c := '.') rfl _) ht
      exact absurd (hpower.head_eq '.' rfl) (by decide)
  | @fraction word more power n p _ _ hword hpower =>
    have hfront := fun c hc => hword.isDigit c (List.mem_append_left _ hc)
    have hback := fun c hc => hword.isDigit c (List.mem_append_right _ hc)
    generalize ht : word ++ '.' :: (more ++ power) = t at h'
    cases h' with
    | whole _ hword' hpower' =>
      obtain ⟨-, rfl⟩ := append_inj_of_digits hfront (head_not_digit (c := '.') rfl _) hword'.isDigit
        hpower'.head_not_digit ht
      exact absurd (hpower'.head_eq '.' rfl) (by decide)
    | fraction _ _ hword' hpower' =>
      obtain ⟨rfl, hmore⟩ := append_inj_of_digits hfront (head_not_digit (c := '.') rfl _)
        (fun c hc => hword'.isDigit c (List.mem_append_left _ hc)) (head_not_digit (c := '.') rfl _) ht
      obtain ⟨rfl, rfl⟩ := append_inj_of_digits hback hpower.head_not_digit
        (fun c hc => hword'.isDigit c (List.mem_append_right _ hc)) hpower'.head_not_digit
        (List.cons.inj hmore).2
      rw [hword.unique hword', hpower.unique hpower']

/-- Zeros in front change nothing. -/
theorem Spelled.zeros_append (h : Spelled 10 word n) (count : Nat) :
    Spelled 10 (List.replicate count '0' ++ word) n := by
  induction h with
  | nil => simpa using Spelled.nil.append_zeros count
  | snoc _ hvalue hd ih =>
    rw [← List.append_assoc]
    exact ih.snoc hvalue hd

end Text

/-! ## Layouts -/

namespace Decimal

/-- A sign, always, and the digits of a whole number. -/
def signed (e : Int) : Text := (if 0 ≤ e then '+' else '-') :: digitsOf e.natAbs

theorem signed_inj {e e' : Int} (h : signed e = signed e') : e = e' := by
  obtain ⟨hsign, hdigits⟩ := List.cons.inj h
  have hspelled := spelled_digitsOf e.natAbs
  rw [hdigits] at hspelled
  have habs := hspelled.unique (spelled_digitsOf e'.natAbs)
  have hplus : ('+' : Char) ≠ '-' := by decide
  split at hsign <;> split at hsign
  · omega
  · exact absurd hsign hplus
  · exact absurd hsign.symm hplus
  · omega

theorem power_signed (e : Int) : Text.Power ('e' :: signed e) e := by
  have hspelled := spelled_digitsOf e.natAbs
  unfold signed
  split
  · have hpower := Text.Power.plus Nat.toDigits_ne_nil hspelled
    rwa [Int.natAbs_of_nonneg ‹_›] at hpower
  · have hpower := Text.Power.minus Nat.toDigits_ne_nil hspelled
    rwa [Int.ofNat_natAbs_of_nonpos (by omega), Int.neg_neg] at hpower

end Decimal

/-- Where the point is: behind the digits and zeros, inside the digits, in front of zeros and the
digits, or behind the first digit and moved by an exponent. -/
inductive Layout where
  | whole (zeros : Nat)
  | inner (front : Nat)
  | leading (zeros : Nat)
  | exponential (power : Int)

namespace Layout

variable {digits t : Text} {l l' : Layout} {k : Nat} {n : Int}

/-- The text of digits in a layout. -/
inductive Laid (digits : Text) : Layout → Text → Prop
  | whole (zeros : Nat) : Laid digits (.whole zeros) (digits ++ List.replicate zeros '0')
  | inner {front back : Text} : digits = front ++ back → front ≠ [] → back ≠ [] →
      Laid digits (.inner front.length) (front ++ '.' :: back)
  | leading (zeros : Nat) :
      Laid digits (.leading zeros) ('0' :: '.' :: (List.replicate zeros '0' ++ digits))
  | exponential {lead : Char} {tail : Text} (power : Int) : digits = lead :: tail →
      Laid digits (.exponential power)
        (lead :: ((if tail = [] then [] else '.' :: tail) ++ 'e' :: Decimal.signed power))

/-- The layout that `k` digits get when the point is `n` places behind their start. -/
def Fits (k : Nat) (n : Int) : Layout → Prop
  | .whole zeros => k ≤ n ∧ n ≤ 21 ∧ zeros = n - k
  | .inner front => 0 < n ∧ n ≤ 21 ∧ n < k ∧ front = n
  | .leading zeros => -6 < n ∧ n ≤ 0 ∧ zeros = -n
  | .exponential power => (n ≤ -6 ∨ 21 < n) ∧ power = n - 1

theorem Fits.unique (hk : 0 < k) (h : l.Fits k n) (h' : l'.Fits k n) : l = l' := by
  cases l <;> cases l' <;> simp only [Fits] at h h' <;> first | omega | (congr 1; omega)

/-- An exponent stands in the exponential layout only. -/
theorem Laid.mem_e_iff (h : Laid digits l t) (hdigits : ∀ c ∈ digits, c.isDigit) :
    'e' ∈ t ↔ ∃ power, l = .exponential power := by
  have hnot := Text.not_mem_of_digits hdigits (c := 'e') rfl
  cases h with
  | whole zeros => simp [hnot]
  | inner hsplit _ _ =>
    subst hsplit
    rw [List.mem_append, not_or] at hnot
    simp [hnot]
  | leading zeros => simp [hnot]
  | exponential power _ => simp

/-- With the digits on both sides of the point there is no room for a zero of its own. -/
theorem inner_ne_leading {front back : Text} (hsplit : digits = front ++ back) (zeros : Nat) :
    front ++ '.' :: back ≠ '0' :: '.' :: (List.replicate zeros '0' ++ digits) := by
  intro ht
  have hlength := congrArg List.length ht
  simp only [hsplit, List.length_append, List.length_cons, List.length_replicate] at hlength
  omega

/-- The text and its digits tell the layout. -/
theorem Laid.unique (h : Laid digits l t) (h' : Laid digits l' t)
    (hdigits : ∀ c ∈ digits, c.isDigit) : l = l' := by
  have hexp := (h.mem_e_iff hdigits).symm.trans (h'.mem_e_iff hdigits)
  have hpoint : ∀ zeros, '.' ∉ digits ++ List.replicate zeros '0' := by
    intro zeros
    simp [Text.not_mem_of_digits hdigits (c := '.') rfl]
  cases h with
  | whole zeros =>
    generalize ht : digits ++ List.replicate zeros '0' = t at h'
    cases h' with
    | whole zeros' => simpa using congrArg List.length ht
    | inner _ _ _ => exact absurd (ht ▸ by simp) (hpoint zeros)
    | leading _ => exact absurd (ht ▸ by simp) (hpoint zeros)
    | exponential _ _ => simp at hexp
  | @inner front back hsplit _ _ =>
    have hfront : ∀ c ∈ front, c.isDigit :=
      fun c hc => hdigits c (hsplit ▸ List.mem_append_left _ hc)
    generalize ht : front ++ '.' :: back = t at h'
    cases h' with
    | whole zeros => exact absurd (ht ▸ by simp) (hpoint zeros)
    | @inner front' back' hsplit' _ _ =>
      have hfront' : ∀ c ∈ front', c.isDigit :=
        fun c hc => hdigits c (hsplit' ▸ List.mem_append_left _ hc)
      obtain ⟨rfl, -⟩ := Text.append_inj_of_digits hfront (Text.head_not_digit (c := '.') rfl _) hfront'
        (Text.head_not_digit (c := '.') rfl _) ht
      rfl
    | leading zeros => exact absurd ht (inner_ne_leading hsplit zeros)
    | exponential _ _ => simp at hexp
  | leading zeros =>
    generalize ht : '0' :: '.' :: (List.replicate zeros '0' ++ digits) = t at h'
    cases h' with
    | whole zeros' => exact absurd (ht ▸ by simp) (hpoint zeros')
    | inner hsplit _ _ => exact absurd ht.symm (inner_ne_leading hsplit zeros)
    | leading zeros' => simpa using congrArg List.length ht
    | exponential _ _ => simp at hexp
  | @exponential lead tail power hsplit =>
    generalize ht : lead :: ((if tail = [] then [] else '.' :: tail) ++ 'e' :: Decimal.signed power) = t
      at h'
    cases h' with
    | whole _ => simp at hexp
    | inner _ _ _ => simp at hexp
    | leading _ => simp at hexp
    | exponential power' hsplit' =>
      obtain ⟨rfl, rfl⟩ := List.cons.inj (hsplit.symm.trans hsplit')
      have hsigned := List.append_cancel_left (List.cons.inj ht).2
      rw [Decimal.signed_inj (List.cons.inj hsigned).2]

end Layout

namespace Decimal

variable {d : Decimal} {l : Layout} {t : Text}

/-- The point picks the layout. -/
theorem exists_laid (hne : d.digits ≠ []) :
    ∃ l : Layout, l.Fits d.digits.length d.point ∧ l.Laid d.digits d.scripted := by
  unfold scripted
  split
  · rename_i hrange
    unfold positional
    dsimp only
    split
    · exact ⟨.leading (-d.point).toNat, ⟨by omega, by omega, by omega⟩, .leading _⟩
    · split
      · exact ⟨.whole (d.point.toNat - d.digits.length), ⟨by omega, by omega, by omega⟩, .whole _⟩
      · rename_i hpos hlt
        have hlength : (d.digits.take d.point.toNat).length = d.point.toNat := by
          rw [List.length_take]
          omega
        refine ⟨.inner (d.digits.take d.point.toNat).length, ⟨by omega, by omega, by omega, by omega⟩,
          .inner (List.take_append_drop ..).symm ?_ ?_⟩
        · exact List.ne_nil_of_length_pos (by omega)
        · exact List.ne_nil_of_length_pos (by rw [List.length_drop]; omega)
  · obtain ⟨lead, tail, hsplit⟩ := List.exists_cons_of_ne_nil hne
    refine ⟨.exponential (d.point - 1), ⟨by omega, rfl⟩, ?_⟩
    have hlaid := Layout.Laid.exponential (d.point - 1) hsplit
    unfold exponential
    rw [hsplit] at hlaid ⊢
    simpa [signed] using hlaid

/-- In the layout that fits, the numeral has the value of the decimal. -/
theorem numeral_of_laid (hdigits : ∀ c ∈ d.digits, c.isDigit) (hne : d.digits ≠ [])
    (hfits : l.Fits d.digits.length d.point) (hlaid : l.Laid d.digits t) : Text.Numeral t d.value := by
  have hspelled := spelled_coefficient hne hdigits
  cases hlaid with
  | whole zeros =>
    obtain ⟨-, -, hzeros⟩ := hfits
    have hnumeral := Text.Numeral.whole (by simp [hne]) (hspelled.append_zeros zeros) .none
    rw [List.append_nil] at hnumeral
    rw [value, ← hzeros]
    simpa using hnumeral
  | @inner front back hsplit hfront hback =>
    obtain ⟨-, -, -, hpoint⟩ := hfits
    have hexp : d.point - d.digits.length = 0 - back.length := by
      rw [hsplit, List.length_append]
      omega
    rw [hsplit] at hspelled
    have hnumeral := Text.Numeral.fraction hfront hback hspelled .none
    rw [List.append_nil] at hnumeral
    rwa [value, hexp]
  | leading zeros =>
    obtain ⟨-, -, hzeros⟩ := hfits
    have hmore : List.replicate zeros '0' ++ d.digits ≠ [] := by simp [hne]
    have hexp : d.point - d.digits.length = 0 - (List.replicate zeros '0' ++ d.digits).length := by
      rw [List.length_append, List.length_replicate]
      omega
    have hnumeral := Text.Numeral.fraction (List.cons_ne_nil '0' []) hmore
      (hspelled.zeros_append (zeros + 1)) .none
    rw [List.append_nil] at hnumeral
    rwa [value, hexp]
  | @exponential lead tail power hsplit =>
    obtain ⟨-, rfl⟩ := hfits
    have hpower := power_signed (d.point - 1)
    have hexp : d.point - d.digits.length = d.point - 1 - tail.length := by
      rw [hsplit, List.length_cons]
      omega
    rw [hsplit] at hspelled
    rw [value, hexp]
    split
    · rename_i hnil
      rw [hnil] at hspelled ⊢
      have hnumeral := Text.Numeral.whole (List.cons_ne_nil lead []) hspelled hpower
      simpa using hnumeral
    · rename_i hmore
      exact Text.Numeral.fraction (List.cons_ne_nil lead []) hmore hspelled hpower

theorem numeral_scripted (hne : d.digits ≠ []) (hdigits : ∀ c ∈ d.digits, c.isDigit) :
    Text.Numeral d.scripted d.value := by
  obtain ⟨l, hfits, hlaid⟩ := exists_laid hne
  exact numeral_of_laid hdigits hne hfits hlaid

/-- The text of every positive number of the format holds the digits of its shortest decimal, and
whatever the digits and the point of a decimal are, its text is a numeral of exactly its value, in
the layout that fits the point and in no other. -/
theorem scripted_keeps_value_in_fitting_layout :
    (∀ d : Decimal, d.digits ≠ [] → (∀ c ∈ d.digits, c.isDigit) →
      (∀ v, Text.Numeral d.scripted v ↔ v = d.value) ∧
        ∀ l : Layout, l.Laid d.digits d.scripted ↔ l.Fits d.digits.length d.point) ∧
      ∀ m e, m ≠ 0 → (Number.finite false m e).IsFinite →
        ∃ d : Decimal, d.IsShortest (.finite false m e) ∧
          Number.text (.finite false m e) = d.scripted := by
  refine ⟨fun d hne hdigits => ?_, fun m e hm hx => ?_⟩
  · obtain ⟨l, hfits, hlaid⟩ := exists_laid hne
    have hnumeral := numeral_scripted hne hdigits
    refine ⟨fun v => ⟨fun hv => hv.unique hnumeral, fun hv => hv ▸ hnumeral⟩, fun l' => ?_⟩
    constructor
    · intro hlaid'
      rwa [hlaid'.unique hlaid hdigits]
    · intro hfits'
      rwa [hfits'.unique (List.length_pos_iff.mpr hne) hfits]
  · refine ⟨Number.shortest m e, isShortest_shortest hm hx, ?_⟩
    rw [Number.text, if_neg hm]
    rfl

/-- The least number has one digit, and its point is too far off for zeros. -/
theorem scripted_keeps_value_of_least :
    let x := Number.finite false 1 Number.minExponent
    let d : Decimal := ⟨['5'], -323⟩
    Number.text x = "5e-324".toList ∧ d.scripted = "5e-324".toList ∧
      Text.Numeral d.scripted d.value ∧ Layout.Laid ['5'] (.exponential (-324)) d.scripted ∧
      ∃ d : Decimal, d.IsShortest x ∧ Number.text x = d.scripted := by
  have hdigits : ∀ c ∈ ['5'], c.isDigit := List.forall_mem_singleton.mpr rfl
  obtain ⟨hlayout, htext⟩ := scripted_keeps_value_in_fitting_layout
  obtain ⟨hnumeral, hlaid⟩ := hlayout ⟨['5'], -323⟩ (by decide) hdigits
  refine ⟨by decide +kernel, by decide, (hnumeral _).mpr rfl, (hlaid _).mpr ⟨by decide, rfl⟩, ?_⟩
  exact htext 1 Number.minExponent (by decide) ⟨by decide, by decide, by decide, .inr rfl⟩

end Decimal

end LiteralFolding
