-- Decimals and the numbers they stand for. The digits spell a whole number, and with no zero in
-- front and none at the end neither the digits nor their count can be other than they are.
import LiteralFolding.Number.Shortest
import LiteralFolding.Proofs.Digits
import LiteralFolding.Proofs.Numerals
import LiteralFolding.Proofs.Ratios

namespace LiteralFolding

/-! ## Digits -/

namespace Text

variable {c : Char} {word : Text} {n : Nat}

theorem isDigit_iff : c.isDigit ↔ '0' ≤ c ∧ c ≤ '9' := by
  simp only [Char.isDigit, Bool.and_eq_true, decide_eq_true_eq]
  rfl

theorem exists_value_of_isDigit (h : c.isDigit) : ∃ d < 10, hexValue? c = some d := by
  rw [isDigit_iff] at h
  refine ⟨c.toNat - '0'.toNat, ?_, if_pos h⟩
  have hle : c.toNat ≤ '9'.toNat := h.2
  have hzero : '0'.toNat = 48 := rfl
  have hnine : '9'.toNat = 57 := rfl
  omega

theorem eq_zero_of_hexValue? (h : hexValue? c = some 0) : c = '0' := by
  unfold hexValue? at h
  split at h
  · rename_i hdigit
    have hle : '0'.toNat ≤ c.toNat := hdigit.1
    have heq : c.toNat - '0'.toNat = 0 := Option.some.inj h
    exact Char.toNat_inj.mp (by omega)
  · split at h
    · simp at h
    · split at h
      · simp at h
      · cases h

/-- Digits spell a number. -/
theorem exists_spelled (h : ∀ c ∈ word, c.isDigit) : ∃ n, Spelled 10 word n := by
  induction word using List.reverseRecOn with
  | nil => exact ⟨0, .nil⟩
  | append_singleton word c ih =>
    obtain ⟨n, hn⟩ := ih fun c hc => h c (List.mem_append_left _ hc)
    obtain ⟨d, hd, hvalue⟩ := exists_value_of_isDigit (h c (by simp))
    exact ⟨_, .snoc hn hvalue hd⟩

/-- Without a zero in front digits spell a number of their length. -/
theorem Spelled.le_of_head (h : Spelled 10 word n) (hne : word ≠ []) (hhead : word.head? ≠ some '0') :
    10 ^ (word.length - 1) ≤ n := by
  induction h with
  | nil => exact absurd rfl hne
  | @snoc word n d c hword hvalue hd ih =>
    by_cases hnil : word = []
    · subst hnil
      have hc : d ≠ 0 := by
        rintro rfl
        exact hhead (by rw [eq_zero_of_hexValue? hvalue]; rfl)
      simp only [List.nil_append, List.length_singleton, Nat.sub_self, Nat.pow_zero]
      omega
    · rw [List.head?_append_of_ne_nil _ hnil] at hhead
      have hle := ih hnil hhead
      have hlen : (word ++ [c]).length - 1 = word.length - 1 + 1 := by
        have := List.length_pos_iff.mpr hnil
        simp only [List.length_append, List.length_singleton]
        omega
      rw [hlen, Nat.pow_succ]
      omega

theorem Spelled.not_dvd_of_last (h : Spelled 10 word n) (hne : word ≠ [])
    (hlast : word.getLast? ≠ some '0') : ¬ 10 ∣ n := by
  cases h with
  | nil => exact absurd rfl hne
  | @snoc word n d c hword hvalue hd =>
    have hc : d ≠ 0 := by
      rintro rfl
      exact hlast (by rw [eq_zero_of_hexValue? hvalue, List.getLast?_concat])
    omega

theorem Spelled.append_zero (h : Spelled 10 word n) : Spelled 10 (word ++ ['0']) (n * 10) :=
  h.snoc (d := 0) rfl (by decide)

/-- Zeros at the end multiply by ten each. -/
theorem Spelled.append_zeros (h : Spelled 10 word n) (count : Nat) :
    Spelled 10 (word ++ List.replicate count '0') (n * 10 ^ count) := by
  induction count with
  | zero => simpa using h
  | succ count ih =>
    rw [List.replicate_succ', ← List.append_assoc, Nat.pow_succ, ← Nat.mul_assoc]
    exact ih.append_zero

end Text

namespace Decimal

variable {d : Decimal} {n : Nat} {p : Int}

/-! ## Values -/

/-- Digits, at least one of them, with no zero in front and none at the end. -/
structure IsProper (d : Decimal) : Prop where
  ne_nil : d.digits ≠ []
  digits : ∀ c ∈ d.digits, c.isDigit
  head : d.digits.head? ≠ some '0'
  last : d.digits.getLast? ≠ some '0'

/-- The whole number that the digits spell. -/
def coefficient (d : Decimal) : Nat := (Text.wholeValue? 10 d.digits).getD 0

/-- The exact value: the digits right after the point, times `10 ^ point`. -/
def value (d : Decimal) : ℚ := d.coefficient * 10 ^ (d.point - d.digits.length)

theorem coefficient_eq (hne : d.digits ≠ []) (h : Text.Spelled 10 d.digits n) :
    d.coefficient = n := by
  rw [coefficient, Text.wholeValue?_eq_some_iff.mpr ⟨hne, h⟩, Option.getD_some]

theorem spelled_coefficient (hne : d.digits ≠ []) (h : ∀ c ∈ d.digits, c.isDigit) :
    Text.Spelled 10 d.digits d.coefficient := by
  obtain ⟨n, hn⟩ := Text.exists_spelled h
  rwa [coefficient_eq hne hn]

theorem IsProper.spelled (h : d.IsProper) : Text.Spelled 10 d.digits d.coefficient :=
  spelled_coefficient h.ne_nil h.digits

theorem IsProper.le_coefficient (h : d.IsProper) : 10 ^ (d.digits.length - 1) ≤ d.coefficient :=
  h.spelled.le_of_head h.ne_nil h.head

/-- The point tells the size of a decimal. -/
theorem IsProper.value_bounds (h : d.IsProper) :
    (10 : ℚ) ^ (d.point - 1) ≤ d.value ∧ d.value < 10 ^ d.point := by
  have hlength := List.length_pos_iff.mpr h.ne_nil
  have hlow : ((10 ^ (d.digits.length - 1) : Nat) : ℚ) ≤ d.coefficient := by
    exact_mod_cast h.le_coefficient
  have hhigh : (d.coefficient : ℚ) < (10 ^ d.digits.length : Nat) := by
    exact_mod_cast h.spelled.lt_pow
  have hpos : (0 : ℚ) < 10 ^ (d.point - d.digits.length) := zpow_pos (by norm_num) _
  unfold value
  constructor
  · calc (10 : ℚ) ^ (d.point - 1)
        = (10 ^ (d.digits.length - 1) : Nat) * 10 ^ (d.point - d.digits.length) := by
          push_cast
          rw [← zpow_natCast, ← zpow_add₀ (by norm_num)]
          congr 1
          omega
      _ ≤ d.coefficient * 10 ^ (d.point - d.digits.length) := by gcongr
  · calc (d.coefficient : ℚ) * 10 ^ (d.point - d.digits.length)
        < (10 ^ d.digits.length : Nat) * 10 ^ (d.point - d.digits.length) := by gcongr
      _ = 10 ^ d.point := by
          push_cast
          rw [← zpow_natCast, ← zpow_add₀ (by norm_num)]
          congr 1
          omega

theorem IsProper.value_pos (h : d.IsProper) : 0 < d.value :=
  lt_of_lt_of_le (zpow_pos (by norm_num) _) h.value_bounds.1

/-- With no zero at the end there are no more digits than the value needs. -/
theorem IsProper.length_le (h : d.IsProper) {a j : Nat} {q : Int} (heq : d.value = a * 10 ^ q)
    (ha : a < 10 ^ j) : d.digits.length ≤ j := by
  have hten : (10 : ℚ) ≠ 0 := by norm_num
  have hle := h.le_coefficient
  unfold value at heq
  rcases le_total q (d.point - d.digits.length) with hq | hq
  · have hsplit : (d.coefficient : ℚ) * 10 ^ (d.point - d.digits.length - q).toNat = a := by
      rw [← mul_left_inj' (zpow_ne_zero q hten), ← heq, mul_assoc, ← zpow_natCast,
        ← zpow_add₀ hten]
      congr 2
      omega
    have hsplit : d.coefficient * 10 ^ (d.point - d.digits.length - q).toNat = a := by
      exact_mod_cast hsplit
    have hmore : d.coefficient ≤ a :=
      (Nat.le_mul_of_pos_right _ (Nat.pow_pos (by decide))).trans_eq hsplit
    have hpow := (Nat.pow_lt_pow_iff_right (by decide)).mp ((hle.trans hmore).trans_lt ha)
    omega
  · have hsplit : (d.coefficient : ℚ) = a * 10 ^ (q - (d.point - d.digits.length)).toNat := by
      rw [← mul_left_inj' (zpow_ne_zero (d.point - d.digits.length) hten), heq, mul_assoc,
        ← zpow_natCast, ← zpow_add₀ hten]
      congr 2
      omega
    have hsplit : d.coefficient = a * 10 ^ (q - (d.point - d.digits.length)).toNat := by
      exact_mod_cast hsplit
    by_cases hzero : (q - (d.point - d.digits.length)).toNat = 0
    · rw [hzero, Nat.pow_zero, Nat.mul_one] at hsplit
      have hpow := (Nat.pow_lt_pow_iff_right (by decide)).mp (hle.trans_lt (hsplit.trans_lt ha))
      omega
    · have hdvd : 10 ∣ d.coefficient := by
        rw [hsplit]
        exact Dvd.dvd.mul_left (dvd_pow_self 10 hzero) a
      exact absurd hdvd (h.spelled.not_dvd_of_last h.ne_nil h.last)

/-! ## Trailing zeros -/

/-- A text is what is left without its last zeros, and those zeros. -/
theorem exists_zeros (word : Text) :
    ∃ count, word = (word.reverse.dropWhile (· = '0')).reverse ++ List.replicate count '0' := by
  refine ⟨(word.reverse.takeWhile (· = '0')).length, ?_⟩
  have hzeros : word.reverse.takeWhile (· = '0') =
      List.replicate (word.reverse.takeWhile (· = '0')).length '0' := by
    refine List.eq_replicate_of_mem fun c hc => ?_
    simpa using List.mem_takeWhile_imp hc
  conv_rhs => rw [← List.reverse_replicate, ← hzeros, ← List.reverse_append,
    List.takeWhile_append_dropWhile, List.reverse_reverse]

theorem spelled_digitsOf (n : Nat) : Text.Spelled 10 (digitsOf n) n :=
  Text.spelled_toDigits (by decide) (by decide) n

theorem last_ofScaled (n : Nat) (p : Int) : (ofScaled n p).digits.getLast? ≠ some '0' := by
  simp only [ofScaled, List.getLast?_reverse]
  intro h
  have hkept := List.head?_dropWhile_not (fun c => decide (c = '0')) (digitsOf n).reverse
  rw [h] at hkept
  simp at hkept

/-- A number above zero without its last zeros is a proper decimal of the same value. -/
theorem ofScaled_spec (hn : n ≠ 0) (p : Int) :
    (ofScaled n p).IsProper ∧ (ofScaled n p).value = n * 10 ^ p := by
  obtain ⟨count, hzeros⟩ := exists_zeros (digitsOf n)
  change digitsOf n = (ofScaled n p).digits ++ _ at hzeros
  have hspelled := spelled_digitsOf n
  have hdigits : ∀ c ∈ digitsOf n, c.isDigit :=
    Text.forall_mem_toDigits (P := fun c => c.isDigit) (by decide) (by decide) n
  have hhead : (digitsOf n).head? ≠ some '0' :=
    Text.head?_toDigits_ne (by decide) (by decide) hn
  rw [hzeros] at hspelled hdigits hhead
  have hdigits : ∀ c ∈ (ofScaled n p).digits, c.isDigit :=
    fun c hc => hdigits c (List.mem_append_left _ hc)
  obtain ⟨m, hm⟩ := Text.exists_spelled hdigits
  have hvalue : n = m * 10 ^ count := hspelled.unique (hm.append_zeros count)
  have hne : (ofScaled n p).digits ≠ [] := by
    intro hnil
    rw [hnil] at hm
    rw [hm.unique .nil, Nat.zero_mul] at hvalue
    exact hn hvalue
  rw [List.head?_append_of_ne_nil _ hne] at hhead
  refine ⟨⟨hne, hdigits, hhead, last_ofScaled n p⟩, ?_⟩
  have hpoint : (ofScaled n p).point - (ofScaled n p).digits.length = count + p := by
    have hlength := congrArg List.length hzeros
    rw [List.length_append, List.length_replicate] at hlength
    change p + (digitsOf n).length - _ = _
    omega
  rw [value, coefficient_eq hne hm, hpoint, zpow_add₀ (by norm_num), zpow_natCast, hvalue]
  push_cast
  ring

end Decimal

end LiteralFolding
