-- Whole numbers in double precision. A number of at most 53 bits is kept as it is. A longer one is
-- cut to 53 bits and rounded, and that is the number nearest to it, the even one of two.
import LiteralFolding.Number.Reading
import Mathlib.Algebra.Order.Field.Rat
import Mathlib.Algebra.Order.Field.Power
import Mathlib.Tactic.Linarith
import Mathlib.Tactic.Positivity
import Mathlib.Tactic.Ring

namespace LiteralFolding.Number

variable {n m e d q r : Nat}

/-! ## Rounding to whole numbers -/

/-- `q` or the next number, whichever is nearer to `q` and `r` parts of `d`; from half way the even
one. -/
def nearer (q r d : Nat) : Nat :=
  if 2 * r < d then q else if d < 2 * r then q + 1 else if q % 2 = 0 then q else q + 1

/-- A number below `s` does not fill the gap to the next multiple. -/
theorem mul_add_lt {a b s : Nat} (hlt : a < b) (hr : r < s) : a * s + r < b * s := by
  rw [Nat.mul_comm a]
  exact Nat.mul_add_lt_mul_of_lt_of_lt hlt hr

theorem divideToEven_one (n : Nat) : divideToEven n 1 = n := by
  simp [divideToEven, Nat.mod_one]

theorem divideToEven_add (hr : r < d) : divideToEven (q * d + r) d = nearer q r d := by
  have hquot : (q * d + r) / d = q := by
    rw [Nat.add_comm, Nat.add_mul_div_right _ _ (by omega), Nat.div_eq_of_lt hr, Nat.zero_add]
  have hrem : (q * d + r) % d = r := by
    rw [Nat.add_comm, Nat.add_mul_mod_self_right, Nat.mod_eq_of_lt hr]
  simp only [divideToEven, hquot, hrem, nearer]

/-! ## Significand and exponent -/

/-- A significand at an exponent, infinite past the largest exponent. -/
def capped (negative : Bool) (m : Nat) (e : Int) : Number :=
  if maxExponent < e then .infinity negative else .finite negative m e

/-- The same after rounding, when the significand may have grown by one bit. -/
def packed (negative : Bool) (m : Nat) (e : Int) : Number :=
  if m = 2 ^ 53 then capped negative (2 ^ 52) (e + 1) else capped negative m e

section

variable {negative : Bool} {e : Int}

theorem capped_of_lt (h : 971 < e) (m : Nat) : capped negative m e = .infinity negative :=
  if_pos h

theorem capped_of_le (h : e ≤ 971) (m : Nat) : capped negative m e = .finite negative m e :=
  if_neg (Int.not_lt.mpr h)

theorem packed_of_lt (h : 971 < e) (m : Nat) : packed negative m e = .infinity negative := by
  unfold packed
  split
  · exact capped_of_lt (by omega) _
  · exact capped_of_lt h m

end

/-- The first 53 bits of a whole number, rounded. -/
def rounded (n : Nat) : Nat := divideToEven n (2 ^ (Nat.log2 n - 52))

theorem exponentOf_one (hn : n ≠ 0) : exponentOf n 1 = (Nat.log2 n : Int) - 52 := by
  have hlow : 2 ^ Nat.log2 n ≤ n := Nat.log2_self_le hn
  have hlog : Nat.log2 1 = 0 := rfl
  simp only [exponentOf, hlog, precision, minExponent, Nat.pow_eq]
  -- one bit less than the leading one does not fit, so the guess is always one too small
  split
  · have hpow : 2 ^ 53 * 2 ^ ((Nat.log2 n : Int) - (0 : Nat) - (53 : Nat)).toNat =
        2 ^ Nat.log2 n := by
      rw [← Nat.pow_add]
      congr 1
      omega
    have hfits : ¬ n < 2 ^ 53 * (1 * 2 ^ ((Nat.log2 n : Int) - (0 : Nat) - (53 : Nat)).toNat) := by
      rw [Nat.one_mul, hpow]
      omega
    simp only [hfits, decide_false, Bool.false_eq_true, if_false]
    omega
  · have hpow : 2 ^ Nat.log2 n * 2 ^ (-((Nat.log2 n : Int) - (0 : Nat) - (53 : Nat))).toNat =
        2 ^ 53 := by
      rw [← Nat.pow_add]
      congr 1
      omega
    have hfits : ¬ n * 2 ^ (-((Nat.log2 n : Int) - (0 : Nat) - (53 : Nat))).toNat < 2 ^ 53 * 1 := by
      rw [Nat.mul_one, ← hpow, Nat.not_lt]
      exact Nat.mul_le_mul_right _ hlow
    simp only [hfits, decide_false, Bool.false_eq_true, if_false]
    omega

theorem two_pow_of_eq_add {a b c : Nat} (h : a = b + c) : 2 ^ a = 2 ^ b * 2 ^ c := by
  rw [h, Nat.pow_add]

theorem log2_lt_of_lt (hn : n ≠ 0) (h : n < 2 ^ 53) : Nat.log2 n ≤ 52 :=
  Nat.le_of_lt_succ ((Nat.log2_lt hn).mpr h)

theorem le_log2_of_le (h : 2 ^ 53 ≤ n) : 53 ≤ Nat.log2 n :=
  (Nat.le_log2 (by omega)).mpr h

/-- Moved up to its place, a number of at most 53 bits fills the significand. -/
theorem full_of_lt (hn : n ≠ 0) (h : n < 2 ^ 53) :
    2 ^ 52 ≤ n * 2 ^ (52 - Nat.log2 n) ∧ n * 2 ^ (52 - Nat.log2 n) < 2 ^ 53 := by
  have hlog := log2_lt_of_lt hn h
  have hlow : 2 ^ Nat.log2 n ≤ n := Nat.log2_self_le hn
  have hhigh : n < 2 ^ (Nat.log2 n + 1) := Nat.lt_log2_self
  have hpow : 2 ^ 52 = 2 ^ Nat.log2 n * 2 ^ (52 - Nat.log2 n) := two_pow_of_eq_add (by omega)
  have hpow' : 2 ^ 53 = 2 ^ (Nat.log2 n + 1) * 2 ^ (52 - Nat.log2 n) :=
    two_pow_of_eq_add (by omega)
  rw [hpow, hpow']
  exact ⟨Nat.mul_le_mul_right _ hlow, Nat.mul_lt_mul_of_pos_right hhigh (Nat.two_pow_pos _)⟩

/-- A number of at most 53 bits is kept: its significand is only moved up. -/
theorem ofNat_of_lt (hn : n ≠ 0) (h : n < 2 ^ 53) :
    ofNat n = .finite false (n * 2 ^ (52 - Nat.log2 n)) ((Nat.log2 n : Int) - 52) := by
  have hlog := log2_lt_of_lt hn h
  have hfull := (full_of_lt hn h).2
  have hsig : (if 0 ≤ (Nat.log2 n : Int) - 52
      then divideToEven n (1 * 2 ^ ((Nat.log2 n : Int) - 52).toNat)
      else divideToEven (n * 2 ^ (-((Nat.log2 n : Int) - 52)).toNat) 1) =
      n * 2 ^ (52 - Nat.log2 n) := by
    split
    · have hzero : ((Nat.log2 n : Int) - 52).toNat = 0 := by omega
      have hzero' : 52 - Nat.log2 n = 0 := by omega
      rw [hzero, hzero', Nat.pow_zero, Nat.mul_one, Nat.mul_one, divideToEven_one]
    · have hexp : (-((Nat.log2 n : Int) - 52)).toNat = 52 - Nat.log2 n := by omega
      rw [hexp, divideToEven_one]
  simp only [ofNat, ofRatio, if_neg hn, exponentOf_one hn, precision, maxExponent, Nat.pow_eq, hsig,
    if_neg (Nat.ne_of_lt hfull)]
  rw [if_neg (by omega)]

/-- A number of more bits is cut to 53 and rounded. -/
theorem ofNat_of_le (h : 2 ^ 53 ≤ n) : ofNat n = packed false (rounded n) (Nat.log2 n - 52 : Nat) := by
  have hlog := le_log2_of_le h
  have hn : n ≠ 0 := by omega
  have hexp : (Nat.log2 n : Int) - 52 = (Nat.log2 n - 52 : Nat) := by omega
  simp only [ofNat, ofRatio, if_neg hn, exponentOf_one hn, precision, maxExponent, Nat.pow_eq, hexp,
    Int.natCast_nonneg, if_true, Int.toNat_natCast, Nat.one_mul]
  rw [← rounded, packed, capped, capped]
  split
  · rfl
  · rfl

theorem ofNat_zero : ofNat 0 = zero := rfl

/-- A number of at most 53 bits is read back as it was. -/
theorem whole?_ofNat (h : n < 2 ^ 53) : (ofNat n).whole? = some n := by
  by_cases hn : n = 0
  · subst hn
    simp [ofNat_zero, zero, whole?]
  · have hlog := log2_lt_of_lt hn h
    have hexp : (-((Nat.log2 n : Int) - 52)).toNat = 52 - Nat.log2 n := by omega
    simp only [ofNat_of_lt hn h, whole?, Nat.pow_eq, hexp]
    split
    · have hzero : ((Nat.log2 n : Int) - 52).toNat = 0 := by omega
      have hzero' : 52 - Nat.log2 n = 0 := by omega
      rw [hzero, hzero', Nat.pow_zero, Nat.mul_one, Nat.mul_one]
    · rw [Nat.mul_div_cancel _ (Nat.two_pow_pos _)]

/-! ## Numbers in parts -/

/-- A number that is `q` of 53 bits, then `e` more bits that make `r`. -/
structure Parts (n q e r : Nat) : Prop where
  eq : n = q * 2 ^ e + r
  full : 2 ^ 52 ≤ q
  lt : q < 2 ^ 53
  rest : r < 2 ^ e
  pos : 1 ≤ e

theorem Parts.log2_eq (h : Parts n q e r) : Nat.log2 n = e + 52 := by
  have hlow : 2 ^ (e + 52) ≤ n := by
    have hmul : 2 ^ 52 * 2 ^ e ≤ q * 2 ^ e := Nat.mul_le_mul_right _ h.full
    rw [h.eq, Nat.add_comm e, Nat.pow_add]
    omega
  have hhigh : n < 2 ^ (e + 52 + 1) := by
    rw [h.eq, Nat.add_assoc, Nat.add_comm e, Nat.pow_add]
    exact mul_add_lt h.lt h.rest
  have hn : n ≠ 0 := by
    have := Nat.two_pow_pos (e + 52)
    omega
  exact (Nat.log2_eq_iff hn).mpr ⟨hlow, hhigh⟩

theorem exists_parts (h : 2 ^ 53 ≤ n) : ∃ q e r, Parts n q e r := by
  have hlog := le_log2_of_le h
  have hn : n ≠ 0 := by omega
  have hlow : 2 ^ Nat.log2 n ≤ n := Nat.log2_self_le hn
  have hhigh : n < 2 ^ (Nat.log2 n + 1) := Nat.lt_log2_self
  refine ⟨n / 2 ^ (Nat.log2 n - 52), Nat.log2 n - 52, n % 2 ^ (Nat.log2 n - 52), ?_, ?_, ?_, ?_, ?_⟩
  · rw [Nat.mul_comm, Nat.div_add_mod]
  · rw [Nat.le_div_iff_mul_le (Nat.two_pow_pos _), ← Nat.pow_add]
    have hexp : 52 + (Nat.log2 n - 52) = Nat.log2 n := by omega
    rwa [hexp]
  · rw [Nat.div_lt_iff_lt_mul (Nat.two_pow_pos _), ← Nat.pow_add]
    have hexp : 53 + (Nat.log2 n - 52) = Nat.log2 n + 1 := by omega
    rwa [hexp]
  · exact Nat.mod_lt _ (Nat.two_pow_pos _)
  · omega

theorem Parts.le (h : Parts n q e r) : 2 ^ 53 ≤ n := by
  have hpos := h.pos
  have hlow : 2 ^ 53 ≤ 2 ^ (e + 52) := Nat.pow_le_pow_right (by decide) (by omega)
  have hn : n ≠ 0 := by
    rintro rfl
    have hlog := h.log2_eq
    simp at hlog
  exact Nat.le_trans hlow (h.log2_eq ▸ Nat.log2_self_le hn)

theorem Parts.lt_two_pow_iff (h : Parts n q e r) {k : Nat} : n < 2 ^ k ↔ e + 52 < k := by
  have hn : n ≠ 0 := Nat.ne_of_gt (Nat.lt_of_lt_of_le (by decide) h.le)
  rw [← h.log2_eq]
  exact (Nat.log2_lt hn).symm

/-- A long number is rounded at its 53rd bit. -/
theorem Parts.ofNat_eq (h : Parts n q e r) : ofNat n = packed false (nearer q r (2 ^ e)) e := by
  rw [ofNat_of_le h.le, rounded, h.log2_eq, Nat.add_sub_cancel, h.eq, divideToEven_add h.rest]

/-- Either neighbour is taken only if it is no farther, and from half way only if it is even. -/
theorem nearer_cases (q r d : Nat) :
    nearer q r d = q ∧ 2 * r ≤ d ∧ (2 * r = d → q % 2 = 0) ∨
      nearer q r d = q + 1 ∧ d ≤ 2 * r ∧ (2 * r = d → q % 2 = 1) := by
  unfold nearer
  split
  · omega
  · split
    · omega
    · split
      · omega
      · omega

theorem Parts.nearer_mem (h : Parts n q e r) :
    2 ^ 52 ≤ nearer q r (2 ^ e) ∧ nearer q r (2 ^ e) ≤ 2 ^ 53 := by
  have hfull := h.full
  have hlt := h.lt
  rcases nearer_cases q r (2 ^ e) with ⟨heq, _⟩ | ⟨heq, _⟩
  · omega
  · omega

/-! ## The nearest number -/

/-- The exact value of a finite number. -/
def value : Number → ℚ
  | .finite negative m e => (if negative then -1 else 1) * (m * 2 ^ e)
  | _ => 0

/-- A finite number of the format: the significand has at most 53 bits, and fewer only with the
least exponent. -/
def IsFinite : Number → Prop
  | .finite _ m e =>
    m < 2 ^ 53 ∧ minExponent ≤ e ∧ e ≤ maxExponent ∧ (2 ^ 52 ≤ m ∨ e = minExponent)
  | _ => False

/-- Is the significand even? -/
def IsEven : Number → Prop
  | .finite _ m _ => m % 2 = 0
  | _ => False

/-- The number nearest to a whole number: none is nearer, of two the even one, and infinite from
half way past the largest. -/
inductive IsNearest (n : Nat) : Number → Prop
  | finite {x : Number} : x.IsFinite → n < 2 ^ 1024 - 2 ^ 970 →
      (∀ y : Number, y.IsFinite → |x.value - n| ≤ |y.value - n| ∧
        (|x.value - n| = |y.value - n| → y.value = x.value ∨ x.IsEven)) → IsNearest n x
  | infinite : 2 ^ 1024 - 2 ^ 970 ≤ n → IsNearest n (.infinity false)

/-- How far a multiple of `d` lies from the one below a number with rest `r`. -/
theorem exists_offset (q r d : Nat) (k : ℤ) :
    ∃ x : ℤ, k * d - (q * d + r : Nat) = x - r ∧ (k = q → x = 0) ∧ (k = q + 1 → x = d) ∧
      (k < q → x ≤ -d) ∧ (q + 1 < k → 2 * d ≤ x) := by
  refine ⟨(k - q) * d, ?_, ?_, ?_, ?_, ?_⟩
  · push_cast
    ring
  · rintro rfl
    simp
  · rintro rfl
    simp
  · intro h
    have hmul : (k - q) * (d : ℤ) ≤ -1 * d := mul_le_mul_of_nonneg_right (by omega) (by omega)
    omega
  · intro h
    exact mul_le_mul_of_nonneg_right (by omega) (by omega)

/-- No other multiple of `d` is nearer to `q * d + r`, and one as near leaves the even one. -/
theorem abs_nearer_sub_le (hr : r < d) (k : ℤ) :
    |(nearer q r d : ℤ) * d - (q * d + r : Nat)| ≤ |k * d - (q * d + r : Nat)| ∧
      (|(nearer q r d : ℤ) * d - (q * d + r : Nat)| = |k * d - (q * d + r : Nat)| →
        k = nearer q r d ∨ nearer q r d % 2 = 0) := by
  obtain ⟨x, hx, hx0, hx1, hxlow, hxhigh⟩ := exists_offset q r d k
  obtain ⟨y, hy, hy0, hy1, -, -⟩ := exists_offset q r d (nearer q r d)
  have hcases := nearer_cases q r d
  rw [hx, hy]
  rcases abs_cases (x - r) with ⟨hkx, _⟩ | ⟨hkx, _⟩ <;>
    rcases abs_cases (y - r) with ⟨hky, _⟩ | ⟨hky, _⟩ <;> rw [hkx, hky] <;> omega

theorem value_finite (m : Nat) (e : ℤ) : (Number.finite false m e).value = m * 2 ^ e := by
  simp [value]

theorem isFinite_of_full (hlow : 2 ^ 52 ≤ m) (hhigh : m < 2 ^ 53) (he : e ≤ 971) :
    (Number.finite false m e).IsFinite := by
  refine ⟨hhigh, ?_, Int.ofNat_le.mpr he, .inl hlow⟩
  simp only [minExponent]
  omega

/-- What a rounded significand settles to: infinity, or a number of the format with its value. -/
theorem packed_cases {a : Nat} (hlow : 2 ^ 52 ≤ a) (hhigh : a ≤ 2 ^ 53) :
    (packed false a e = .infinity false ∧ (971 < e ∨ e = 971 ∧ a = 2 ^ 53)) ∨
      ((packed false a e).IsFinite ∧ (packed false a e).value = a * 2 ^ e ∧
        (a % 2 = 0 → (packed false a e).IsEven) ∧ ¬ (971 < e ∨ e = 971 ∧ a = 2 ^ 53)) := by
  unfold packed
  by_cases ha : a = 2 ^ 53
  · subst ha
    rw [if_pos rfl]
    by_cases he : 971 < e + 1
    · exact .inl ⟨capped_of_lt (by omega) _, by omega⟩
    · have he : e + 1 ≤ 971 := by omega
      rw [← Int.natCast_succ, capped_of_le (by omega), value_finite]
      refine .inr ⟨isFinite_of_full (Nat.le_refl _) (by decide) he, ?_, fun _ => ?_, by omega⟩
      · rw [zpow_natCast, pow_succ]
        norm_num
        ring
      · simp [IsEven]
  · rw [if_neg ha]
    by_cases he : 971 < e
    · exact .inl ⟨capped_of_lt (by omega) _, .inl he⟩
    · have he : e ≤ 971 := by omega
      rw [capped_of_le (by omega), value_finite, zpow_natCast]
      exact .inr ⟨isFinite_of_full hlow (by omega) he, rfl, fun h => h, by omega⟩

/-- A multiple of the last bit that is kept is no nearer than the rounded number. -/
theorem Parts.abs_sub_le_of_multiple (h : Parts n q e r) (k : ℤ) :
    |(nearer q r (2 ^ e) : ℚ) * 2 ^ e - n| ≤ |(k : ℚ) * 2 ^ e - n| ∧
      (|(nearer q r (2 ^ e) : ℚ) * 2 ^ e - n| = |(k : ℚ) * 2 ^ e - n| →
        (k : ℚ) * 2 ^ e = nearer q r (2 ^ e) * 2 ^ e ∨ nearer q r (2 ^ e) % 2 = 0) := by
  obtain ⟨hle, htie⟩ := abs_nearer_sub_le (q := q) h.rest k
  rw [← h.eq] at hle htie
  constructor
  · exact_mod_cast hle
  · intro heq
    rcases htie (by exact_mod_cast heq) with rfl | heven
    · exact .inl (by push_cast; rfl)
    · exact .inr heven

/-- A number with a smaller exponent lies below the first 53 bits, and so is farther. -/
theorem Parts.abs_sub_lt_of_small (h : Parts n q e r) {m' : Nat} {e' : ℤ} (hm : m' < 2 ^ 53)
    (he : e' < e) : |(nearer q r (2 ^ e) : ℚ) * 2 ^ e - n| < |(m' : ℚ) * 2 ^ e' - n| := by
  have hsmall : (m' : ℚ) * 2 ^ e' < 2 ^ 52 * 2 ^ e := by
    have hpow : (2 : ℚ) ^ e' ≤ 2 ^ ((e : ℤ) - 1) := zpow_le_zpow_right₀ (by norm_num) (by omega)
    have hhalf : (2 : ℚ) ^ ((e : ℤ) - 1) * 2 = 2 ^ e := by
      rw [← zpow_add_one₀ (by norm_num), sub_add_cancel, zpow_natCast]
    have hcast : (m' : ℚ) < 2 ^ 53 := by exact_mod_cast hm
    have hpos : (0 : ℚ) < 2 ^ e' := zpow_pos (by norm_num) _
    calc (m' : ℚ) * 2 ^ e' < 2 ^ 53 * 2 ^ e' := mul_lt_mul_of_pos_right hcast hpos
      _ ≤ 2 ^ 53 * 2 ^ ((e : ℤ) - 1) := mul_le_mul_of_nonneg_left hpow (by norm_num)
      _ = 2 ^ 52 * 2 ^ e := by rw [← hhalf]; ring
  have hbelow : (2 : ℚ) ^ 52 * 2 ^ e ≤ n := by
    have hmul : 2 ^ 52 * 2 ^ e ≤ q * 2 ^ e := Nat.mul_le_mul_right _ h.full
    have hle : 2 ^ 52 * 2 ^ e ≤ n := by
      rw [h.eq]
      omega
    exact_mod_cast hle
  have hfirst : |(nearer q r (2 ^ e) : ℚ) * 2 ^ e - n| ≤ |(2 : ℚ) ^ 52 * 2 ^ e - n| := by
    exact_mod_cast (h.abs_sub_le_of_multiple ((2 ^ 52 : ℕ) : ℤ)).1
  rw [abs_of_nonpos (by linarith : (2 : ℚ) ^ 52 * 2 ^ e - n ≤ 0)] at hfirst
  rw [abs_of_nonpos (by linarith : (m' : ℚ) * 2 ^ e' - n ≤ 0)]
  linarith

/-- No number of the format is nearer than the rounded one, and one as near leaves the even one. -/
theorem Parts.abs_sub_le (h : Parts n q e r) {m' : Nat} (e' : ℤ) (hm : m' < 2 ^ 53) :
    |(nearer q r (2 ^ e) : ℚ) * 2 ^ e - n| ≤ |(m' : ℚ) * 2 ^ e' - n| ∧
      (|(nearer q r (2 ^ e) : ℚ) * 2 ^ e - n| = |(m' : ℚ) * 2 ^ e' - n| →
        (m' : ℚ) * 2 ^ e' = nearer q r (2 ^ e) * 2 ^ e ∨ nearer q r (2 ^ e) % 2 = 0) := by
  by_cases he : e' < e
  · have hlt := h.abs_sub_lt_of_small hm he
    exact ⟨hlt.le, fun heq => absurd heq hlt.ne⟩
  · -- the number is a multiple of the last bit that is kept
    obtain ⟨j, hj⟩ := Int.eq_ofNat_of_zero_le (by omega : 0 ≤ e' - e)
    obtain ⟨k, hk⟩ : ∃ k : ℤ, (m' : ℚ) * 2 ^ e' = k * 2 ^ e := by
      have hexp : e' = (j + e : ℕ) := by omega
      refine ⟨m' * 2 ^ j, ?_⟩
      rw [hexp, zpow_natCast]
      push_cast
      ring
    rw [hk]
    exact h.abs_sub_le_of_multiple k

/-- Rounding runs past the largest exponent exactly from half way past the largest number on. -/
theorem Parts.overflow_iff (h : Parts n q e r) :
    971 < e ∨ e = 971 ∧ nearer q r (2 ^ e) = 2 ^ 53 ↔ 2 ^ 1024 - 2 ^ 970 ≤ n := by
  have htop : 2 ^ 1024 = 2 ^ 54 * 2 ^ 970 := two_pow_of_eq_add rfl
  have hunit : 2 ^ 971 = 2 ^ 1 * 2 ^ 970 := two_pow_of_eq_add rfl
  have heq := h.eq
  have hlt := h.lt
  have hfull := h.full
  have hrest := h.rest
  rcases Nat.lt_trichotomy e 971 with he | rfl | he
  · have hmul : (q + 1) * 2 ^ e ≤ 2 ^ 53 * 2 ^ 970 :=
      Nat.mul_le_mul hlt (pow_le_pow_right₀ (by decide) (by omega))
    rw [Nat.add_mul, Nat.one_mul] at hmul
    omega
  · have hcases := nearer_cases q r (2 ^ 971)
    rw [hunit] at hcases hrest heq ⊢
    generalize 2 ^ 970 = unit at *
    by_cases hq : q = 2 ^ 53 - 1
    · subst hq
      omega
    · have hmul : (q + 1) * (2 ^ 1 * unit) ≤ (2 ^ 53 - 1) * (2 ^ 1 * unit) :=
        Nat.mul_le_mul_right _ (by omega)
      rw [Nat.add_mul, Nat.one_mul] at hmul
      omega
  · have hmul : 2 ^ 52 * 2 ^ 972 ≤ q * 2 ^ e :=
      Nat.mul_le_mul hfull (pow_le_pow_right₀ (by decide) he)
    have hpow : 2 ^ 972 = 2 ^ 2 * 2 ^ 970 := two_pow_of_eq_add rfl
    omega

/-- A number that is equal is nearest. -/
theorem isNearest_of_value_eq {x : Number} (hfinite : x.IsFinite) (hlt : n < 2 ^ 53)
    (h : x.value = n) : IsNearest n x := by
  refine .finite hfinite ?_ ?_
  · have htop : 2 ^ 1024 = 2 ^ 54 * 2 ^ 970 := two_pow_of_eq_add rfl
    have hpos : 0 < 2 ^ 970 := pow_pos (by decide) 970
    omega
  · intro y _
    rw [h, sub_self, abs_zero]
    refine ⟨abs_nonneg _, fun heq => .inl ?_⟩
    rw [eq_comm, abs_eq_zero, sub_eq_zero] at heq
    exact heq

theorem isNearest_ofNat_of_lt (h : n < 2 ^ 53) : IsNearest n (ofNat n) := by
  by_cases hn : n = 0
  · subst hn
    refine isNearest_of_value_eq ?_ h ?_
    · rw [ofNat_zero]
      exact ⟨by decide, by decide, by decide, .inr rfl⟩
    · simp [ofNat_zero, zero, value]
  · have hlog := log2_lt_of_lt hn h
    have hfull := full_of_lt hn h
    rw [ofNat_of_lt hn h]
    refine isNearest_of_value_eq ⟨hfull.2, ?_, ?_, .inl hfull.1⟩ h ?_
    · simp only [minExponent]
      omega
    · simp only [maxExponent]
      omega
    · have hexp : ((52 - Nat.log2 n : ℕ) : ℤ) + ((Nat.log2 n : ℤ) - 52) = 0 := by omega
      rw [value_finite, Nat.cast_mul, Nat.cast_pow, mul_assoc, ← zpow_natCast, Nat.cast_ofNat,
        ← zpow_add₀ (by norm_num), hexp, zpow_zero, mul_one]

theorem value_finite_neg (m : Nat) (e : ℤ) : (Number.finite true m e).value = -(m * 2 ^ e) := by
  simp [value]

theorem abs_neg_sub {v w : ℚ} (hv : 0 ≤ v) (hw : 0 ≤ w) : |-v - w| = v + w := by
  rw [abs_of_nonpos (by linarith)]
  ring

/-- A negative number is farther from a positive one than its opposite, unless it is zero. -/
theorem abs_sub_le_add {v w : ℚ} (hv : 0 ≤ v) (hw : 0 < w) :
    |v - w| ≤ v + w ∧ (|v - w| = v + w → v = 0) := by
  rcases abs_cases (v - w) with ⟨heq, _⟩ | ⟨heq, _⟩
  · rw [heq]
    exact ⟨by linarith, fun h => by linarith⟩
  · rw [heq]
    exact ⟨by linarith, fun h => by linarith⟩

theorem isNearest_ofNat_of_parts (h : Parts n q e r) : IsNearest n (ofNat n) := by
  rw [h.ofNat_eq]
  obtain ⟨hlow, hhigh⟩ := h.nearer_mem
  rcases packed_cases (e := e) hlow hhigh with ⟨heq, hover⟩ | ⟨hfinite, hvalue, heven, hover⟩
  · rw [heq]
    exact .infinite (h.overflow_iff.mp hover)
  · refine .finite hfinite (Nat.not_le.mp fun hle => hover (h.overflow_iff.mpr hle)) ?_
    intro y hy
    rw [hvalue]
    match y, hy with
    | .finite negative m' e', hy =>
      obtain ⟨hle, htie⟩ := h.abs_sub_le e' hy.1
      cases negative with
      | false =>
        rw [value_finite]
        exact ⟨hle, fun heq => (htie heq).imp_right heven⟩
      | true =>
        have hv : (0 : ℚ) ≤ m' * 2 ^ e' := by positivity
        have hn : (0 : ℚ) < n := by exact_mod_cast Nat.lt_of_lt_of_le (by decide) h.le
        rw [value_finite_neg, abs_neg_sub hv hn.le]
        obtain ⟨hfar, hzero⟩ := abs_sub_le_add hv hn
        refine ⟨hle.trans hfar, fun heq => ?_⟩
        have hsame : |(m' : ℚ) * 2 ^ e' - n| = m' * 2 ^ e' + n := le_antisymm hfar (heq ▸ hle)
        rw [hzero hsame, neg_zero]
        rw [← hsame, hzero hsame] at heq
        rw [hzero hsame] at htie
        exact (htie heq).imp_right heven

/-- The number that a whole number is rounded to is the nearest. -/
theorem isNearest_ofNat (n : Nat) : IsNearest n (ofNat n) := by
  by_cases h : n < 2 ^ 53
  · exact isNearest_ofNat_of_lt h
  · obtain ⟨q, e, r, hparts⟩ := exists_parts (Nat.not_lt.mp h)
    exact isNearest_ofNat_of_parts hparts

end LiteralFolding.Number
