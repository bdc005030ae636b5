-- Ratios in double precision. A positive ratio has one exponent at which it fills the significand
-- and is rounded there, so the ratios that are read as a given number are those in an interval
-- around it: from half way to the number below up to half way to the number above.
import LiteralFolding.Number.Shortest
import LiteralFolding.Proofs.Rounding
import Mathlib.Tactic.FieldSimp

namespace LiteralFolding.Number

variable {n d k m : Nat} {e e' : Int} {v : ℚ} {negative : Bool}

/-! ## Powers -/

/-- A power is a ratio of two with whole exponents. -/
theorem zpow_eq_div {b : ℚ} (hb : b ≠ 0) (e : Int) : b ^ e = b ^ e.toNat / b ^ (-e).toNat := by
  rw [eq_div_iff (pow_ne_zero _ hb), ← zpow_natCast, ← zpow_natCast, ← zpow_add₀ hb]
  congr 1
  omega

theorem two_zpow_pos (e : Int) : (0 : ℚ) < 2 ^ e := zpow_pos (by norm_num) e

theorem two_zpow_add_one (e : Int) : (2 : ℚ) ^ (e + 1) = 2 * 2 ^ e := by
  rw [zpow_add_one₀ (by norm_num), mul_comm]

/-! ## The exponent -/

/-- At the exponent `e` the ratio has 53 bits before the point, or fewer at the least exponent. -/
structure Fills (v : ℚ) (e : Int) : Prop where
  lt : v < 2 ^ 53 * 2 ^ e
  least : minExponent ≤ e
  full : 2 ^ 52 * 2 ^ e ≤ v ∨ e = minExponent

theorem Fills.not_lt (h : Fills v e) (h' : Fills v e') : ¬ e < e' := by
  intro hlt
  have hpow : (2 : ℚ) ^ (e + 1) ≤ 2 ^ e' := zpow_le_zpow_right₀ (by norm_num) (by omega)
  rw [two_zpow_add_one] at hpow
  have hleast := h.least
  have hfull := h'.full.resolve_right (by omega)
  have hupper := h.lt
  linarith

theorem Fills.unique (h : Fills v e) (h' : Fills v e') : e = e' := by
  have := h.not_lt h'
  have := h'.not_lt h
  omega

/-- The bits of both parts of a ratio leave two choices for its size. -/
theorem ratio_bounds (hn : n ≠ 0) (hd : d ≠ 0) {g : Int}
    (hg : g = (Nat.log2 n : Int) - (Nat.log2 d : Int) - 53) :
    2 ^ 52 * (2 : ℚ) ^ g ≤ n / d ∧ (n / d : ℚ) < 2 ^ 53 * 2 ^ (g + 1) := by
  have hdpos : (0 : ℚ) < d := by exact_mod_cast Nat.pos_of_ne_zero hd
  have hnlow : (2 : ℚ) ^ Nat.log2 n ≤ n := by exact_mod_cast Nat.log2_self_le hn
  have hnhigh : (n : ℚ) < 2 ^ (Nat.log2 n + 1) := by exact_mod_cast Nat.lt_log2_self
  have hdlow : (2 : ℚ) ^ Nat.log2 d ≤ d := by exact_mod_cast Nat.log2_self_le hd
  have hdhigh : (d : ℚ) < 2 ^ (Nat.log2 d + 1) := by exact_mod_cast Nat.lt_log2_self
  have hlow : (2 : ℚ) ^ 52 * 2 ^ g * 2 ^ (Nat.log2 d + 1) = 2 ^ Nat.log2 n := by
    rw [← zpow_natCast, ← zpow_natCast, ← zpow_natCast, ← zpow_add₀ (by norm_num),
      ← zpow_add₀ (by norm_num)]
    congr 1
    push_cast
    omega
  have hhigh : (2 : ℚ) ^ 53 * 2 ^ (g + 1) * 2 ^ Nat.log2 d = 2 ^ (Nat.log2 n + 1) := by
    rw [← zpow_natCast, ← zpow_natCast, ← zpow_natCast, ← zpow_add₀ (by norm_num),
      ← zpow_add₀ (by norm_num)]
    congr 1
    push_cast
    omega
  rw [le_div_iff₀ hdpos, div_lt_iff₀ hdpos]
  have hpos := two_zpow_pos g
  have hpos' := two_zpow_pos (g + 1)
  constructor
  · calc (2 : ℚ) ^ 52 * 2 ^ g * d ≤ 2 ^ 52 * 2 ^ g * 2 ^ (Nat.log2 d + 1) := by gcongr
      _ = 2 ^ Nat.log2 n := hlow
      _ ≤ n := hnlow
  · calc (n : ℚ) < 2 ^ (Nat.log2 n + 1) := hnhigh
      _ = 2 ^ 53 * 2 ^ (g + 1) * 2 ^ Nat.log2 d := hhigh.symm
      _ ≤ 2 ^ 53 * 2 ^ (g + 1) * d := by gcongr

/-- A comparison with a power of two, in whole numbers. -/
theorem lt_mul_two_zpow_iff (hd : d ≠ 0) (g : Int) (k : Nat) :
    (n / d : ℚ) < k * 2 ^ g ↔ n * 2 ^ (-g).toNat < k * (d * 2 ^ g.toNat) := by
  have hdpos : (0 : ℚ) < d := by exact_mod_cast Nat.pos_of_ne_zero hd
  have hpow : (0 : ℚ) < 2 ^ (-g).toNat := by positivity
  rw [zpow_eq_div (by norm_num) g, ← mul_div_assoc, div_lt_div_iff₀ hdpos hpow, mul_assoc (k : ℚ),
    mul_comm _ (d : ℚ), ← @Nat.cast_lt ℚ]
  push_cast
  rfl

/-- The guess from the bits is the exponent if the ratio has no bit more; else it is one too small. -/
theorem exponentOf_eq (hd : d ≠ 0) :
    ∃ g : Int, g = (Nat.log2 n : Int) - (Nat.log2 d : Int) - 53 ∧
      ((n / d : ℚ) < 2 ^ 53 * 2 ^ g ∧ exponentOf n d = max minExponent g ∨
        2 ^ 53 * 2 ^ g ≤ (n / d : ℚ) ∧ exponentOf n d = max minExponent (g + 1)) := by
  refine ⟨(Nat.log2 n : Int) - (Nat.log2 d : Int) - (precision : Int), rfl, ?_⟩
  unfold exponentOf
  dsimp only
  generalize (Nat.log2 n : Int) - (Nat.log2 d : Int) - (precision : Int) = g
  have hcast : (2 : ℚ) ^ 53 = (Nat.pow 2 precision : Nat) := by norm_num [precision]
  have hfits : (if 0 ≤ g then decide (n < Nat.pow 2 precision * (d * Nat.pow 2 g.toNat))
      else decide (n * Nat.pow 2 (-g).toNat < Nat.pow 2 precision * d)) = true ↔
      (n / d : ℚ) < 2 ^ 53 * 2 ^ g := by
    rw [hcast, lt_mul_two_zpow_iff hd]
    split
    · have hzero : (-g).toNat = 0 := by omega
      rw [hzero, Nat.pow_zero, Nat.mul_one, decide_eq_true_eq]
      rfl
    · have hzero : g.toNat = 0 := by omega
      rw [hzero, Nat.pow_zero, Nat.mul_one, decide_eq_true_eq]
      rfl
  by_cases hlt : (n / d : ℚ) < 2 ^ 53 * 2 ^ g
  · exact .inl ⟨hlt, by rw [if_pos (hfits.mpr hlt)]⟩
  · exact .inr ⟨not_lt.mp hlt, by rw [if_neg (mt hfits.mp hlt)]⟩

theorem Fills.of_max {g : Int} (hlt : v < 2 ^ 53 * 2 ^ g) (hfull : 2 ^ 52 * 2 ^ g ≤ v) :
    Fills v (max minExponent g) := by
  refine ⟨?_, le_max_left .., ?_⟩
  · have hpow : (2 : ℚ) ^ g ≤ 2 ^ max minExponent g :=
      zpow_le_zpow_right₀ (by norm_num) (le_max_right ..)
    linarith
  · by_cases hg : minExponent ≤ g
    · rw [max_eq_right hg]
      exact .inl hfull
    · exact .inr (max_eq_left (by omega))

theorem fills_exponentOf (hn : n ≠ 0) (hd : d ≠ 0) : Fills (n / d) (exponentOf n d) := by
  obtain ⟨g, hg, hcases⟩ := exponentOf_eq (n := n) hd
  obtain ⟨hlow, hhigh⟩ := ratio_bounds hn hd hg
  rcases hcases with ⟨hlt, heq⟩ | ⟨hle, heq⟩
  · rw [heq]
    exact .of_max hlt hlow
  · rw [heq]
    refine .of_max hhigh ?_
    rw [two_zpow_add_one]
    linarith

/-! ## The significand -/

/-- The whole number nearest to `v`, of two the even one. -/
structure Rounds (v : ℚ) (k : Nat) : Prop where
  low : (k : ℚ) - 1 / 2 ≤ v
  high : v ≤ k + 1 / 2
  tie : v = k - 1 / 2 ∨ v = k + 1 / 2 → k % 2 = 0

theorem Rounds.not_lt {k' : Nat} (h : Rounds v k) (h' : Rounds v k') : ¬ k < k' := by
  intro hlt
  have hsucc : (k : ℚ) + 1 ≤ k' := by exact_mod_cast hlt
  have hhigh := h.high
  have hlow := h'.low
  have heven := h.tie (.inr (by linarith))
  have heven' := h'.tie (.inl (by linarith))
  have heq : k' = k + 1 := by
    have : (k' : ℚ) = k + 1 := by linarith
    exact_mod_cast this
  omega

theorem Rounds.unique {k' : Nat} (h : Rounds v k) (h' : Rounds v k') : k = k' := by
  have := h.not_lt h'
  have := h'.not_lt h
  omega

theorem rounds_nearer {q r : Nat} (hr : r < d) : Rounds (q + r / d) (nearer q r d) := by
  have hdpos : (0 : ℚ) < d := by exact_mod_cast Nat.zero_lt_of_lt hr
  have hlow : (0 : ℚ) ≤ r / d := by positivity
  have hhigh : (r / d : ℚ) < 1 := by
    rw [div_lt_one hdpos]
    exact_mod_cast hr
  have htwice : (r / d : ℚ) * d = r := div_mul_cancel₀ _ hdpos.ne'
  rcases nearer_cases q r d with ⟨heq, hle, htie⟩ | ⟨heq, hle, htie⟩
  · have hle : (2 * r : ℚ) ≤ d := by exact_mod_cast hle
    have hhalf : (r / d : ℚ) ≤ 1 / 2 := by
      rw [div_le_iff₀ hdpos]
      linarith
    rw [heq]
    refine ⟨by linarith, by linarith, ?_⟩
    rintro (h | h)
    · linarith
    · apply htie
      have hx : (r / d : ℚ) = 1 / 2 := by linarith
      rw [hx] at htwice
      have : (2 * r : ℚ) = d := by linarith
      exact_mod_cast this
  · have hle : (d : ℚ) ≤ 2 * r := by exact_mod_cast hle
    have hhalf : 1 / 2 ≤ (r / d : ℚ) := by
      rw [le_div_iff₀ hdpos]
      linarith
    rw [heq]
    refine ⟨by push_cast; linarith, by push_cast; linarith, ?_⟩
    push_cast
    rintro (h | h)
    · have hx : (r / d : ℚ) = 1 / 2 := by linarith
      rw [hx] at htwice
      have hodd := htie (by have : (2 * r : ℚ) = d := by linarith
                            exact_mod_cast this)
      omega
    · linarith

/-- Division of whole numbers rounds their ratio. -/
theorem rounds_divideToEven (hd : d ≠ 0) (n : Nat) : Rounds (n / d) (divideToEven n d) := by
  have hdpos : (0 : ℚ) < d := by exact_mod_cast Nat.pos_of_ne_zero hd
  have hrest : n % d < d := Nat.mod_lt n (Nat.pos_of_ne_zero hd)
  have hvalue : (n / d : ℚ) = (n / d : Nat) + (n % d : Nat) / d := by
    have hdiv : (n : ℚ) = d * (n / d : Nat) + (n % d : Nat) := by
      exact_mod_cast (Nat.div_add_mod n d).symm
    rw [div_eq_iff hdpos.ne', add_mul, div_mul_cancel₀ _ hdpos.ne', mul_comm]
    exact hdiv
  have hround : divideToEven n d = nearer (n / d) (n % d) d := by
    rw [← divideToEven_add hrest, Nat.mul_comm, Nat.div_add_mod]
  rw [hround, hvalue]
  exact rounds_nearer hrest

/-! ## Rounded ratios -/

theorem capped_eq_finite_iff {m' : Nat} :
    capped negative m e = .finite negative m' e' ↔ m = m' ∧ e = e' ∧ e ≤ maxExponent := by
  unfold capped
  split
  · constructor
    · intro h
      cases h
    · omega
  · rw [Number.finite.injEq]
    constructor
    · rintro ⟨-, rfl, rfl⟩
      exact ⟨rfl, rfl, by omega⟩
    · rintro ⟨rfl, rfl, -⟩
      exact ⟨rfl, rfl, rfl⟩

/-- The whole number nearest to a ratio over a power of two. -/
def significandAt (n d : Nat) (e : Int) : Nat :=
  if 0 ≤ e then divideToEven n (d * Nat.pow 2 e.toNat)
  else divideToEven (n * Nat.pow 2 (-e).toNat) d

theorem rounds_significandAt (hd : d ≠ 0) (n : Nat) (e : Int) :
    Rounds (n / d / 2 ^ e) (significandAt n d e) := by
  unfold significandAt
  split
  · have hzero : (-e).toNat = 0 := by omega
    have hround := rounds_divideToEven (Nat.mul_ne_zero hd (Nat.two_pow_pos e.toNat).ne') n
    rw [zpow_eq_div (by norm_num) e, hzero, pow_zero, div_one, div_div]
    exact_mod_cast hround
  · have hzero : e.toNat = 0 := by omega
    have hround := rounds_divideToEven hd (n * 2 ^ (-e).toNat)
    rw [zpow_eq_div (by norm_num) e, hzero, pow_zero, one_div, div_inv_eq_mul, div_mul_eq_mul_div]
    exact_mod_cast hround

/-- A ratio is rounded to 53 bits at its exponent. -/
theorem ofRatio_eq_packed (negative : Bool) (hn : n ≠ 0) (hd : d ≠ 0) :
    ∃ e k, Fills (n / d) e ∧ Rounds (n / d / 2 ^ e) k ∧
      ofRatio negative n d = packed negative k e := by
  refine ⟨exponentOf n d, significandAt n d (exponentOf n d), fills_exponentOf hn hd,
    rounds_significandAt hd n _, ?_⟩
  rw [ofRatio, if_neg hn]
  dsimp only
  rw [← significandAt]
  unfold packed capped
  split
  · rename_i hgrown
    exact (if_pos hgrown).symm
  · rename_i hkept
    exact (if_neg hkept).symm

/-- What a significand is rounded to fills it, or is one bit too long. -/
theorem Rounds.bounds (hfills : Fills v e) (h : Rounds (v / 2 ^ e) k) :
    k ≤ 2 ^ 53 ∧ (2 ^ 52 ≤ k ∨ e = minExponent) := by
  have hpos := two_zpow_pos e
  have hlt : v / 2 ^ e < 2 ^ 53 := by
    rw [div_lt_iff₀ hpos]
    exact hfills.lt
  have hlow := h.low
  have hhigh := h.high
  constructor
  · have hk : (k : ℚ) < 2 ^ 53 + 1 := by linarith
    have hk : k < 2 ^ 53 + 1 := by exact_mod_cast hk
    omega
  · refine hfills.full.imp_left fun hfull => ?_
    rw [← le_div_iff₀ hpos] at hfull
    have hk : (2 : ℚ) ^ 52 < k + 1 := by linarith
    have hk : 2 ^ 52 < k + 1 := by exact_mod_cast hk
    omega

theorem isFinite_of_capped {x : Number} (hm : m < 2 ^ 53) (he : minExponent ≤ e)
    (hfull : 2 ^ 52 ≤ m ∨ e = minExponent) (h : capped negative m e = x) :
    x = .infinity negative ∨ x.IsFinite ∧ ∃ m e, x = .finite negative m e := by
  unfold capped at h
  split at h
  · exact .inl h.symm
  · rw [← h]
    exact .inr ⟨⟨hm, he, by omega, hfull⟩, m, e, rfl⟩

/-- A ratio is read as a number of the format with its sign, or as infinite. -/
theorem ofRatio_cases (negative : Bool) (hd : d ≠ 0) (n : Nat) :
    ofRatio negative n d = .infinity negative ∨
      (ofRatio negative n d).IsFinite ∧ ∃ m e, ofRatio negative n d = .finite negative m e := by
  by_cases hn : n = 0
  · rw [ofRatio, if_pos hn]
    exact .inr ⟨⟨by decide, by decide, by decide, .inr rfl⟩, 0, minExponent, rfl⟩
  · obtain ⟨e, k, hfills, hrounds, heq⟩ := ofRatio_eq_packed negative hn hd
    obtain ⟨hk, hfull⟩ := hrounds.bounds hfills
    have hleast := hfills.least
    rw [heq]
    unfold packed
    split
    · exact isFinite_of_capped (by decide) (by omega) (.inl (by decide)) rfl
    · exact isFinite_of_capped (by omega) hleast hfull rfl

/-! ## What is read as a number -/

/-- The ratio lies in the interval. -/
def Neighbourhood.Contains (i : Neighbourhood) (v : ℚ) : Prop :=
  if i.closed then i.low ≤ v * i.unit ∧ v * i.unit ≤ i.high
  else i.low < v * i.unit ∧ v * i.unit < i.high

/-- How far the interval around a number reaches down, in units of its last bit. -/
def reach (m : Nat) (e : Int) : ℚ := if m = 2 ^ 52 ∧ minExponent < e then 1 / 4 else 1 / 2

/-- Quarters of the last bit, as an interval counts them. -/
theorem exists_quarter (v : ℚ) (e : Int) :
    ∃ c : ℚ, 0 < c ∧ ((Nat.pow 2 (e - 2).toNat : Nat) : ℚ) = c ∧
      v * (Nat.pow 2 (2 - e).toNat : Nat) = 4 * (v / 2 ^ e) * c := by
  refine ⟨2 ^ (e - 2).toNat, by positivity, by norm_num, ?_⟩
  have hexp : (2 - e).toNat = (-(e - 2)).toNat := by omega
  have hratio := zpow_eq_div (b := (2 : ℚ)) (by norm_num) (e - 2)
  have hdown : (2 : ℚ) ^ (-(e - 2)).toNat ≠ 0 := by positivity
  rw [eq_div_iff hdown] at hratio
  have hfour : (2 : ℚ) ^ e = 4 * 2 ^ (e - 2) := by
    rw [zpow_sub₀ (by norm_num)]
    norm_num
    ring
  have hpos := two_zpow_pos (e - 2)
  rw [hexp, ← hratio, hfour, Nat.pow_eq, Nat.cast_pow, Nat.cast_ofNat]
  field_simp

/-- The interval around a number, in units of its last bit. -/
theorem contains_around_iff (hm : m ≠ 0) :
    (Neighbourhood.around m e).Contains v ↔
      if m % 2 = 0 then (m : ℚ) - reach m e ≤ v / 2 ^ e ∧ v / 2 ^ e ≤ m + 1 / 2
      else (m : ℚ) - reach m e < v / 2 ^ e ∧ v / 2 ^ e < m + 1 / 2 := by
  obtain ⟨c, hc, hscale, hvalue⟩ := exists_quarter v e
  have hhigh : (((4 * m + 2) * Nat.pow 2 (e - 2).toNat : Nat) : ℚ) = 4 * (m + 1 / 2) * c := by
    rw [Nat.cast_mul, hscale]
    push_cast
    ring
  have hlow : (((4 * m - if m = Nat.pow 2 52 ∧ minExponent < e then 1 else 2) *
      Nat.pow 2 (e - 2).toNat : Nat) : ℚ) = 4 * (m - reach m e) * c := by
    rw [Nat.cast_mul, hscale, reach]
    by_cases hpower : m = 2 ^ 52 ∧ minExponent < e
    · rw [if_pos hpower, if_pos (c := m = Nat.pow 2 52 ∧ minExponent < e) hpower,
        Nat.cast_sub (by omega)]
      push_cast
      ring
    · rw [if_neg hpower, if_neg (c := m = Nat.pow 2 52 ∧ minExponent < e) hpower,
        Nat.cast_sub (by omega)]
      push_cast
      ring
  simp only [Neighbourhood.Contains, Neighbourhood.around, hlow, hhigh, hvalue, decide_eq_true_eq]
  rw [mul_le_mul_iff_left₀ hc, mul_le_mul_iff_left₀ hc, mul_lt_mul_iff_left₀ hc,
    mul_lt_mul_iff_left₀ hc, mul_le_mul_iff_right₀ (by norm_num), mul_le_mul_iff_right₀ (by norm_num),
    mul_lt_mul_iff_right₀ (by norm_num), mul_lt_mul_iff_right₀ (by norm_num)]

theorem bounds_of_contains_around (hm : m ≠ 0) (h : (Neighbourhood.around m e).Contains v) :
    (m : ℚ) - reach m e ≤ v / 2 ^ e ∧ v / 2 ^ e ≤ m + 1 / 2 := by
  rw [contains_around_iff hm] at h
  split at h
  · exact h
  · exact ⟨h.1.le, h.2.le⟩

theorem reach_cases (m : Nat) (e : Int) :
    m = 2 ^ 52 ∧ minExponent < e ∧ reach m e = 1 / 4 ∨
      ¬ (m = 2 ^ 52 ∧ minExponent < e) ∧ reach m e = 1 / 2 := by
  unfold reach
  split
  · rename_i h
    exact .inl ⟨h.1, h.2, rfl⟩
  · rename_i h
    exact .inr ⟨h, rfl⟩

/-- A ratio that is rounded to a number lies in its interval. -/
theorem contains_of_packed {k : Nat} {e₀ : Int} (hm : m ≠ 0) (hfills : Fills v e₀)
    (hrounds : Rounds (v / 2 ^ e₀) k) (h : packed negative k e₀ = .finite negative m e) :
    (Neighbourhood.around m e).Contains v := by
  rw [contains_around_iff hm]
  have hpos := two_zpow_pos e₀
  have hlow := hrounds.low
  have hhigh := hrounds.high
  unfold packed at h
  split at h
  · -- the significand has grown by a bit, so the ratio lies just below a power of two
    rename_i hk
    obtain ⟨rfl, rfl, -⟩ := capped_eq_finite_iff.mp h
    have hlt : v / 2 ^ e₀ < 2 ^ 53 := by
      rw [div_lt_iff₀ hpos]
      exact hfills.lt
    have hleast := hfills.least
    have hhalf : v / 2 ^ (e₀ + 1) = v / 2 ^ e₀ / 2 := by
      rw [two_zpow_add_one, mul_comm, div_div]
    have hreach : reach (2 ^ 52) (e₀ + 1) = 1 / 4 := if_pos ⟨rfl, by omega⟩
    rw [hk] at hlow
    push_cast at hlow
    rw [if_pos (by decide), hhalf, hreach]
    push_cast
    constructor <;> linarith
  · obtain ⟨rfl, rfl, -⟩ := capped_eq_finite_iff.mp h
    have hreach : (k : ℚ) - reach k e₀ ≤ v / 2 ^ e₀ := by
      rcases reach_cases k e₀ with ⟨hk, hleast, heq⟩ | ⟨-, heq⟩
      · have hfull := hfills.full.resolve_right (by omega)
        rw [← le_div_iff₀ hpos] at hfull
        have hcast : (k : ℚ) = 2 ^ 52 := by exact_mod_cast hk
        rw [heq]
        linarith
      · rw [heq]
        exact hlow
    split
    · exact ⟨hreach, hhigh⟩
    · rename_i hodd
      have hstrict := fun h => hodd (hrounds.tie h)
      have hne : reach k e₀ = 1 / 2 :=
        if_neg fun hk : k = 2 ^ 52 ∧ minExponent < e₀ => hodd (by rw [hk.1]; rfl)
      rw [hne] at hreach ⊢
      exact ⟨lt_of_le_of_ne hreach fun heq => hstrict (.inl heq.symm),
        lt_of_le_of_ne hhigh fun heq => hstrict (.inr heq)⟩

/-- At the exponent of the number a ratio in its interval is rounded to its significand. -/
theorem rounds_of_contains (hm : m ≠ 0) (h : (Neighbourhood.around m e).Contains v) :
    Rounds (v / 2 ^ e) m := by
  have hbounds := bounds_of_contains_around hm h
  have hreach := reach_cases m e
  refine ⟨?_, hbounds.2, fun htie => ?_⟩
  · rcases hreach with ⟨_, _, heq⟩ | ⟨_, heq⟩ <;> rw [heq] at hbounds <;> linarith
  · by_contra hodd
    rw [contains_around_iff hm, if_neg hodd] at h
    rcases hreach with ⟨hm, -⟩ | ⟨-, heq⟩
    · rw [hm] at hodd
      exact hodd rfl
    · rw [heq] at h
      rcases htie with htie | htie <;> linarith

/-- Just below a power of two a ratio has its bits one place further down and is rounded up there. -/
theorem fills_below_power (hleast : minExponent ≤ e) (hlow : 2 ^ 52 - 1 / 4 ≤ v / 2 ^ (e + 1))
    (hlt : v / 2 ^ (e + 1) < 2 ^ 52) : Fills v e ∧ Rounds (v / 2 ^ e) (2 ^ 53) := by
  have hpos := two_zpow_pos e
  have htwice : v / 2 ^ e = 2 * (v / 2 ^ (e + 1)) := by
    rw [two_zpow_add_one]
    field_simp
  refine ⟨⟨?_, hleast, .inl ?_⟩, ⟨?_, ?_, fun _ => rfl⟩⟩
  · rw [← div_lt_iff₀ hpos]
    linarith
  · rw [← le_div_iff₀ hpos]
    linarith
  · rw [htwice]
    push_cast
    linarith
  · rw [htwice]
    push_cast
    linarith

/-- A ratio in the interval of a number is rounded to it. -/
theorem exists_packed_of_contains (hm : m ≠ 0) (hx : (Number.finite negative m e).IsFinite)
    (h : (Neighbourhood.around m e).Contains v) :
    ∃ e₀ k, Fills v e₀ ∧ Rounds (v / 2 ^ e₀) k ∧ packed negative k e₀ = .finite negative m e := by
  obtain ⟨hlt, hleast, hmost, hfull⟩ := hx
  have hbounds := bounds_of_contains_around hm h
  have hpos := two_zpow_pos e
  by_cases hbits : 2 ^ 52 * 2 ^ e ≤ v ∨ e = minExponent
  · have hcast : (m : ℚ) + 1 ≤ 2 ^ 53 := by exact_mod_cast hlt
    have hupper : v < 2 ^ 53 * 2 ^ e := by
      rw [← div_lt_iff₀ hpos]
      linarith
    refine ⟨e, m, ⟨hupper, hleast, hbits⟩, rounds_of_contains hm h, ?_⟩
    rw [packed, if_neg (by omega)]
    exact capped_eq_finite_iff.mpr ⟨rfl, rfl, hmost⟩
  · rw [not_or, not_le, ← div_lt_iff₀ hpos] at hbits
    obtain ⟨hbelow, hne⟩ := hbits
    have hm52 := hfull.resolve_right hne
    rcases reach_cases m e with ⟨rfl, -, heq⟩ | ⟨hnot, heq⟩
    · obtain ⟨f, rfl⟩ : ∃ f, e = f + 1 := ⟨e - 1, by omega⟩
      rw [heq] at hbounds
      push_cast at hbounds
      obtain ⟨hfills, hrounds⟩ := fills_below_power (by omega) hbounds.1 hbelow
      refine ⟨f, 2 ^ 53, hfills, hrounds, ?_⟩
      rw [packed, if_pos rfl]
      exact capped_eq_finite_iff.mpr ⟨rfl, rfl, hmost⟩
    · -- a longer significand does not reach below the power
      have hm53 : (m : ℚ) < 2 ^ 52 + 1 := by
        rw [heq] at hbounds
        linarith
      have hm53 : m < 2 ^ 52 + 1 := by exact_mod_cast hm53
      exact absurd ⟨by omega, by omega⟩ hnot

/-- The ratios read as a number are those in its interval. -/
theorem ofRatio_eq_finite_iff (hn : n ≠ 0) (hd : d ≠ 0) (hm : m ≠ 0)
    (hx : (Number.finite negative m e).IsFinite) :
    ofRatio negative n d = .finite negative m e ↔ (Neighbourhood.around m e).Contains (n / d) := by
  obtain ⟨e₀, k, hfills, hrounds, heq⟩ := ofRatio_eq_packed negative hn hd
  rw [heq]
  constructor
  · exact contains_of_packed hm hfills hrounds
  · intro h
    obtain ⟨e₁, k₁, hfills₁, hrounds₁, hpacked⟩ := exists_packed_of_contains hm hx h
    obtain rfl := hfills.unique hfills₁
    obtain rfl := hrounds.unique hrounds₁
    exact hpacked

end LiteralFolding.Number
