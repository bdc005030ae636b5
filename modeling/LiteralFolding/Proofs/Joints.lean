-- Texts of numbers one behind the other. What rounds to one number is close together, and the text
-- of a number has one of three forms: a whole number, digits around a point, or an exponent. So
-- there are four ways only in which the texts of two numbers can make the text of a third.
import LiteralFolding.Proofs.Canonical

namespace LiteralFolding

/-! ## What rounds to one number -/

namespace Number

variable {m m' n : Nat} {e e' : Int} {v w : ℚ}

theorem contains_self (hm : m ≠ 0) (e : Int) : (Neighbourhood.around m e).Contains (m * 2 ^ e) := by
  have hcenter := (isSound_around hm e).contains_center
  rwa [center_around] at hcenter

/-- A ratio rounds to one number only. -/
theorem eq_of_contains (hm : m ≠ 0) (hx : (Number.finite false m e).IsFinite) (hm' : m' ≠ 0)
    (hx' : (Number.finite false m' e').IsFinite) (h : (Neighbourhood.around m e).Contains v)
    (h' : (Neighbourhood.around m' e').Contains v) : m = m' ∧ e = e' := by
  have hpos := Rat.num_pos.mpr (h.pos (isSound_around hm e))
  have hv : ((v.num.toNat : Nat) : ℚ) / v.den = v := by
    have hnum : ((v.num.toNat : Nat) : ℤ) = v.num := Int.toNat_of_nonneg hpos.le
    rw [← Int.cast_natCast, hnum, Rat.num_div_den]
  rw [← hv] at h h'
  have hn : v.num.toNat ≠ 0 := by omega
  have hround := (ofRatio_eq_finite_iff hn v.den_nz hm hx).mpr h
  rw [(ofRatio_eq_finite_iff hn v.den_nz hm' hx').mpr h'] at hround
  cases hround
  exact ⟨rfl, rfl⟩

theorem reach_le (m : Nat) (e : Int) : reach m e ≤ 1 / 2 := by
  unfold reach
  split <;> norm_num

theorem center_le_of_contains (hm : m ≠ 0) (h : (Neighbourhood.around m e).Contains v) :
    (m : ℚ) * 2 ^ e ≤ 2 * v := by
  have hreach := reach_le m e
  have hone : (1 : ℚ) ≤ m := by exact_mod_cast Nat.pos_of_ne_zero hm
  have hlow : (m : ℚ) / 2 ≤ v / 2 ^ e := by
    have := (bounds_of_contains_around hm h).1
    linarith
  rw [le_div_iff₀ (two_zpow_pos e)] at hlow
  linarith

/-- Ratios that round to one number are close to each other, unless they are near the least. -/
theorem close_of_contains (hm : m ≠ 0) (hx : (Number.finite false m e).IsFinite)
    (hv : (Neighbourhood.around m e).Contains v) (hw : (Neighbourhood.around m e).Contains w)
    (hlow : 1 / 1000000 ≤ v) : 9 * w ≤ 11 * v ∧ 9 * v ≤ 11 * w := by
  have hreach := reach_le m e
  obtain ⟨hvlow, hvhigh⟩ := bounds_of_contains_around hm hv
  obtain ⟨hwlow, hwhigh⟩ := bounds_of_contains_around hm hw
  have hfive : (5 : ℚ) ≤ m := by
    obtain ⟨-, -, -, hfull | rfl⟩ := hx
    · have : (2 ^ 52 : ℚ) ≤ m := by exact_mod_cast hfull
      linarith
    · have hunits : (8 : ℚ) ≤ v / 2 ^ minExponent := by
        rw [le_div_iff₀ (two_zpow_pos _)]
        calc (8 : ℚ) * 2 ^ minExponent = 2 ^ (3 + minExponent) := by
              rw [zpow_add₀ (by norm_num)]
              norm_num
          _ ≤ 2 ^ (-20 : Int) := zpow_le_zpow_right₀ (by norm_num) (by decide)
          _ ≤ 1 / 1000000 := by norm_num
          _ ≤ v := hlow
      linarith
  have hpos := two_zpow_pos e
  constructor
  · have hunits : 9 * (w / 2 ^ e) ≤ 11 * (v / 2 ^ e) := by linarith
    rw [← mul_div_assoc, ← mul_div_assoc] at hunits
    exact (div_le_div_iff_of_pos_right hpos).mp hunits
  · have hunits : 9 * (v / 2 ^ e) ≤ 11 * (w / 2 ^ e) := by linarith
    rw [← mul_div_assoc, ← mul_div_assoc] at hunits
    exact (div_le_div_iff_of_pos_right hpos).mp hunits

theorem exists_finite_eq (hn : n ≠ 0) (h : n < 2 ^ 53) :
    ∃ m e, m ≠ 0 ∧ (Number.finite false m e).IsFinite ∧ (m : ℚ) * 2 ^ e = n := by
  obtain ⟨hlow, hhigh⟩ := full_of_lt hn h
  have hlog := log2_lt_of_lt hn h
  refine ⟨n * 2 ^ (52 - Nat.log2 n), (Nat.log2 n : Int) - 52, by omega, ?_, ?_⟩
  · refine ⟨hhigh, ?_, ?_, .inl hlow⟩ <;> simp only [minExponent, maxExponent] <;> omega
  · have hexp : (Nat.log2 n : Int) - 52 = -((52 - Nat.log2 n : Nat) : Int) := by omega
    rw [hexp, zpow_neg, zpow_natCast]
    push_cast
    field_simp

/-- A whole number between ratios that round to one number is that number. -/
theorem eq_natCast_of_between (hm : m ≠ 0) (hx : (Number.finite false m e).IsFinite)
    (hv : (Neighbourhood.around m e).Contains v) (hw : (Neighbourhood.around m e).Contains w)
    (hn : n ≠ 0) (hlt : n < 2 ^ 53) (hvn : v ≤ n) (hnw : n ≤ w) : (m : ℚ) * 2 ^ e = n := by
  obtain ⟨m', e', hm', hx', heq⟩ := exists_finite_eq hn hlt
  have hbetween := hv.between hw hvn hnw
  have hself := contains_self hm' e'
  rw [heq] at hself
  obtain ⟨rfl, rfl⟩ := eq_of_contains hm hx hm' hx' hbetween hself
  exact heq

theorem lt_of_ne_natCast (hx : (Number.finite false m e).IsFinite)
    (h : ∀ j : Nat, (m : ℚ) * 2 ^ e ≠ j) : (m : ℚ) * 2 ^ e < 2 ^ 52 := by
  have hneg : e < 0 := by
    by_contra hge
    obtain ⟨k, rfl⟩ := Int.eq_ofNat_of_zero_le (not_lt.mp hge)
    exact h (m * 2 ^ k) (by push_cast; rfl)
  have hm : (m : ℚ) < 2 ^ 53 := by exact_mod_cast hx.1
  have hhalf : (2 : ℚ) ^ e ≤ 1 / 2 := by
    calc (2 : ℚ) ^ e ≤ 2 ^ (-1 : Int) := zpow_le_zpow_right₀ (by norm_num) (by omega)
      _ = 1 / 2 := by norm_num
  have hpos := two_zpow_pos e
  nlinarith

theorem one_le_of_contains (hm : m ≠ 0) (hx : (Number.finite false m e).IsFinite)
    (hv : (Neighbourhood.around m e).Contains v) (h : 1 ≤ v) : 1 ≤ (m : ℚ) * 2 ^ e := by
  by_contra hlt
  have heq := eq_natCast_of_between hm hx (contains_self hm e) hv one_ne_zero (by norm_num)
    (by push_cast; linarith) (by push_cast; linarith)
  push_cast at heq
  linarith

/-- A number that is not whole lies between the same whole numbers as what rounds to it. -/
theorem bounds_of_ne_natCast (hm : m ≠ 0) (hx : (Number.finite false m e).IsFinite)
    (hv : (Neighbourhood.around m e).Contains v) (hwhole : ∀ j : Nat, (m : ℚ) * 2 ^ e ≠ j)
    (hnv : n ≤ v) (hvn : v < n + 1) :
    n + 1 < 2 ^ 53 ∧ (n : ℚ) < m * 2 ^ e ∧ (m : ℚ) * 2 ^ e < (n + 1 : Nat) := by
  have hself := contains_self hm e
  have hpos := hself.pos (isSound_around hm e)
  have hlarge : n + 1 < 2 ^ 53 := by
    rcases Nat.eq_zero_or_pos n with rfl | hn
    · norm_num
    · have hone : (1 : ℚ) ≤ n := by exact_mod_cast hn
      have hclose := (close_of_contains hm hx hv hself (by linarith)).2
      have hlt := lt_of_ne_natCast hx hwhole
      have hcast : ((n + 1 : Nat) : ℚ) < (2 ^ 53 : Nat) := by
        push_cast
        linarith
      exact_mod_cast hcast
  refine ⟨hlarge, ?_, ?_⟩
  · by_contra hge
    have hn : n ≠ 0 := by
      rintro rfl
      push_cast at hge
      linarith
    exact hwhole n (eq_natCast_of_between hm hx hself hv hn (by omega) (by linarith) hnv)
  · by_contra hge
    exact hwhole (n + 1) (eq_natCast_of_between hm hx hv hself (by omega) hlarge
      (by push_cast; linarith) (by linarith))

/-- What is small is lost when it is added to something large. -/
theorem contains_add (hm : m ≠ 0) (hx : (Number.finite false m e).IsFinite) (hv : 0 < v)
    (hlt : v < 13) (hlarge : 26 * 2 ^ 53 ≤ (m : ℚ) * 2 ^ e) :
    (Neighbourhood.around m e).Contains (v + m * 2 ^ e) := by
  have hunit : (26 : ℚ) < 2 ^ e := by
    have hm₁ : (m : ℚ) < 2 ^ 53 := by exact_mod_cast hx.1
    by_contra hle
    have := mul_lt_mul hm₁ (not_lt.mp hle) (two_zpow_pos e) (by norm_num)
    linarith
  have hunits : (v + m * 2 ^ e) / 2 ^ e = v / 2 ^ e + m := by
    rw [add_div, mul_div_cancel_right₀ _ (two_zpow_pos e).ne']
  have hshare : v / 2 ^ e < 1 / 2 := by
    rw [div_lt_iff₀ (two_zpow_pos e)]
    linarith
  have hshare' : 0 < v / 2 ^ e := div_pos hv (two_zpow_pos e)
  have hreach : 0 < reach m e := by
    unfold reach
    split <;> norm_num
  exact contains_of_near hm (by linarith) (by linarith)

end Number

/-! ## Digits behind the point -/

namespace Decimal

variable {d : Decimal} {m : Nat} {e : Int}

theorem IsProper.length_le_point (h : d.IsProper) {j : Nat} (hj : d.value = j) :
    (d.digits.length : Int) ≤ d.point := by
  by_contra hlt
  obtain ⟨k, hk⟩ : ∃ k : Nat, d.point - d.digits.length = -((k + 1 : Nat) : Int) :=
    ⟨(d.digits.length - d.point - 1).toNat, by omega⟩
  refine h.spelled.not_dvd_of_last h.ne_nil h.last ⟨j * 10 ^ k, ?_⟩
  rw [value, hk, zpow_neg, zpow_natCast, ← div_eq_mul_inv, div_eq_iff (by positivity)] at hj
  have hcast : (d.coefficient : ℚ) = (10 * (j * 10 ^ k) : Nat) := by
    rw [hj]
    push_cast
    ring
  exact_mod_cast hcast

/-- A whole number is shown without a point. -/
theorem ne_natCast_of_point_lt (hm : m ≠ 0) (hx : (Number.finite false m e).IsFinite)
    (h : (Number.shortest m e).point < (Number.shortest m e).digits.length) (j : Nat) :
    (m : ℚ) * 2 ^ e ≠ j := by
  intro hj
  have hs := isShortest_shortest hm hx
  have hj0 : j ≠ 0 := by
    rintro rfl
    have hpos : (0 : ℚ) < m * 2 ^ e :=
      mul_pos (by exact_mod_cast Nat.pos_of_ne_zero hm) (Number.two_zpow_pos e)
    rw [hj] at hpos
    simp at hpos
  obtain ⟨hproper, hvalue⟩ := ofScaled_spec hj0 0
  rw [zpow_zero, mul_one] at hvalue
  have hself := Number.contains_self hm e
  rw [hj, ← hvalue] at hself
  have hreads := (hproper.number_eq_iff hm hx).mpr hself
  rcases Nat.lt_or_eq_of_le (hs.fewest _ hproper hreads) with hlt | heq
  · -- With fewer digits and a point among them it is too small.
    have hpoint := hproper.length_le_point hvalue
    have hin := (hs.proper.number_eq_iff hm hx).mp hs.reads
    have hupper := hs.proper.value_bounds.2
    have hlower := hproper.value_bounds.1
    have hone : (1 : ℚ) ≤ (ofScaled j 0).value := by
      rw [hvalue]
      exact_mod_cast Nat.pos_of_ne_zero hj0
    have hclose := (Number.close_of_contains hm hx hself hin (by linarith)).2
    have hstep : (10 : ℚ) ^ (Number.shortest m e).point * 10 ≤ 10 ^ ((ofScaled j 0).point - 1) := by
      rw [← zpow_add_one₀ (by norm_num)]
      exact zpow_le_zpow_right₀ (by norm_num) (by omega)
    linarith
  · have hnearest := hs.nearest _ hproper hreads heq.symm
    rw [Number.value_finite, hj, hvalue, sub_self, abs_zero, abs_nonpos_iff,
      sub_eq_zero] at hnearest
    have := hs.proper.length_le_point hnearest
    omega

end Decimal

/-! ## The forms of a shown number -/

namespace Text

variable {word more : Text} {n k : Nat}

theorem Spelled.append (h : Spelled 10 word n) (h' : Spelled 10 more k) :
    Spelled 10 (word ++ more) (n * 10 ^ more.length + k) := by
  induction h' with
  | nil => simpa using h
  | @snoc more k d c _ hvalue hd ih =>
    rw [← List.append_assoc, List.length_append, List.length_singleton, Nat.pow_succ]
    have hsnoc := ih.snoc hvalue hd
    rwa [Nat.add_mul, Nat.mul_assoc, Nat.add_assoc] at hsnoc

theorem Spelled.of_append (h : Spelled 10 (word ++ more) n) :
    ∃ i f, Spelled 10 word i ∧ Spelled 10 more f ∧ n = i * 10 ^ more.length + f := by
  obtain ⟨i, hi⟩ := exists_spelled fun c hc => h.isDigit c (List.mem_append_left more hc)
  obtain ⟨f, hf⟩ := exists_spelled fun c hc => h.isDigit c (List.mem_append_right word hc)
  exact ⟨i, f, hi, hf, h.unique (hi.append hf)⟩

theorem Spelled.div_lt_one (h : Spelled 10 word n) : (n : ℚ) / 10 ^ word.length < 1 := by
  rw [div_lt_one₀ (by positivity)]
  exact_mod_cast h.lt_pow

end Text

namespace Number

open Text Decimal

variable {m m' m'' n : Nat} {e e' e'' : Int} {v w r : ℚ} {t u : Text} {negative : Bool}

/-- The text shows the positive number `m * 2 ^ e`: a whole number, digits around a point, or one
digit before the point and an exponent. Taken exactly, it is `v`. -/
inductive Shows (m : Nat) (e : Int) : Text → ℚ → Prop
  | whole {word : Text} {n : Nat} (hne : word ≠ []) (hhead : word.head? ≠ some '0')
      (hlength : word.length ≤ 21) (hword : Spelled 10 word n) : Shows m e word n
  | point {front back : Text} {i f : Nat} (hfront : front ≠ []) (hi : Spelled 10 front i)
      (hf : Spelled 10 back f) (hlow : (1 / 1000000 : ℚ) ≤ i + f / 10 ^ back.length)
      (hwhole : ∀ j : Nat, (m : ℚ) * 2 ^ e ≠ j) :
      Shows m e (front ++ '.' :: back) (i + f / 10 ^ back.length)
  | power {lead : Char} {tail : Text} {n : Nat} {p : Int} (hlead : lead ≠ '0')
      (hdigits : Spelled 10 (lead :: tail) n) (hp : p ≤ -7 ∨ 21 ≤ p) :
      Shows m e (lead :: ((if tail = [] then [] else '.' :: tail) ++ 'e' :: signed p))
        (n * 10 ^ (p - tail.length))

theorem millionth_le {p : Int} (h : -6 ≤ p) : (1 / 1000000 : ℚ) ≤ 10 ^ p := by
  calc (1 / 1000000 : ℚ) = 10 ^ (-6 : Int) := by norm_num
    _ ≤ 10 ^ p := zpow_le_zpow_right₀ (by norm_num) h

theorem le_millionth {p : Int} (h : p ≤ -6) : (10 : ℚ) ^ p ≤ 1 / 1000000 := by
  calc (10 : ℚ) ^ p ≤ 10 ^ (-6 : Int) := zpow_le_zpow_right₀ (by norm_num) h
    _ = 1 / 1000000 := by norm_num

theorem shows_scripted (hm : m ≠ 0) (hx : (Number.finite false m e).IsFinite) :
    Shows m e (shortest m e).scripted (shortest m e).value := by
  have hproper := (isShortest_shortest hm hx).proper
  have hspelled := hproper.spelled
  have hlow := hproper.value_bounds.1
  have hwhole := ne_natCast_of_point_lt hm hx
  generalize shortest m e = d at *
  obtain ⟨l, hfits, hlaid⟩ := exists_laid hproper.ne_nil
  generalize d.scripted = t at *
  cases hlaid with
  | whole zeros =>
    obtain ⟨hle, hpoint, hzeros⟩ := hfits
    have hvalue : d.value = (d.coefficient * 10 ^ zeros : Nat) := by
      rw [Decimal.value, ← hzeros, zpow_natCast]
      push_cast
      rfl
    rw [hvalue]
    refine .whole (by simp [hproper.ne_nil]) ?_ ?_ (hspelled.append_zeros zeros)
    · rw [List.head?_append_of_ne_nil _ hproper.ne_nil]
      exact hproper.head
    · rw [List.length_append, List.length_replicate]
      omega
  | @inner front back hsplit hfront hback =>
    obtain ⟨hpos, -, hlt, hlength⟩ := hfits
    rw [hsplit] at hspelled
    obtain ⟨i, f, hi, hf, hcoefficient⟩ := hspelled.of_append
    have hvalue : d.value = i + f / 10 ^ back.length := by
      have hexp : d.point - d.digits.length = -(back.length : Int) := by
        rw [hsplit, List.length_append]
        omega
      rw [Decimal.value, hexp, hcoefficient, zpow_neg, zpow_natCast]
      push_cast
      field_simp
    rw [hvalue] at hlow ⊢
    refine .point hfront hi hf (le_trans ?_ hlow) (hwhole hlt)
    exact millionth_le (by omega)
  | leading zeros =>
    obtain ⟨hpos, hle, hzeros⟩ := hfits
    have hvalue : d.value = ((0 : Nat) : ℚ) +
        d.coefficient / 10 ^ (List.replicate zeros '0' ++ d.digits).length := by
      have hexp : d.point - d.digits.length =
          -((List.replicate zeros '0' ++ d.digits).length : Int) := by
        rw [List.length_append, List.length_replicate]
        omega
      rw [Decimal.value, hexp, zpow_neg, zpow_natCast, ← div_eq_mul_inv, Nat.cast_zero, zero_add]
    rw [hvalue] at hlow ⊢
    have hzero : Spelled 10 ['0'] 0 := Spelled.nil.append_zero
    have hlength := List.length_pos_iff.mpr hproper.ne_nil
    refine .point (List.cons_ne_nil _ _) hzero (hspelled.zeros_append zeros) (le_trans ?_ hlow)
      (hwhole (by omega))
    exact millionth_le (by omega)
  | @exponential lead tail power hsplit =>
    obtain ⟨hfar, rfl⟩ := hfits
    have hvalue : d.value = d.coefficient * 10 ^ (d.point - 1 - tail.length) := by
      rw [Decimal.value, hsplit, List.length_cons]
      congr 2
      omega
    have hhead := hproper.head
    rw [hsplit] at hspelled hhead
    rw [hvalue]
    exact .power (fun h => hhead (by rw [h]; rfl)) hspelled (by omega)

/-! ## One text behind another -/

theorem isDigit_of_sign_append (h : ∀ c ∈ sign negative ++ t, c.isDigit) :
    negative = false ∧ ∀ c ∈ t, c.isDigit := by
  cases negative with
  | false => exact ⟨rfl, h⟩
  | true => exact absurd (h '-' (List.mem_cons_self ..)) (by decide)

/-- A text of digits only is that of a whole number. -/
theorem Shows.exists_whole (h : Shows m e t v) (hdigits : ∀ c ∈ t, c.isDigit) :
    ∃ n : Nat, v = n ∧ 1 ≤ n ∧ n < 10 ^ 21 ∧ t ≠ [] ∧ Spelled 10 t n := by
  cases h with
  | @whole word n hne hhead hlength hword =>
    have hle := hword.le_of_head hne hhead
    have hpos : 0 < 10 ^ (t.length - 1) := Nat.pow_pos (by decide)
    have hlt : n < 10 ^ 21 :=
      Nat.lt_of_lt_of_le hword.lt_pow (Nat.pow_le_pow_right (by decide) hlength)
    exact ⟨n, rfl, by omega, hlt, hne, hword⟩
  | point => exact absurd (hdigits '.' (by simp)) (by decide)
  | power => exact absurd (hdigits 'e' (by simp)) (by decide)

/-- The ways in which the texts of two numbers, one behind the other, can be the text of a third.
Exactly taken the three are `v`, `w` and `r`. -/
inductive Joined (m : Nat) (e : Int) (m'' : Nat) (e'' : Int) (v w r : ℚ) : Prop
  /-- Digits are put behind a whole number. -/
  | digits {count : Nat} (hcount : 0 < count) (hv : 1 ≤ v) (hw : 1 / 1000000 ≤ w)
      (hlt : w < 10 ^ count) (hr : r = v * 10 ^ count + w)
  /-- Digits are put behind those that follow a point. -/
  | fraction {i : Nat} (hi : i ≤ v) (hv : v < r) (hr : r < i + 1) (hw : 1 ≤ w)
      (hwhole : ∀ j : Nat, (m : ℚ) * 2 ^ e ≠ j) (hwhole' : ∀ j : Nat, (m'' : ℚ) * 2 ^ e'' ≠ j)
  /-- Digits and a point are put before an exponent. -/
  | mantissa (hv : 1 ≤ v) (hv' : v < 10)
      (hsize : w < 1 / 1000000 ∧ r < 1 / 1000000 ∨ 10 ^ 21 ≤ w)
  /-- Digits are put behind an exponent. -/
  | exponent (hw : 1 ≤ w) (hw' : w < 10 ^ 21)
      (hsize : v < 1 / 1000000 ∧ r < 1 / 1000000 ∨ 10 ^ 21 ≤ v ∧ 100 * v ≤ r)

/-! ## The three forms of the first text -/

theorem power_bounds {lead : Char} {tail : Text} (hlead : lead ≠ '0')
    (h : Spelled 10 (lead :: tail) n) (p : Int) :
    (10 : ℚ) ^ p ≤ n * 10 ^ (p - tail.length) ∧
      (n : ℚ) * 10 ^ (p - tail.length) < 10 ^ (p + 1) := by
  have hle : ((10 ^ tail.length : Nat) : ℚ) ≤ n := by
    exact_mod_cast h.le_of_head (List.cons_ne_nil _ _) (by simpa using hlead)
  have hlt : (n : ℚ) < (10 ^ (tail.length + 1) : Nat) := by exact_mod_cast h.lt_pow
  have hpos := ten_zpow_pos (p - tail.length)
  push_cast at hle hlt
  constructor
  · calc (10 : ℚ) ^ p = 10 ^ tail.length * 10 ^ (p - tail.length) := by
          rw [← zpow_natCast, ← zpow_add₀ (by norm_num)]
          congr 1
          omega
      _ ≤ n * 10 ^ (p - tail.length) := by gcongr
  · calc (n : ℚ) * 10 ^ (p - tail.length) < 10 ^ (tail.length + 1) * 10 ^ (p - tail.length) := by
          gcongr
      _ = 10 ^ (p + 1) := by
          rw [← zpow_natCast, ← zpow_add₀ (by norm_num)]
          congr 1
          push_cast
          omega

theorem large_le {p : Int} (h : 21 ≤ p) : (10 : ℚ) ^ 21 ≤ 10 ^ p := by
  calc (10 : ℚ) ^ 21 = 10 ^ (21 : Int) := by norm_num
    _ ≤ 10 ^ p := zpow_le_zpow_right₀ (by norm_num) h

theorem head_of_power (tail rest : Text) :
    ∀ c ∈ ((if tail = [] then [] else '.' :: tail) ++ 'e' :: rest).head?, c = '.' ∨ c = 'e' := by
  split <;> simp

theorem head_not_digit_of_power (tail rest : Text) :
    ∀ c ∈ ((if tail = [] then [] else '.' :: tail) ++ 'e' :: rest).head?, ¬ c.isDigit := by
  intro c hc
  rcases head_of_power tail rest c hc with rfl | rfl <;> decide

theorem not_mem_e_of_point {front back : Text} {i f : Nat} (hi : Spelled 10 front i)
    (hf : Spelled 10 back f) : 'e' ∉ front ++ '.' :: back := by
  have hfront := not_mem_of_digits hi.isDigit (c := 'e') rfl
  have hback := not_mem_of_digits hf.isDigit (c := 'e') rfl
  simp [hfront, hback]

theorem spelled_lead {lead : Char} {tail : Text} (h : Spelled 10 (lead :: tail) n) :
    (∀ c ∈ [lead], c.isDigit) ∧ ∀ c ∈ tail, c.isDigit := by
  have hall := h.isDigit
  rw [← List.singleton_append, List.forall_mem_append] at hall
  exact hall

/-- Digits stand in front. -/
theorem Shows.exists_front (h : Shows m e t v) :
    ∃ word rest, t = word ++ rest ∧ word ≠ [] ∧ (∀ c ∈ word, c.isDigit) ∧
      ∀ c ∈ rest.head?, ¬ c.isDigit := by
  cases h with
  | whole hne _ _ hword => exact ⟨t, [], by simp, hne, hword.isDigit, by simp⟩
  | point hfront hi hf _ _ => exact ⟨_, _, rfl, hfront, hi.isDigit, head_not_digit (c := '.') rfl _⟩
  | @power lead tail n p hlead hdigits hp =>
    exact ⟨[lead], _, rfl, List.cons_ne_nil _ _, (spelled_lead hdigits).1,
      head_not_digit_of_power tail _⟩

theorem joined_of_whole (hne : t ≠ []) (hpos : 1 ≤ n) (ht : Spelled 10 t n) (hu : Shows m' e' u w)
    (hz : Shows m'' e'' (t ++ (sign negative ++ u)) r) :
    negative = false ∧ Joined m e m'' e'' n w r := by
  generalize heq : t ++ (sign negative ++ u) = z at hz
  have hone : (1 : ℚ) ≤ n := by exact_mod_cast hpos
  cases hz with
  | @whole _ n'' _ _ _ hword =>
    subst heq
    obtain ⟨rfl, hdigits⟩ := isDigit_of_sign_append fun c hc =>
      hword.isDigit c (List.mem_append_right t hc)
    obtain ⟨k, rfl, hk, -, hne', hspelled⟩ := hu.exists_whole hdigits
    have hr : (n'' : ℚ) = n * 10 ^ u.length + k := by
      rw [hword.unique (ht.append hspelled)]
      push_cast
      rfl
    have hlt : (k : ℚ) < 10 ^ u.length := by exact_mod_cast hspelled.lt_pow
    have hk' : (1 : ℚ) ≤ k := by exact_mod_cast hk
    exact ⟨rfl, .digits (List.length_pos_iff.mpr hne') hone (le_trans (by norm_num) hk') hlt hr⟩
  | @point front' back' i' f' _ hi' hf' _ _ =>
    cases negative with
    | true =>
      obtain ⟨-, hrest⟩ := append_inj_of_digits ht.isDigit (head_not_digit (c := '-') rfl u)
        hi'.isDigit (head_not_digit (c := '.') rfl back') heq
      cases hrest
    | false =>
      replace heq : t ++ u = front' ++ '.' :: back' := heq
      cases hu with
      | @whole _ k _ _ _ hword =>
        have hmem : '.' ∈ t ++ u := heq ▸ by simp
        exact absurd ((ht.append hword).isDigit '.' hmem) (by decide)
      | @point front back i f hfront hi hf hlow _ =>
        rw [← List.append_assoc] at heq
        have hi'' := ht.append hi
        obtain ⟨rfl, hrest⟩ := append_inj_of_digits hi''.isDigit
          (head_not_digit (c := '.') rfl back) hi'.isDigit (head_not_digit (c := '.') rfl back') heq
        obtain rfl : back = back' := (List.cons.inj hrest).2
        have hlt : (i : ℚ) + f / 10 ^ back.length < 10 ^ front.length := by
          have hi₁ : ((i + 1 : Nat) : ℚ) ≤ (10 ^ front.length : Nat) := by
            exact_mod_cast hi.lt_pow
          have hf₁ := hf.div_lt_one
          push_cast at hi₁
          linarith
        have hr : (i' : ℚ) + f' / 10 ^ back.length =
            n * 10 ^ front.length + (i + f / 10 ^ back.length) := by
          rw [hi'.unique hi'', hf'.unique hf]
          push_cast
          ring
        exact ⟨rfl, .digits (List.length_pos_iff.mpr hfront) hone hlow hlt hr⟩
      | power =>
        exact absurd (heq ▸ by simp) (not_mem_e_of_point hi' hf')
  | @power lead' tail' n' p' _ hdigits' _ =>
    have hlead := (spelled_lead hdigits').1
    replace heq : t ++ (sign negative ++ u) =
      [lead'] ++ ((if tail' = [] then [] else '.' :: tail') ++ 'e' :: signed p') := heq
    cases negative with
    | true =>
      obtain ⟨-, hrest⟩ := append_inj_of_digits ht.isDigit (head_not_digit (c := '-') rfl u) hlead
        (head_not_digit_of_power tail' _) heq
      have hhead := head_of_power tail' (signed p') '-' (by rw [← hrest]; rfl)
      exact absurd hhead (by decide)
    | false =>
      obtain ⟨word, rest, rfl, hword, hdigits, hrest⟩ := hu.exists_front
      rw [show sign false ++ (word ++ rest) = word ++ rest from rfl, ← List.append_assoc] at heq
      have hboth : ∀ c ∈ t ++ word, c.isDigit := List.forall_mem_append.mpr ⟨ht.isDigit, hdigits⟩
      obtain ⟨hone, -⟩ :=
        append_inj_of_digits hboth hrest hlead (head_not_digit_of_power tail' _) heq
      have hlength := congrArg List.length hone
      have := List.length_pos_iff.mpr hne
      have := List.length_pos_iff.mpr hword
      simp only [List.length_append, List.length_singleton] at hlength
      omega

theorem joined_of_lead {lead : Char} {back : Text} {i f : Nat} {p : Int} (hlead : lead ≠ '0')
    (hi : Spelled 10 [lead] i) (hf : Spelled 10 back f) (hp : p ≤ -7 ∨ 21 ≤ p)
    (hw : 10 ^ p ≤ w) (hw' : w < 10 ^ (p + 1)) (hr : r < 10 ^ (p + 1)) :
    Joined m e m'' e'' (i + f / 10 ^ back.length) w r := by
  have hf₀ : (0 : ℚ) ≤ f / 10 ^ back.length := by positivity
  have hf₁ := hf.div_lt_one
  have hi₁ : (1 : ℚ) ≤ i := by
    exact_mod_cast hi.le_of_head (List.cons_ne_nil _ _) (by simpa using hlead)
  have hi₂ : (i : ℚ) ≤ 9 := by exact_mod_cast Nat.le_of_lt_succ hi.lt_pow
  refine .mantissa (by linarith) (by linarith) (hp.imp (fun hp => ?_) fun hp => ?_)
  · have hsmall := le_millionth (p := p + 1) (by omega)
    exact ⟨hw'.trans_le hsmall, hr.trans_le hsmall⟩
  · exact (large_le hp).trans hw

theorem joined_of_point {front back : Text} {i f : Nat} (hi : Spelled 10 front i)
    (hf : Spelled 10 back f) (hwhole : ∀ j : Nat, (m : ℚ) * 2 ^ e ≠ j) (hu : Shows m' e' u w)
    (hz : Shows m'' e'' (front ++ '.' :: back ++ (sign negative ++ u)) r) :
    negative = false ∧ Joined m e m'' e'' (i + f / 10 ^ back.length) w r := by
  rw [List.append_assoc, List.cons_append] at hz
  generalize heq : front ++ '.' :: (back ++ (sign negative ++ u)) = z at hz
  cases hz with
  | whole _ _ _ hword => exact absurd (hword.isDigit '.' (heq ▸ by simp)) (by decide)
  | @point front' back' i' f' _ hi' hf' _ hwhole' =>
    obtain ⟨rfl, hrest⟩ := append_inj_of_digits hi.isDigit (head_not_digit (c := '.') rfl _)
      hi'.isDigit (head_not_digit (c := '.') rfl back') heq
    obtain rfl := (List.cons.inj hrest).2
    obtain ⟨rfl, hdigits⟩ := isDigit_of_sign_append fun c hc =>
      hf'.isDigit c (List.mem_append_right back hc)
    obtain ⟨k, rfl, hk, -, -, hspelled⟩ := hu.exists_whole hdigits
    have hf'' := hf.append hspelled
    obtain rfl := hi'.unique hi
    obtain rfl : f' = f * 10 ^ u.length + k := hf'.unique hf''
    have hk' : (1 : ℚ) ≤ k := by exact_mod_cast hk
    have hpow : (10 : ℚ) ^ (back ++ (sign false ++ u)).length =
        10 ^ back.length * 10 ^ u.length := by
      rw [← pow_add]
      congr 1
      exact List.length_append
    have hlt : ((f * 10 ^ u.length + k : Nat) : ℚ) / (10 ^ back.length * 10 ^ u.length) < 1 := by
      rw [← hpow]
      exact hf'.div_lt_one
    have hmore : (f : ℚ) / 10 ^ back.length <
        ((f * 10 ^ u.length + k : Nat) : ℚ) / (10 ^ back.length * 10 ^ u.length) := by
      rw [div_lt_div_iff₀ (by positivity) (by positivity)]
      push_cast
      have : (0 : ℚ) < k * 10 ^ back.length := by positivity
      linarith
    have hf₀ : (0 : ℚ) ≤ f / 10 ^ back.length := by positivity
    rw [hpow]
    exact ⟨rfl, .fraction (le_add_of_nonneg_right hf₀) (by gcongr) (by gcongr) hk' hwhole hwhole'⟩
  | @power lead' tail' n' p' hlead' hdigits' hp' =>
    obtain ⟨hlead, htail⟩ := spelled_lead hdigits'
    obtain ⟨rfl, hrest⟩ := append_inj_of_digits hi.isDigit (head_not_digit (c := '.') rfl _) hlead
      (head_not_digit_of_power tail' (signed p')) heq
    split at hrest
    · cases hrest
    · replace hrest := (List.cons.inj hrest).2
      cases negative with
      | true =>
        obtain ⟨-, hminus⟩ := append_inj_of_digits hf.isDigit (head_not_digit (c := '-') rfl u)
          htail (head_not_digit (c := 'e') rfl _) hrest
        cases hminus
      | false =>
        replace hrest : back ++ u = tail' ++ 'e' :: signed p' := hrest
        cases hu with
        | whole _ _ _ hword =>
          have hmem : 'e' ∈ back ++ u := hrest ▸ by simp
          exact absurd ((hf.append hword).isDigit 'e' hmem) (by decide)
        | @point front back₁ i₁ f₁ _ hi₁ _ _ _ =>
          rw [← List.append_assoc] at hrest
          obtain ⟨-, hpoint⟩ := append_inj_of_digits (hf.append hi₁).isDigit
            (head_not_digit (c := '.') rfl back₁) htail (head_not_digit (c := 'e') rfl _) hrest
          cases hpoint
        | @power lead tail n p hlead₁ hdigits hp =>
          have hback : ∀ c ∈ back ++ [lead], c.isDigit :=
            List.forall_mem_append.mpr ⟨hf.isDigit, (spelled_lead hdigits).1⟩
          rw [← List.singleton_append, ← List.append_assoc] at hrest
          obtain ⟨rfl, hsigned⟩ := append_inj_of_digits hback (head_not_digit_of_power tail _) htail
            (head_not_digit (c := 'e') rfl _) hrest
          split at hsigned
          · rename_i hnil
            obtain rfl := signed_inj (List.cons.inj hsigned).2
            obtain ⟨hw, hw'⟩ := power_bounds hlead₁ hdigits p
            have hr := (power_bounds hlead' hdigits' p).2
            exact ⟨rfl, joined_of_lead hlead' hi hf hp hw hw' hr⟩
          · cases hsigned

theorem natAbs_of_signed_append {p p' : Int} {word : Text} {k : Nat} (hword : Spelled 10 word k)
    (h : signed p ++ word = signed p') :
    (0 ≤ p ↔ 0 ≤ p') ∧ p'.natAbs = p.natAbs * 10 ^ word.length + k := by
  obtain ⟨hsign, hdigits⟩ := List.cons.inj h
  constructor
  · have hplus : ('+' : Char) ≠ '-' := by decide
    split at hsign <;> split at hsign
    · simp [*]
    · exact absurd hsign hplus
    · exact absurd hsign.symm hplus
    · simp [*]
  · have hspelled := (spelled_digitsOf p.natAbs).append hword
    rw [show digitsOf p.natAbs ++ word = digitsOf p'.natAbs from hdigits] at hspelled
    exact (spelled_digitsOf p'.natAbs).unique hspelled

theorem joined_of_power {lead : Char} {tail : Text} {p : Int} (hlead : lead ≠ '0')
    (hdigits : Spelled 10 (lead :: tail) n) (hp : p ≤ -7 ∨ 21 ≤ p) (hu : Shows m' e' u w)
    (hz : Shows m'' e'' (lead :: ((if tail = [] then [] else '.' :: tail) ++ 'e' :: signed p) ++
      (sign negative ++ u)) r) :
    negative = false ∧ Joined m e m'' e'' (n * 10 ^ (p - tail.length)) w r := by
  rw [List.cons_append, List.append_assoc, List.cons_append] at hz
  generalize heq : lead :: ((if tail = [] then [] else '.' :: tail) ++
    'e' :: (signed p ++ (sign negative ++ u))) = z at hz
  cases hz with
  | whole _ _ _ hword => exact absurd (hword.isDigit 'e' (heq ▸ by simp)) (by decide)
  | @point front' back' i' f' _ hi' hf' _ _ =>
    exact absurd (heq ▸ by simp) (not_mem_e_of_point hi' hf')
  | @power lead' tail' n' p' hlead' hdigits' hp' =>
    obtain ⟨rfl, hrest⟩ := List.cons.inj heq
    have hsame : tail = tail' ∧ signed p ++ (sign negative ++ u) = signed p' := by
      split at hrest <;> split at hrest
      · rename_i hnil hnil'
        exact ⟨hnil.trans hnil'.symm, (List.cons.inj hrest).2⟩
      · cases hrest
      · cases hrest
      · obtain ⟨htail, hpower⟩ := append_inj_of_digits (spelled_lead hdigits).2
          (head_not_digit (c := 'e') rfl _) (spelled_lead hdigits').2
          (head_not_digit (c := 'e') rfl _) (List.cons.inj hrest).2
        exact ⟨htail, (List.cons.inj hpower).2⟩
    obtain ⟨rfl, hsigned⟩ := hsame
    obtain rfl := hdigits.unique hdigits'
    have hmore : ∀ c ∈ sign negative ++ u, c.isDigit := fun c hc =>
      (spelled_digitsOf p'.natAbs).isDigit c
        ((List.cons.inj hsigned).2 ▸ List.mem_append_right _ hc)
    obtain ⟨rfl, hword⟩ := isDigit_of_sign_append hmore
    obtain ⟨k, rfl, hk, hk', hne, hspelled⟩ := hu.exists_whole hword
    obtain ⟨hsign, habs⟩ := natAbs_of_signed_append hspelled hsigned
    have hten : p.natAbs * 10 ≤ p.natAbs * 10 ^ u.length :=
      Nat.mul_le_mul_left _ (Nat.le_self_pow (List.length_pos_iff.mpr hne).ne' 10)
    obtain ⟨hv, hv'⟩ := power_bounds hlead hdigits p
    obtain ⟨hr, hr'⟩ := power_bounds hlead hdigits p'
    refine ⟨rfl, .exponent (by exact_mod_cast hk) (by exact_mod_cast hk')
      (hp.imp (fun hp => ?_) fun hp => ?_)⟩
    · exact ⟨hv'.trans_le (le_millionth (by omega)), hr'.trans_le (le_millionth (by omega))⟩
    · refine ⟨(large_le hp).trans hv, ?_⟩
      calc 100 * (n * 10 ^ (p - tail.length)) ≤ 100 * (10 : ℚ) ^ (p + 1) := by gcongr
        _ = 10 ^ (p + 3) := by
          rw [show p + 3 = p + 1 + 2 by omega, zpow_add₀ (by norm_num) (p + 1) 2]
          ring
        _ ≤ 10 ^ p' := zpow_le_zpow_right₀ (by norm_num) (by omega)
        _ ≤ n * 10 ^ (p' - tail.length) := hr

theorem joined_of_append (ht : Shows m e t v) (hu : Shows m' e' u w)
    (hz : Shows m'' e'' (t ++ (sign negative ++ u)) r) :
    negative = false ∧ Joined m e m'' e'' v w r := by
  cases ht with
  | whole hne hhead hlength hword =>
    have hle := hword.le_of_head hne hhead
    exact joined_of_whole hne (le_trans (Nat.one_le_pow _ _ (by decide)) hle) hword hu hz
  | point _ hi hf _ hwhole => exact joined_of_point hi hf hwhole hu hz
  | power hlead hdigits hp => exact joined_of_power hlead hdigits hp hu hz

end Number

end LiteralFolding
