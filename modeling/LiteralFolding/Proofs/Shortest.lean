-- The shortest decimal of a number. The search looks at ever finer grids of multiples of a power of
-- ten and stops at the first that meets the interval of the number. A decimal in the interval is on
-- the grid of its digit count, or a power of ten that is nearer stands in for it, so no decimal with
-- fewer digits is in the interval; and on the grid with seventeen digits the search has stopped.
import LiteralFolding.Number.Reading
import LiteralFolding.Proofs.Decimals

namespace LiteralFolding

namespace Number

variable {i : Neighbourhood} {k m n : Nat} {e p : Int} {v w : ℚ} {negative : Bool}

theorem ten_zpow_pos (p : Int) : (0 : ℚ) < 10 ^ p := zpow_pos (by norm_num) p

/-- The digits of a number tell its size. -/
theorem digitsOf_bounds (hn : n ≠ 0) :
    10 ^ ((Decimal.digitsOf n).length - 1) ≤ n ∧ n < 10 ^ (Decimal.digitsOf n).length := by
  have hspelled := Decimal.spelled_digitsOf n
  exact ⟨hspelled.le_of_head Nat.toDigits_ne_nil (Text.head?_toDigits_ne (by decide) (by decide) hn),
    hspelled.lt_pow⟩

theorem length_digitsOf_pos (n : Nat) : 0 < (Decimal.digitsOf n).length :=
  List.length_pos_iff.mpr Nat.toDigits_ne_nil

namespace Neighbourhood

/-! ## Intervals -/

/-- The value lies inside the interval, and all of it is positive. -/
structure IsSound (i : Neighbourhood) : Prop where
  unit : 0 < i.unit
  low : 0 < i.low
  below : i.low < i.value
  above : i.value < i.high

/-- The number that the interval is around. -/
def center (i : Neighbourhood) : ℚ := i.value / i.unit

theorem IsSound.cast_unit (h : i.IsSound) : (0 : ℚ) < i.unit := by exact_mod_cast h.unit

theorem IsSound.center_mul (h : i.IsSound) : i.center * i.unit = i.value :=
  div_mul_cancel₀ _ h.cast_unit.ne'

theorem IsSound.contains_center (h : i.IsSound) : i.Contains i.center := by
  have hbelow : (i.low : ℚ) < i.value := by exact_mod_cast h.below
  have habove : (i.value : ℚ) < i.high := by exact_mod_cast h.above
  unfold Contains
  rw [h.center_mul]
  split
  · exact ⟨hbelow.le, habove.le⟩
  · exact ⟨hbelow, habove⟩

/-- What lies between two members of the interval is a member. -/
theorem Contains.between {x : ℚ} (hv : i.Contains v) (hw : i.Contains w) (hvx : v ≤ x) (hxw : x ≤ w) :
    i.Contains x := by
  have hunit : (0 : ℚ) ≤ i.unit := Nat.cast_nonneg _
  have hlow : v * i.unit ≤ x * i.unit := mul_le_mul_of_nonneg_right hvx hunit
  have hhigh : x * i.unit ≤ w * i.unit := mul_le_mul_of_nonneg_right hxw hunit
  unfold Contains at *
  split at hv
  · rename_i hclosed
    rw [if_pos hclosed] at hw ⊢
    exact ⟨hv.1.trans hlow, hhigh.trans hw.2⟩
  · rename_i hopen
    rw [if_neg hopen] at hw ⊢
    exact ⟨hv.1.trans_le hlow, hhigh.trans_lt hw.2⟩

theorem Contains.pos (h : i.Contains v) (hi : i.IsSound) : 0 < v := by
  have hlow : (0 : ℚ) < i.low := by exact_mod_cast hi.low
  have hle : (i.low : ℚ) ≤ v * i.unit := by
    unfold Contains at h
    split at h
    · exact h.1
    · exact h.1.le
  exact pos_of_mul_pos_left (hlow.trans_le hle) hi.cast_unit.le

/-! ## The power of ten -/

/-- A value of at least one: the digits of its whole part. -/
theorem IsSound.bounds_of_unit_le (h : i.IsSound) (hle : i.unit ≤ i.value) :
    (10 : ℚ) ^ (((Decimal.digitsOf (i.value / i.unit)).length : Int) - 1) ≤ i.center ∧
      i.center < 10 ^ ((Decimal.digitsOf (i.value / i.unit)).length : Int) := by
  have hunit := h.cast_unit
  obtain ⟨hlow, hhigh⟩ := digitsOf_bounds (Nat.div_pos hle h.unit).ne'
  have hlength := length_digitsOf_pos (i.value / i.unit)
  generalize (Decimal.digitsOf (i.value / i.unit)).length = length at hlow hhigh hlength
  rw [Nat.le_div_iff_mul_le h.unit] at hlow
  rw [Nat.div_lt_iff_lt_mul h.unit] at hhigh
  unfold center
  rw [show (length : Int) - 1 = (length - 1 : Nat) by omega, zpow_natCast, zpow_natCast,
    le_div_iff₀ hunit, div_lt_iff₀ hunit]
  exact ⟨by exact_mod_cast hlow, by exact_mod_cast hhigh⟩

/-- A value below one: the digits of its reciprocal, rounded up and less one, are the zeros behind
the point and one more. -/
theorem IsSound.bounds_of_lt_unit (h : i.IsSound) (hlt : i.value < i.unit) :
    (10 : ℚ) ^ (1 - ((Decimal.digitsOf ((i.unit - 1) / i.value)).length : Int) - 1) ≤ i.center ∧
      i.center < 10 ^ (1 - ((Decimal.digitsOf ((i.unit - 1) / i.value)).length : Int)) := by
  have hunit := h.cast_unit
  have hpos : 0 < i.value := h.low.trans h.below
  obtain ⟨hlow, hhigh⟩ := digitsOf_bounds (Nat.div_pos (by omega : i.value ≤ i.unit - 1) hpos).ne'
  have hlength := length_digitsOf_pos ((i.unit - 1) / i.value)
  generalize (Decimal.digitsOf ((i.unit - 1) / i.value)).length = length at hlow hhigh hlength
  rw [Nat.le_div_iff_mul_le hpos] at hlow
  rw [Nat.div_lt_iff_lt_mul hpos] at hhigh
  have hlow : 10 ^ (length - 1) * i.value < i.unit := by omega
  have hhigh : i.unit ≤ 10 ^ length * i.value := by omega
  have hlow : (10 : ℚ) ^ (length - 1) * i.value < i.unit := by exact_mod_cast hlow
  have hhigh : (i.unit : ℚ) ≤ 10 ^ length * i.value := by exact_mod_cast hhigh
  unfold center
  rw [show (1 : Int) - length - 1 = -(length : Int) by omega,
    show (1 : Int) - length = -((length - 1 : Nat) : Int) by omega, zpow_neg, zpow_neg,
    zpow_natCast, zpow_natCast, le_div_iff₀ hunit, div_lt_iff₀ hunit]
  constructor
  · rwa [inv_mul_le_iff₀ (by positivity)]
  · rwa [lt_inv_mul_iff₀ (by positivity)]

/-- The magnitude is the power of ten just above the value. -/
theorem IsSound.magnitude_bounds (h : i.IsSound) :
    (10 : ℚ) ^ (i.magnitude - 1) ≤ i.center ∧ i.center < 10 ^ i.magnitude := by
  unfold magnitude
  split
  · rename_i hle
    exact h.bounds_of_unit_le hle
  · rename_i hlt
    have hpos : 0 < i.value := h.low.trans h.below
    have hunit := h.unit
    have hsum : i.unit + i.value - 1 = i.value + (i.unit - 1) := by omega
    have hdiv : (i.unit + i.value - 1) / i.value - 1 = (i.unit - 1) / i.value := by
      rw [hsum, Nat.add_div_left _ hpos, Nat.add_sub_cancel]
    dsimp only
    rw [hdiv]
    exact h.bounds_of_lt_unit (Nat.not_le.mp hlt)

/-! ## Grids -/

/-- The last multiple of `10 ^ p` that is not above the value. -/
def below (i : Neighbourhood) (p : Int) : Nat :=
  i.value * Nat.pow 10 (-p).toNat / (i.unit * Nat.pow 10 p.toNat)

/-- The interval with its numbers multiplied up, so that a negative power of ten is whole. -/
def scaled (i : Neighbourhood) (p : Int) : Neighbourhood :=
  { low := i.low * Nat.pow 10 (-p).toNat, value := i.value * Nat.pow 10 (-p).toNat,
    high := i.high * Nat.pow 10 (-p).toNat, unit := i.unit, closed := i.closed }

/-- Comparisons with a multiple of a power of ten, in whole numbers. -/
theorem cast_grid (n k unit : Nat) (p : Int) :
    (n * Nat.pow 10 (-p).toNat ≤ k * (unit * Nat.pow 10 p.toNat) ↔ (n : ℚ) ≤ k * 10 ^ p * unit) ∧
      (k * (unit * Nat.pow 10 p.toNat) ≤ n * Nat.pow 10 (-p).toNat ↔ k * 10 ^ p * unit ≤ (n : ℚ)) := by
  have hup : (0 : ℚ) < 10 ^ (-p).toNat := by positivity
  have hgrid : (k : ℚ) * 10 ^ p * unit = k * (unit * 10 ^ p.toNat) / 10 ^ (-p).toNat := by
    rw [zpow_eq_div (by norm_num) p]
    ring
  rw [hgrid, le_div_iff₀ hup, div_le_iff₀ hup, ← @Nat.cast_le ℚ, ← @Nat.cast_le ℚ, Nat.pow_eq,
    Nat.pow_eq]
  push_cast
  exact ⟨Iff.rfl, Iff.rfl⟩

theorem holds_scaled_iff (i : Neighbourhood) (p : Int) (k : Nat) :
    (i.scaled p).holds (k * (i.unit * Nat.pow 10 p.toNat)) = true ↔ i.Contains (k * 10 ^ p) := by
  obtain ⟨hlow, hlow'⟩ := cast_grid i.low k i.unit p
  obtain ⟨hhigh, hhigh'⟩ := cast_grid i.high k i.unit p
  unfold holds Contains scaled
  dsimp only
  split
  · rw [Bool.and_eq_true, decide_eq_true_eq, decide_eq_true_eq, hlow, hhigh']
  · rw [Bool.and_eq_true, decide_eq_true_eq, decide_eq_true_eq, ← not_le, ← not_le, hlow', hhigh,
      not_le, not_le]

theorem IsSound.below_le (h : i.IsSound) (p : Int) : (i.below p : ℚ) * 10 ^ p ≤ i.center := by
  have hle : i.below p * (i.unit * Nat.pow 10 p.toNat) ≤ i.value * Nat.pow 10 (-p).toNat :=
    Nat.div_mul_le_self _ _
  rw [(cast_grid ..).2, ← h.center_mul] at hle
  exact le_of_mul_le_mul_right hle h.cast_unit

theorem IsSound.lt_above (h : i.IsSound) (p : Int) :
    i.center < ((i.below p + 1 : Nat) : ℚ) * 10 ^ p := by
  have hstep : 0 < i.unit * Nat.pow 10 p.toNat := Nat.mul_pos h.unit (Nat.pow_pos (by decide))
  have hlt : ¬ (i.below p + 1) * (i.unit * Nat.pow 10 p.toNat) ≤ i.value * Nat.pow 10 (-p).toNat :=
    Nat.not_le.mpr (Nat.lt_mul_of_div_lt (Nat.lt_succ_self _) hstep)
  rw [(cast_grid ..).2, ← h.center_mul, not_le] at hlt
  exact lt_of_mul_lt_mul_right hlt h.cast_unit.le

/-- The multiple `n` of `10 ^ p` is in the interval, at most one past the value, and no other in the
interval is nearer. -/
structure Hits (i : Neighbourhood) (p : Int) (n : Nat) : Prop where
  contains : i.Contains (n * 10 ^ p)
  le : n ≤ i.below p + 1
  nearest : ∀ k : Nat, i.Contains (k * 10 ^ p) → |n * 10 ^ p - i.center| ≤ |k * 10 ^ p - i.center|

/-- For a multiple in the interval one of the two neighbours of the value is in it and as near. -/
theorem IsSound.neighbour (h : i.IsSound) (hk : i.Contains (k * 10 ^ p)) :
    i.Contains (i.below p * 10 ^ p) ∧ |i.below p * 10 ^ p - i.center| ≤ |k * 10 ^ p - i.center| ∨
      i.Contains ((i.below p + 1 : Nat) * 10 ^ p) ∧
        |(i.below p + 1 : Nat) * 10 ^ p - i.center| ≤ |k * 10 ^ p - i.center| := by
  have hpos := (ten_zpow_pos p).le
  have hbelow := h.below_le p
  have habove := h.lt_above p
  rcases Nat.lt_or_ge (i.below p) k with hlt | hge
  · have hle : ((i.below p + 1 : Nat) : ℚ) * 10 ^ p ≤ k * 10 ^ p :=
      mul_le_mul_of_nonneg_right (by exact_mod_cast hlt) hpos
    refine .inr ⟨h.contains_center.between hk habove.le hle, ?_⟩
    rw [abs_of_nonneg (by linarith), abs_of_nonneg (by linarith)]
    linarith
  · have hle : (k : ℚ) * 10 ^ p ≤ i.below p * 10 ^ p :=
      mul_le_mul_of_nonneg_right (by exact_mod_cast hge) hpos
    refine .inl ⟨hk.between h.contains_center hle hbelow, ?_⟩
    rw [abs_of_nonpos (by linarith), abs_of_nonpos (by linarith)]
    linarith

/-- Two neighbours are compared in whole numbers. -/
theorem IsSound.nearer_iff (h : i.IsSound) (p : Int) :
    2 * (i.scaled p).value < (i.below p + (i.below p + 1)) * (i.unit * Nat.pow 10 p.toNat) ↔
      |i.below p * 10 ^ p - i.center| < |(i.below p + 1 : Nat) * 10 ^ p - i.center| := by
  have hbelow := h.below_le p
  have habove := h.lt_above p
  have hunit := h.cast_unit
  have hgrid := (cast_grid (2 * i.value) (i.below p + (i.below p + 1)) i.unit p).2
  have hscaled : 2 * (i.scaled p).value = 2 * i.value * Nat.pow 10 (-p).toNat :=
    (Nat.mul_assoc ..).symm
  rw [abs_of_nonpos (by linarith), abs_of_nonneg (by linarith), hscaled, ← Nat.not_le, hgrid,
    Nat.cast_mul, ← h.center_mul, ← mul_assoc, mul_le_mul_iff_left₀ hunit, not_le]
  push_cast
  constructor <;> intro hlt <;> linarith

/-- A grid has a multiple in the interval or it has none, and the look at the two neighbours tells. -/
theorem IsSound.onGrid?_cases (h : i.IsSound) (p : Int) :
    i.onGrid? p = none ∧ (∀ k : Nat, ¬ i.Contains (k * 10 ^ p)) ∨
      ∃ n, i.onGrid? p = some n ∧ i.Hits p n := by
  have hlower := holds_scaled_iff i p (i.below p)
  have hupper := holds_scaled_iff i p (i.below p + 1)
  have hneighbour := fun (k : Nat) hk => h.neighbour (k := k) (p := p) hk
  unfold onGrid?
  dsimp only
  split
  · rename_i hno hno'
    refine .inl ⟨rfl, fun k hk => ?_⟩
    rcases hneighbour k hk with ⟨hin, -⟩ | ⟨hin, -⟩
    · exact Bool.false_ne_true (hno.symm.trans (hlower.mpr hin))
    · exact Bool.false_ne_true (hno'.symm.trans (hupper.mpr hin))
  · rename_i hyes hno
    refine .inr ⟨i.below p, rfl, hlower.mp hyes, Nat.le_succ _, fun k hk => ?_⟩
    rcases hneighbour k hk with ⟨-, hle⟩ | ⟨hin, -⟩
    · exact hle
    · exact absurd (hno.symm.trans (hupper.mpr hin)) Bool.false_ne_true
  · rename_i hno hyes
    refine .inr ⟨i.below p + 1, rfl, hupper.mp hyes, Nat.le_refl _, fun k hk => ?_⟩
    rcases hneighbour k hk with ⟨hin, -⟩ | ⟨-, hle⟩
    · exact absurd (hno.symm.trans (hlower.mpr hin)) Bool.false_ne_true
    · exact hle
  · rename_i hyes hyes'
    refine .inr ⟨_, rfl, ?_⟩
    split
    · rename_i hlt
      have hlt := (h.nearer_iff p).mp hlt
      refine ⟨hlower.mp hyes, Nat.le_succ _, fun k hk => ?_⟩
      rcases hneighbour k hk with ⟨-, hle⟩ | ⟨-, hle⟩
      · exact hle
      · exact hlt.le.trans hle
    · rename_i hge
      have hge := not_lt.mp (mt (h.nearer_iff p).mpr hge)
      refine ⟨hupper.mp hyes', Nat.le_refl _, fun k hk => ?_⟩
      rcases hneighbour k hk with ⟨-, hle⟩ | ⟨-, hle⟩
      · exact hge.trans hle
      · exact hle

/-! ## The search -/

/-- The search stops at the first grid that meets the interval, if one of the grids does. -/
theorem IsSound.search_eq (h : i.IsSound) {count : Nat} (hk : i.Contains (k * 10 ^ (p - count))) :
    ∃ j n : Nat, j ≤ count ∧ (∀ s < j, ∀ k : Nat, ¬ i.Contains (k * 10 ^ (p - s))) ∧
      i.Hits (p - j) n ∧ i.search (count + 1) p = Decimal.ofScaled n (p - j) := by
  induction count generalizing p with
  | zero =>
    rw [Nat.cast_zero, sub_zero] at hk
    rcases h.onGrid?_cases p with ⟨-, hnone⟩ | ⟨n, heq, hhits⟩
    · exact absurd hk (hnone k)
    · refine ⟨0, n, Nat.le_refl _, by simp, ?_, ?_⟩
      · simpa using hhits
      · simp [search, heq]
  | succ count ih =>
    rcases h.onGrid?_cases p with ⟨heq, hnone⟩ | ⟨n, heq, hhits⟩
    · have hnext : p - (count + 1 : Nat) = p - 1 - count := by
        push_cast
        ring
      rw [hnext] at hk
      obtain ⟨j, n, hj, hcoarser, hhits, hsearch⟩ := ih hk
      have hpower : p - 1 - j = p - (j + 1 : Nat) := by
        push_cast
        ring
      refine ⟨j + 1, n, by omega, ?_, hpower ▸ hhits, ?_⟩
      · intro s hs
        cases s with
        | zero => simpa using hnone
        | succ s =>
          have hpower : p - (s + 1 : Nat) = p - 1 - s := by
            push_cast
            ring
          rw [hpower]
          exact hcoarser s (by omega)
      · rw [search, heq]
        exact hsearch.trans (by rw [hpower])
    · refine ⟨0, n, Nat.zero_le _, by simp, ?_, ?_⟩
      · simpa using hhits
      · rw [search, heq]
        simp

/-- A decimal in the interval gives a multiple of the power of ten for its digit count: itself, or
the power of ten below the value, which is nearer. -/
theorem IsSound.exists_multiple (h : i.IsSound) {d : Decimal} (hd : d.IsProper)
    (hin : i.Contains d.value) :
    ∃ k : Nat, i.Contains (k * 10 ^ (i.magnitude - d.digits.length)) ∧
      |k * 10 ^ (i.magnitude - d.digits.length) - i.center| ≤ |d.value - i.center| := by
  have hten : (10 : ℚ) ≠ 0 := by norm_num
  have hlength := List.length_pos_iff.mpr hd.ne_nil
  have hcenter := h.magnitude_bounds.1
  rcases le_or_gt i.magnitude d.point with hle | hlt
  · refine ⟨d.coefficient * 10 ^ (d.point - i.magnitude).toNat, ?_⟩
    have hvalue : ((d.coefficient * 10 ^ (d.point - i.magnitude).toNat : Nat) : ℚ) *
        10 ^ (i.magnitude - d.digits.length) = d.value := by
      push_cast
      rw [Decimal.value, mul_assoc, ← zpow_natCast, ← zpow_add₀ hten]
      congr 2
      omega
    rw [hvalue]
    exact ⟨hin, le_rfl⟩
  · refine ⟨10 ^ (d.digits.length - 1), ?_⟩
    have hvalue : ((10 ^ (d.digits.length - 1) : Nat) : ℚ) * 10 ^ (i.magnitude - d.digits.length) =
        10 ^ (i.magnitude - 1) := by
      push_cast
      rw [← zpow_natCast, ← zpow_add₀ hten]
      congr 1
      omega
    have hbelow : d.value ≤ 10 ^ (i.magnitude - 1) :=
      hd.value_bounds.2.le.trans (zpow_le_zpow_right₀ (by norm_num) (by omega))
    rw [hvalue]
    refine ⟨hin.between h.contains_center hbelow hcenter, ?_⟩
    rw [abs_of_nonpos (by linarith), abs_of_nonpos (by linarith)]
    linarith

/-- A multiple that the value's neighbours bound has no more digits than its grid. -/
theorem IsSound.length_le_of_hits (h : i.IsSound) {j : Nat} (hhits : i.Hits (i.magnitude - 1 - j) n)
    {d : Decimal} (hd : d.IsProper) (hvalue : d.value = n * 10 ^ (i.magnitude - 1 - j)) :
    d.digits.length ≤ j + 1 := by
  have hpos := ten_zpow_pos (i.magnitude - 1 - j)
  have hbelow : i.below (i.magnitude - 1 - j) < 10 ^ (j + 1) := by
    have hlt := (h.below_le (i.magnitude - 1 - j)).trans_lt h.magnitude_bounds.2
    have hpower : (10 : ℚ) ^ i.magnitude = 10 ^ (j + 1) * 10 ^ (i.magnitude - 1 - j) := by
      rw [← zpow_natCast, ← zpow_add₀ (by norm_num)]
      congr 1
      omega
    rw [hpower] at hlt
    exact_mod_cast lt_of_mul_lt_mul_right hlt hpos.le
  rcases Nat.lt_or_ge n (10 ^ (j + 1)) with hlt | hge
  · exact hd.length_le hvalue hlt
  · have hn : n = 10 ^ (j + 1) := by
      have hle := hhits.le
      omega
    have hone : d.value = (1 : Nat) * 10 ^ i.magnitude := by
      rw [hvalue, hn, Nat.cast_one, one_mul, Nat.cast_pow, Nat.cast_ofNat, ← zpow_natCast,
        ← zpow_add₀ (by norm_num)]
      congr 1
      omega
    exact hd.length_le hone (Nat.one_lt_pow (by omega) (by decide))

/-- What the search finds in an interval that a fine enough grid meets: a decimal of the interval
with as few digits as any, and no farther from the value than any other with as few. -/
theorem IsSound.search_spec (h : i.IsSound) {count : Nat}
    (hk : i.Contains (k * 10 ^ (i.magnitude - 1 - count))) :
    let d := i.search (count + 1) (i.magnitude - 1)
    d.IsProper ∧ i.Contains d.value ∧ ∀ d' : Decimal, d'.IsProper → i.Contains d'.value →
      d.digits.length ≤ d'.digits.length ∧
        (d'.digits.length = d.digits.length → |d.value - i.center| ≤ |d'.value - i.center|) := by
  obtain ⟨j, n, -, hcoarser, hhits, hsearch⟩ := h.search_eq hk
  have hpower : ∀ length : Nat, 0 < length →
      i.magnitude - length = i.magnitude - 1 - (length - 1 : Nat) := by
    intro length hlength
    omega
  have hn : n ≠ 0 := by
    rintro rfl
    have hpos := hhits.contains.pos h
    simp at hpos
  obtain ⟨hproper, hvalue⟩ := Decimal.ofScaled_spec hn (i.magnitude - 1 - j)
  have hlength := h.length_le_of_hits hhits hproper hvalue
  rw [hsearch]
  refine ⟨hproper, hvalue ▸ hhits.contains, fun d' hd' hin => ?_⟩
  have hpos := List.length_pos_iff.mpr hd'.ne_nil
  obtain ⟨k, hgrid, hnear⟩ := h.exists_multiple hd' hin
  rw [hpower _ hpos] at hgrid hnear
  have hfewest : j + 1 ≤ d'.digits.length := by
    by_contra hfewer
    exact hcoarser (d'.digits.length - 1) (by omega) k hgrid
  refine ⟨by omega, fun heq => ?_⟩
  have hgridj : d'.digits.length - 1 = j := by omega
  rw [hgridj] at hgrid hnear
  rw [hvalue]
  exact (hhits.nearest k hgrid).trans hnear

end Neighbourhood

/-! ## The interval of a number -/

theorem isSound_around (hm : m ≠ 0) (e : Int) : (Neighbourhood.around m e).IsSound := by
  have hscale : 0 < Nat.pow 2 (e - 2).toNat := Nat.pow_pos (by decide)
  have hpart : (if m = Nat.pow 2 52 ∧ minExponent < e then 1 else 2) ≤ 2 ∧
      0 < if m = Nat.pow 2 52 ∧ minExponent < e then 1 else 2 := by
    split <;> decide
  unfold Neighbourhood.around
  dsimp only
  generalize (if m = Nat.pow 2 52 ∧ minExponent < e then 1 else 2) = part at hpart
  exact ⟨Nat.pow_pos (by decide), Nat.mul_pos (by omega) hscale,
    Nat.mul_lt_mul_of_pos_right (by omega) hscale, Nat.mul_lt_mul_of_pos_right (by omega) hscale⟩

theorem center_around (m : Nat) (e : Int) : (Neighbourhood.around m e).center = m * 2 ^ e := by
  obtain ⟨c, -, hscale, hvalue⟩ := exists_quarter (m * 2 ^ e) e
  have hpos := two_zpow_pos e
  have hunit : ((Nat.pow 2 (2 - e).toNat : Nat) : ℚ) ≠ 0 := by
    exact_mod_cast (Nat.pow_pos (by decide)).ne'
  unfold Neighbourhood.center Neighbourhood.around
  dsimp only
  rw [div_eq_iff hunit, hvalue, mul_div_cancel_right₀ _ hpos.ne', Nat.cast_mul, hscale]
  push_cast
  ring

/-- What is less than half of the last bit away is in the interval; below a power of two, less than
a quarter. -/
theorem contains_of_near (hm : m ≠ 0) (hlow : (m : ℚ) - reach m e < v / 2 ^ e)
    (hhigh : v / 2 ^ e < m + 1 / 2) : (Neighbourhood.around m e).Contains v := by
  rw [contains_around_iff hm]
  split
  · exact ⟨hlow.le, hhigh.le⟩
  · exact ⟨hlow, hhigh⟩

/-- Multiples of the power of ten for seventeen digits are less than the last bit apart, so one of
the two around a number is read as the number. -/
theorem contains_of_seventeen (hm : m ≠ 0) (hx : (Number.finite negative m e).IsFinite) :
    ∃ k : Nat, (Neighbourhood.around m e).Contains
      (k * 10 ^ ((Neighbourhood.around m e).magnitude - 1 - (16 : Nat))) := by
  have hsound := isSound_around hm e
  have hmagnitude := hsound.magnitude_bounds.1
  rw [center_around] at hmagnitude
  generalize hp : (Neighbourhood.around m e).magnitude - 1 - (16 : Nat) = p
  have hbelow := hsound.below_le p
  have habove := hsound.lt_above p
  rw [center_around] at hbelow habove
  generalize (Neighbourhood.around m e).below p = k at hbelow habove
  have hpower : (10 : ℚ) ^ ((Neighbourhood.around m e).magnitude - 1) = 10 ^ 16 * 10 ^ p := by
    rw [← hp, ← zpow_natCast, ← zpow_add₀ (by norm_num)]
    congr 1
    omega
  have hpos := two_zpow_pos e
  have hm53 : (m : ℚ) < 2 ^ 53 := by exact_mod_cast hx.1
  -- all in units of the last bit
  rw [← div_le_iff₀ hpos, hpower, mul_div_assoc] at hmagnitude
  rw [← div_le_iff₀ hpos] at hbelow
  rw [← lt_div_iff₀ hpos] at habove
  have hnext : ((k + 1 : Nat) : ℚ) * 10 ^ p / 2 ^ e = k * 10 ^ p / 2 ^ e + 10 ^ p / 2 ^ e := by
    push_cast
    ring
  rw [hnext] at habove
  rcases reach_cases m e with ⟨rfl, -, hreach⟩ | ⟨-, hreach⟩
  · refine ⟨k + 1, contains_of_near hm ?_ ?_⟩
    · rw [hnext, hreach]
      linarith
    · rw [hnext]
      push_cast at *
      linarith
  · rcases le_or_gt (m : ℚ) (k * 10 ^ p / 2 ^ e + 10 ^ p / 2 ^ e - 1 / 2) with hfar | hnear
    · refine ⟨k, contains_of_near hm ?_ (by linarith)⟩
      rw [hreach]
      linarith
    · refine ⟨k + 1, contains_of_near hm ?_ ?_⟩
      · rw [hnext, hreach]
        linarith
      · rw [hnext]
        linarith

/-! ## Reading back -/

/-- What is read as a number of the format is neither very small nor very large. -/
theorem bounds_of_contains (hm : m ≠ 0) (hx : (Number.finite negative m e).IsFinite)
    (h : (Neighbourhood.around m e).Contains v) : (2 : ℚ) ^ (-1075 : Int) ≤ v ∧ v ≤ 2 ^ (1024 : Int) := by
  obtain ⟨hlt, hleast, hmost, -⟩ := hx
  have hpos := two_zpow_pos e
  have hone : (1 : ℚ) ≤ m := by exact_mod_cast Nat.one_le_iff_ne_zero.mpr hm
  have hm53 : (m : ℚ) + 1 ≤ 2 ^ 53 := by exact_mod_cast hlt
  have hbounds := bounds_of_contains_around hm h
  have hhalf : 1 / 2 ≤ v / 2 ^ e := by
    rcases reach_cases m e with ⟨-, -, hreach⟩ | ⟨-, hreach⟩ <;> rw [hreach] at hbounds <;> linarith
  have hfull : v / 2 ^ e ≤ 2 ^ 53 := by linarith
  rw [le_div_iff₀ hpos] at hhalf
  rw [div_le_iff₀ hpos] at hfull
  have hstep : (2 : ℚ) ^ minExponent = 2 * 2 ^ (-1075 : Int) := by
    rw [← two_zpow_add_one]
    rfl
  constructor
  · calc (2 : ℚ) ^ (-1075 : Int) = 1 / 2 * 2 ^ minExponent := by
          rw [hstep]
          ring
      _ ≤ 1 / 2 * 2 ^ e := by gcongr; norm_num
      _ ≤ v := hhalf
  · calc v ≤ 2 ^ 53 * 2 ^ e := hfull
      _ ≤ 2 ^ 53 * 2 ^ maxExponent := by gcongr; norm_num
      _ = 2 ^ (1024 : Int) := by
          rw [maxExponent, ← zpow_natCast, ← zpow_add₀ (by norm_num)]
          rfl

/-- The place of the first digit bounds a number times a power of ten. -/
theorem top_bounds (hn : n ≠ 0) (p : Int) :
    (10 : ℚ) ^ ((Decimal.digitsOf n).length + p - 1) ≤ n * 10 ^ p ∧
      (n : ℚ) * 10 ^ p < 10 ^ ((Decimal.digitsOf n).length + p) := by
  have hten : (10 : ℚ) ≠ 0 := by norm_num
  have hpos := ten_zpow_pos p
  obtain ⟨hlow, hhigh⟩ := digitsOf_bounds hn
  have hlength := length_digitsOf_pos n
  generalize (Decimal.digitsOf n).length = length at hlow hhigh hlength
  have hlow : (10 : ℚ) ^ (length - 1) ≤ n := by exact_mod_cast hlow
  have hhigh : (n : ℚ) < 10 ^ length := by exact_mod_cast hhigh
  have hexp : (length : Int) + p - 1 = (length - 1 : Nat) + p := by omega
  rw [hexp, zpow_add₀ hten, zpow_add₀ hten, zpow_natCast, zpow_natCast]
  exact ⟨mul_le_mul_of_nonneg_right hlow hpos.le, mul_lt_mul_of_pos_right hhigh hpos⟩

theorem two_zpow_le_ten_zpow {a b : Int} (hb : 0 ≤ b) (h : a ≤ 3 * b) : (2 : ℚ) ^ a ≤ 10 ^ b :=
  calc (2 : ℚ) ^ a ≤ 2 ^ (3 * b) := zpow_le_zpow_right₀ (by norm_num) h
    _ = (2 ^ (3 : Int)) ^ b := zpow_mul 2 3 b
    _ ≤ 10 ^ b := zpow_le_zpow_left₀ hb (by norm_num) (by norm_num)

/-- What is read as a number of the format has its first digit within 400 places of the point. -/
theorem top_of_contains (hn : n ≠ 0) (hm : m ≠ 0) (hx : (Number.finite negative m e).IsFinite)
    (h : (Neighbourhood.around m e).Contains (n * 10 ^ p)) :
    -400 ≤ (Decimal.digitsOf n).length + p ∧ (Decimal.digitsOf n).length + p ≤ 400 := by
  obtain ⟨hlow, hhigh⟩ := top_bounds hn p
  obtain ⟨hleast, hmost⟩ := bounds_of_contains hm hx h
  generalize ((Decimal.digitsOf n).length : Int) + p = top at *
  constructor
  · by_contra hsmall
    have hpow : (2 : ℚ) ^ (1075 : Int) ≤ 10 ^ (-top) := two_zpow_le_ten_zpow (by omega) (by omega)
    rw [zpow_neg, le_inv_comm₀ (two_zpow_pos _) (ten_zpow_pos _), ← zpow_neg] at hpow
    exact absurd (hleast.trans_lt hhigh) (not_lt.mpr hpow)
  · by_contra hlarge
    have hpow : (2 : ℚ) ^ (1200 : Int) ≤ 10 ^ (top - 1) := two_zpow_le_ten_zpow (by omega) (by omega)
    have hmore : (2 : ℚ) ^ (1024 : Int) < 2 ^ (1200 : Int) :=
      zpow_lt_zpow_right₀ (by norm_num) (by norm_num)
    exact absurd ((hmore.trans_le hpow).trans_le hlow) (not_lt.mpr hmost)

/-- A decimal is read as the number whose interval it is in. -/
theorem ofDecimal_eq_finite_iff (hn : n ≠ 0) (hm : m ≠ 0)
    (hx : (Number.finite negative m e).IsFinite) (p : Int) :
    ofDecimal negative n p = .finite negative m e ↔
      (Neighbourhood.around m e).Contains (n * 10 ^ p) := by
  have htop := fun h => top_of_contains (p := p) hn hm hx h
  unfold ofDecimal
  dsimp only
  change (if n = 0 ∨ (Decimal.digitsOf n).length + p < -400 then _ else
    if 400 < (Decimal.digitsOf n).length + p then _ else _) = _ ↔ _
  split
  · rename_i hsmall
    refine iff_of_false (fun h => ?_) fun h => ?_
    · cases h
      exact hm rfl
    · have := htop h
      omega
  · split
    · refine iff_of_false (fun h => by cases h) fun h => ?_
      have := htop h
      omega
    · have hup : Nat.pow 10 p.toNat ≠ 0 := (Nat.pow_pos (by decide)).ne'
      have hdown : Nat.pow 10 (-p).toNat ≠ 0 := (Nat.pow_pos (by decide)).ne'
      have hratio : ((n * Nat.pow 10 p.toNat : Nat) : ℚ) / (Nat.pow 10 (-p).toNat : Nat) =
          n * 10 ^ p := by
        rw [zpow_eq_div (by norm_num) p, Nat.pow_eq, Nat.pow_eq]
        push_cast
        ring
      rw [ofRatio_eq_finite_iff (Nat.mul_ne_zero hn hup) hdown hm hx, hratio]

end Number

namespace Decimal

variable {d : Decimal} {m : Nat} {e : Int}

/-- The number that a decimal is read as. -/
def number (d : Decimal) : Number :=
  Number.ofDecimal false d.coefficient (d.point - d.digits.length)

/-- Of the proper decimals that are read as a number, one with the fewest digits, and of those with
as many digits one that is nearest to the number. -/
structure IsShortest (d : Decimal) (x : Number) : Prop where
  proper : d.IsProper
  reads : d.number = x
  fewest : ∀ d' : Decimal, d'.IsProper → d'.number = x → d.digits.length ≤ d'.digits.length
  nearest : ∀ d' : Decimal, d'.IsProper → d'.number = x → d'.digits.length = d.digits.length →
    |d.value - x.value| ≤ |d'.value - x.value|

theorem IsProper.number_eq_iff (h : d.IsProper) (hm : m ≠ 0)
    (hx : (Number.finite false m e).IsFinite) :
    d.number = .finite false m e ↔ (Number.Neighbourhood.around m e).Contains d.value := by
  have hne : d.coefficient ≠ 0 := by
    have hle := h.le_coefficient
    have hpow : 0 < 10 ^ (d.digits.length - 1) := Nat.pow_pos (by decide)
    omega
  exact Number.ofDecimal_eq_finite_iff hne hm hx _

/-- The search with seventeen grids finds the shortest decimal of every positive number. -/
theorem isShortest_shortest (hm : m ≠ 0) (hx : (Number.finite false m e).IsFinite) :
    (Number.shortest m e).IsShortest (.finite false m e) := by
  obtain ⟨k, hk⟩ := Number.contains_of_seventeen hm hx
  obtain ⟨hproper, hin, hleast⟩ := (Number.isSound_around hm e).search_spec hk
  have hreads := fun (d : Decimal) (h : d.IsProper) => h.number_eq_iff hm hx
  rw [Number.center_around, ← Number.value_finite] at hleast
  refine ⟨hproper, (hreads _ hproper).mpr hin, fun d' hd' h => ?_, fun d' hd' h => ?_⟩
  · exact (hleast d' hd' ((hreads d' hd').mp h)).1
  · exact (hleast d' hd' ((hreads d' hd').mp h)).2

end Decimal

end LiteralFolding
