-- Sums of numbers. The sum of two numbers is rounded once, and it is never shown as the texts of
-- the two, one behind the other.
import LiteralFolding.Proofs.Joints

namespace LiteralFolding

namespace Number

/-- A whole number with a sign. -/
def signed (negative : Bool) (n : Nat) : Int := if negative then -(n : Int) else n

/-- The number nearest to the sum. Opposite infinities have none, and only two negative zeros
make a negative zero. -/
def add : Number → Number → Number
  | .nan, _ => .nan
  | _, .nan => .nan
  | .infinity a, .infinity b => if a = b then .infinity a else .nan
  | .infinity a, _ => .infinity a
  | _, .infinity b => .infinity b
  | .finite negA sigA expA, .finite negB sigB expB =>
    let e := min expA expB
    let a := signed negA (sigA * Nat.pow 2 (expA - e).toNat)
    let b := signed negB (sigB * Nat.pow 2 (expB - e).toNat)
    let negative := if a + b = 0 then negA && negB else a + b < 0
    ofRatio negative ((a + b).natAbs * Nat.pow 2 e.toNat) (Nat.pow 2 (-e).toNat)

/-! ## The sum of finite numbers -/

variable {m m' m'' n : Nat} {e e' e'' : Int} {v w r : ℚ} {t u : Text} {a b : Bool} {x y : Number}

theorem cast_signed (negative : Bool) (h : e' ≤ e) :
    (signed negative (m * Nat.pow 2 (e - e').toNat) : ℚ) * 2 ^ e' =
      (Number.finite negative m e).value := by
  have hpow : ((2 : ℚ) ^ (e - e').toNat) * 2 ^ e' = 2 ^ e := by
    rw [← zpow_natCast, ← zpow_add₀ (by norm_num)]
    congr 1
    omega
  unfold signed value
  cases negative with
  | false =>
    simp only [Bool.false_eq_true, if_false, Nat.pow_eq]
    push_cast
    rw [mul_assoc, hpow, one_mul]
  | true =>
    simp only [if_true, Nat.pow_eq]
    push_cast
    rw [neg_mul, mul_assoc, hpow, neg_one_mul]

/-- The sum is rounded once, and it is negative if its exact value is. -/
theorem exists_add_eq (a b : Bool) (m m' : Nat) (e e' : Int) :
    ∃ negative n d, d ≠ 0 ∧
      add (.finite a m e) (.finite b m' e') = ofRatio negative n d ∧
      (n / d : ℚ) = |(Number.finite a m e).value + (Number.finite b m' e').value| ∧
      ((Number.finite a m e).value + (Number.finite b m' e').value ≠ 0 →
        (negative = true ↔ (Number.finite a m e).value + (Number.finite b m' e').value < 0)) := by
  refine ⟨_, _, _, ?_, rfl, ?_, ?_⟩
  · exact (Nat.pow_pos (by decide)).ne'
  · rw [← cast_signed a (min_le_left e e'), ← cast_signed b (min_le_right e e'), ← add_mul, abs_mul,
      abs_of_pos (two_zpow_pos _), zpow_eq_div (by norm_num) (min e e')]
    simp only [Nat.pow_eq]
    push_cast
    rw [Nat.cast_natAbs, mul_div_assoc]
    push_cast
    rfl
  · intro hne
    rw [← cast_signed a (min_le_left e e'), ← cast_signed b (min_le_right e e'), ← add_mul] at hne ⊢
    have hsum := left_ne_zero_of_mul hne
    have hsign := not_congr (mul_nonneg_iff_of_pos_right
      (b := (signed a (m * Nat.pow 2 (e - min e e').toNat) : ℚ) +
        signed b (m' * Nat.pow 2 (e' - min e e').toNat)) (two_zpow_pos (min e e')))
    rw [not_le, not_le] at hsign
    rw [hsign]
    norm_cast at hsum ⊢
    rw [if_neg hsum]
    exact decide_eq_true_iff

/-! ## No sum is shown as two texts -/

theorem lt_of_digits {x : ℚ} {count : Nat} (hcount : 0 < count) (hv : 1 ≤ v)
    (hlt : w < 10 ^ count) (hx : 9 * x ≤ 11 * (v + w)) :
    11 * x < 9 * (v * 10 ^ count + w) := by
  have hten : (10 : ℚ) ≤ 10 ^ count := le_self_pow₀ (by norm_num) hcount.ne'
  have hproduct : v * 10 ≤ v * 10 ^ count := mul_le_mul_of_nonneg_left hten (by linarith)
  have hproduct' : 1 * 10 ^ count ≤ v * 10 ^ count := mul_le_mul_of_nonneg_right hv (by linarith)
  linarith

/-- What the joined texts show and the sum or the difference `x` never round to one number. -/
theorem not_joined {x : ℚ} (hm : m ≠ 0) (hfin : (Number.finite false m e).IsFinite)
    (hm' : m' ≠ 0) (hfin' : (Number.finite false m' e').IsFinite) (hm'' : m'' ≠ 0)
    (hfin'' : (Number.finite false m'' e'').IsFinite)
    (hv : (Neighbourhood.around m e).Contains v) (hw : (Neighbourhood.around m' e').Contains w)
    (hr : (Neighbourhood.around m'' e'').Contains r)
    (hx : (Neighbourhood.around m'' e'').Contains x)
    (hsum : x = m * 2 ^ e + m' * 2 ^ e' ∨ x = m * 2 ^ e - m' * 2 ^ e')
    (hne : ¬ (m'' = m' ∧ e'' = e')) : ¬ Joined m e m'' e'' v w r := by
  have hself := contains_self hm e
  have hself' := contains_self hm' e'
  have hpos := hself.pos (isSound_around hm e)
  have hpos' := hself'.pos (isSound_around hm' e')
  intro h
  cases h with
  | digits hcount hv₁ hw₁ hlt heq =>
    have hclose := (close_of_contains hm hfin hv hself (by linarith)).1
    have hclose' := (close_of_contains hm' hfin' hw hself' (by linarith)).1
    have hle : 9 * x ≤ 11 * (v + w) := by rcases hsum with rfl | rfl <;> linarith
    have hlarge := lt_of_digits hcount hv₁ hlt hle
    have hwr : w ≤ r := heq ▸ le_add_of_nonneg_left (mul_nonneg (by linarith) (by positivity))
    rw [← heq] at hlarge
    have hclose'' := (close_of_contains hm'' hfin'' hr hx (by linarith)).2
    linarith
  | @fraction i hi hvr hri hw₁ hwhole hwhole' =>
    -- The first number is between `i` and `i + 1`, as are the joined texts, and the second is at
    -- least 1: a whole number separates what the texts show from the sum or the difference.
    have hone := one_le_of_contains hm' hfin' hw hw₁
    obtain ⟨hlarge, habove, hbelow⟩ := bounds_of_ne_natCast hm hfin hv hwhole hi (by linarith)
    push_cast at hbelow
    rcases hsum with hsum | hsum
    · exact hwhole' (i + 1) (eq_natCast_of_between hm'' hfin'' hr hx (by omega) hlarge
        (by push_cast; linarith) (by push_cast; linarith))
    · have hx₀ := hx.pos (isSound_around hm'' e'')
      have hi₀ : i ≠ 0 := by
        rintro rfl
        push_cast at hbelow
        linarith
      exact hwhole' i (eq_natCast_of_between hm'' hfin'' hx hr hi₀ (by omega) (by linarith)
        (by linarith))
  | mantissa hv₁ hv₂ hsize =>
    have hclose := close_of_contains hm hfin hv hself (by linarith)
    rcases hsize with ⟨hw₁, hr₁⟩ | hw₁
    · have hsmall := center_le_of_contains hm' hw
      have hhalf : 1 / 2 ≤ x := by rcases hsum with rfl | rfl <;> linarith
      have hclose'' := (close_of_contains hm'' hfin'' hx hr (by linarith)).2
      linarith
    · have hclose' := (close_of_contains hm' hfin' hw hself' (by linarith)).2
      rcases hsum with rfl | rfl
      · have hlost := contains_add hm' hfin' hpos (by linarith) (by linarith)
        exact hne (eq_of_contains hm'' hfin'' hm' hfin' hx hlost)
      · have hx₀ := hx.pos (isSound_around hm'' e'')
        linarith
  | exponent hw₁ hw₂ hsize =>
    have hclose' := close_of_contains hm' hfin' hw hself' (by linarith)
    rcases hsize with ⟨hv₁, hr₁⟩ | ⟨hv₁, hr₁⟩
    · have hsmall := center_le_of_contains hm hv
      have hx₀ := hx.pos (isSound_around hm'' e'')
      have hhalf : 1 / 2 ≤ x := by rcases hsum with rfl | rfl <;> linarith
      have hclose'' := (close_of_contains hm'' hfin'' hx hr (by linarith)).2
      linarith
    · have hclose := (close_of_contains hm hfin hv hself (by linarith)).1
      have hclose'' := (close_of_contains hm'' hfin'' hr hx (by linarith)).2
      rcases hsum with rfl | rfl <;> linarith

theorem sign_append_inj (ht : t.head? ≠ some '-') (hu : u.head? ≠ some '-')
    (h : sign a ++ t = sign b ++ u) : a = b ∧ t = u := by
  cases a <;> cases b
  · exact ⟨rfl, h⟩
  · exact absurd (congrArg List.head? h) ht
  · exact absurd (congrArg List.head? h).symm hu
  · exact ⟨rfl, (List.cons.inj h).2⟩

theorem abs_value (negative : Bool) (m : Nat) (e : Int) :
    |(Number.finite negative m e).value| = m * 2 ^ e := by
  have hnonneg : (0 : ℚ) ≤ m * 2 ^ e := mul_nonneg m.cast_nonneg (two_zpow_pos e).le
  cases negative with
  | false => rw [value_finite, abs_of_nonneg hnonneg]
  | true => rw [value_finite_neg, abs_neg, abs_of_nonneg hnonneg]

theorem value_neg_iff (hm : m ≠ 0) (negative : Bool) (e : Int) :
    (Number.finite negative m e).value < 0 ↔ negative = true := by
  have hpos : (0 : ℚ) < m * 2 ^ e :=
    mul_pos (by exact_mod_cast Nat.pos_of_ne_zero hm) (two_zpow_pos e)
  cases negative with
  | false => simpa [value_finite] using hpos.le
  | true => simpa [value_finite_neg] using hpos

/-- A sum that is a number of the format needs no rounding. -/
theorem text_add_of_value_eq {c : Bool} {k : Nat} {f : Int} (hx : (Number.finite c k f).IsFinite)
    (h : (Number.finite a m e).value + (Number.finite b m' e').value =
      (Number.finite c k f).value) :
    (add (.finite a m e) (.finite b m' e')).text = (Number.finite c k f).text := by
  obtain ⟨negative, n, d, hd, hadd, habs, hsign⟩ := exists_add_eq a b m m' e e'
  rw [h, abs_value] at habs
  rw [hadd]
  by_cases hk : k = 0
  · have hn : n = 0 := by
      rw [hk, Nat.cast_zero, zero_mul, div_eq_zero_iff] at habs
      exact_mod_cast habs.resolve_right (by exact_mod_cast hd)
    rw [hn, hk]
    rfl
  · have hself := contains_self hk f
    have hpos := hself.pos (isSound_around hk f)
    rw [← habs] at hself hpos
    have hn : n ≠ 0 := by
      rintro rfl
      simp at hpos
    have hnonzero : (Number.finite c k f).value ≠ 0 := by
      rw [← abs_pos, abs_value, ← habs]
      exact hpos
    rw [h, value_neg_iff hk] at hsign
    obtain rfl : negative = c := Bool.eq_iff_iff.mpr (hsign hnonzero)
    rw [(ofRatio_eq_finite_iff hn hd hk hx).mpr hself]

theorem head_ne_of_numeral {v : ℚ} (h : Text.Numeral t v) (rest : Text) :
    (t ++ rest).head? ≠ some '-' := by
  obtain ⟨c, more, rfl, hc⟩ := h.exists_head
  rintro ⟨⟩
  exact absurd hc (by decide)

theorem contains_shortest (hm : m ≠ 0) (hx : (Number.finite false m e).IsFinite) :
    (Neighbourhood.around m e).Contains (shortest m e).value := by
  have hshortest := Decimal.isShortest_shortest hm hx
  exact (hshortest.proper.number_eq_iff hm hx).mp hshortest.reads

theorem scripted_append_ne (hm : m ≠ 0) (hfin : (Number.finite a m e).IsFinite) (hm' : m' ≠ 0)
    (hfin' : (Number.finite b m' e').IsFinite) (hm'' : m'' ≠ 0)
    (hfin'' : (Number.finite a m'' e'').IsFinite)
    (hx : (Neighbourhood.around m'' e'').Contains
      |(Number.finite a m e).value + (Number.finite b m' e').value|)
    (hsign : a = true ↔ (Number.finite a m e).value + (Number.finite b m' e').value < 0) :
    (shortest m e).scripted ++ (sign b ++ (shortest m' e').scripted) ≠
      (shortest m'' e'').scripted := by
  intro heq
  have hshows := shows_scripted hm'' hfin''
  rw [← heq] at hshows
  obtain ⟨rfl, hjoined⟩ :=
    joined_of_append (shows_scripted hm hfin) (shows_scripted hm' hfin') hshows
  refine not_joined hm hfin hm' hfin' hm'' hfin'' (contains_shortest hm hfin)
    (contains_shortest hm' hfin') (contains_shortest hm'' hfin'') hx ?_ ?_ hjoined
  · cases a with
    | false =>
      have hnonneg := not_lt.mp fun hlt => Bool.false_ne_true (hsign.mpr hlt)
      rw [abs_of_nonneg hnonneg, value_finite, value_finite]
      exact .inl rfl
    | true =>
      rw [abs_of_neg (hsign.mp rfl), value_finite, value_finite_neg]
      exact .inr (by ring)
  · rintro ⟨rfl, rfl⟩
    obtain ⟨c, rest, hfirst, -⟩ := (numeral_shortest hm hfin).exists_head
    have hnil := List.append_left_eq_self.mp heq
    rw [hfirst] at hnil
    cases hnil

theorem text_add_ne_of_finite (hm : m ≠ 0) (hfin : (Number.finite a m e).IsFinite) (hm' : m' ≠ 0)
    (hfin' : (Number.finite b m' e').IsFinite) :
    (add (.finite a m e) (.finite b m' e')).text ≠
      (Number.finite a m e).text ++ (Number.finite b m' e').text := by
  intro heq
  obtain ⟨negative, n, d, hd, hadd, habs, hsign⟩ := exists_add_eq a b m m' e e'
  have hnumeral := numeral_shortest hm hfin
  have hnumeral' := numeral_shortest hm' hfin'
  rw [hadd, text_finite a hm, text_finite b hm'] at heq
  rcases ofRatio_cases negative hd n with hinf | ⟨hfin'', m'', e'', hs⟩
  · have hmem : 'I' ∈
        sign a ++ (shortest m e).scripted ++ (sign b ++ (shortest m' e').scripted) := by
      rw [← heq, hinf]
      simp [text]
    rcases List.mem_append.mp hmem with hmem | hmem
    · exact absurd (Literal.isNumeric_signed hnumeral a 'I' hmem) (by decide)
    · exact absurd (Literal.isNumeric_signed hnumeral' b 'I' hmem) (by decide)
  · rw [hs] at heq hfin''
    by_cases hm'' : m'' = 0
    · have hlength := congrArg List.length heq
      obtain ⟨c, rest, hfirst, -⟩ := hnumeral.exists_head
      obtain ⟨c', rest', hfirst', -⟩ := hnumeral'.exists_head
      rw [hm'', text, if_pos rfl, hfirst, hfirst'] at hlength
      simp at hlength
      omega
    · have hn : n ≠ 0 := by
        rintro rfl
        rw [ofRatio, if_pos rfl] at hs
        cases hs
        exact hm'' rfl
      have hx := (ofRatio_eq_finite_iff hn hd hm'' hfin'').mp hs
      rw [habs] at hx
      have hnonzero := abs_pos.mp (hx.pos (isSound_around hm'' e''))
      have hhead := head_ne_of_numeral (numeral_shortest hm'' hfin'') []
      rw [List.append_nil] at hhead
      rw [text_finite negative hm'', List.append_assoc] at heq
      obtain ⟨rfl, hz⟩ := sign_append_inj hhead (head_ne_of_numeral hnumeral _) heq
      exact scripted_append_ne hm hfin hm' hfin' hm'' hfin'' hx (hsign hnonzero) hz.symm

/-- No number, or one of the format. -/
def IsValue (x : Number) : Prop := x = .nan ∨ x.IsRead

theorem IsValue.text_ne_nil (h : x.IsValue) : x.text ≠ [] := by
  rcases h with rfl | hfinite | ⟨negative, rfl⟩
  · decide
  · cases x with
    | finite negative m e =>
      by_cases hm : m = 0
      · simp [text, hm]
      · obtain ⟨c, rest, hfirst, -⟩ := (numeral_shortest hm hfinite).exists_head
        simp [text_finite negative hm, hfirst]
    | nan => cases hfinite
    | infinity negative => cases hfinite
  · cases negative <;> decide

theorem isValue_add (hx : x.IsValue) (hy : y.IsValue) : (x.add y).IsValue := by
  cases x with
  | nan => exact .inl rfl
  | infinity a =>
    cases y with
    | nan => exact .inl rfl
    | infinity b =>
      by_cases h : a = b
      · simpa [add, h] using hy
      · exact .inl (if_neg h)
    | finite => exact hx
  | finite a m e =>
    cases y with
    | nan => exact .inl rfl
    | infinity b => exact hy
    | finite b m' e' =>
      obtain ⟨negative, n, d, hd, hadd, -⟩ := exists_add_eq a b m m' e e'
      rw [hadd]
      exact .inr (isRead_ofRatio hd n)

/-- The sum of two numbers is never shown as their texts one behind the other. -/
theorem text_add_ne (hx : x.IsValue) (hy : y.IsValue) : (x.add y).text ≠ x.text ++ y.text := by
  have hleft : x.text ≠ x.text ++ y.text := fun h =>
    hy.text_ne_nil (List.append_right_eq_self.mp h.symm)
  have hright : y.text ≠ x.text ++ y.text := fun h =>
    hx.text_ne_nil (List.append_left_eq_self.mp h.symm)
  cases x with
  | nan => exact hleft
  | infinity a =>
    cases y with
    | nan => exact hright
    | infinity b => cases a <;> cases b <;> decide
    | finite b m' e' => exact hleft
  | finite a m e =>
    cases y with
    | nan => exact hright
    | infinity b => exact hright
    | finite b m' e' =>
      have hfin : (Number.finite a m e).IsFinite := by simpa [IsValue, IsRead] using hx
      have hfin' : (Number.finite b m' e').IsFinite := by simpa [IsValue, IsRead] using hy
      by_cases hm' : m' = 0
      · rwa [text_add_of_value_eq hfin (by simp [value, hm'])]
      · by_cases hm : m = 0
        · rwa [text_add_of_value_eq hfin' (by simp [value, hm])]
        · exact text_add_ne_of_finite hm hfin hm' hfin'

end Number

end LiteralFolding
