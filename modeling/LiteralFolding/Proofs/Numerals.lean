-- The spellings of a whole number. Its decimal digits are read as the number nearest to it. Digits
-- after a base letter are read with a rounding after each: once 53 bits are full, all that follows
-- is lost, and where the bits so far end exactly half way, the number slips to the one below.
import LiteralFolding.Literal.Numeric
import LiteralFolding.Proofs.Digits
import LiteralFolding.Proofs.Rounding
import Mathlib.Data.List.TakeWhile

namespace LiteralFolding

/-! ## Digits of a number -/

namespace Text

variable {base n : Nat}

theorem hexValue?_digitChar : ∀ d < 16, hexValue? (Nat.digitChar d) = some d := by decide

/-- What holds of every digit holds of the digits of a number. -/
theorem forall_mem_toDigits {P : Char → Prop} (hbase : 1 < base) (h : ∀ d < base, P (Nat.digitChar d))
    (n : Nat) : ∀ c ∈ Nat.toDigits base n, P c := by
  induction n using Nat.strongRecOn with
  | _ n ih =>
    intro c hc
    by_cases hn : n < base
    · rw [Nat.toDigits_of_lt_base hn, List.mem_singleton] at hc
      exact hc ▸ h n hn
    · rw [Nat.toDigits_of_base_le hbase (Nat.not_lt.mp hn)] at hc
      rcases List.mem_append.mp hc with hc | hc
      · exact ih _ (Nat.div_lt_self (by omega) hbase) c hc
      · rw [List.mem_singleton.mp hc]
        exact h _ (Nat.mod_lt _ (by omega))

theorem not_mem_toDigits {c : Char} (hbase : 1 < base) (hc : ∀ d < base, Nat.digitChar d ≠ c) (n : Nat) :
    c ∉ Nat.toDigits base n := by
  intro hmem
  have hall := forall_mem_toDigits (P := fun x => x ≠ c) hbase hc n
  exact hall c hmem rfl

/-- The digits of a number spell it. -/
theorem spelled_toDigits (hbase : 1 < base) (hle : base ≤ 16) (n : Nat) :
    Spelled base (Nat.toDigits base n) n := by
  induction n using Nat.strongRecOn with
  | _ n ih =>
    by_cases hn : n < base
    · rw [Nat.toDigits_of_lt_base hn]
      have hone := Spelled.snoc .nil (hexValue?_digitChar n (by omega)) hn
      rwa [Nat.zero_mul, Nat.zero_add] at hone
    · have hmod : n % base < base := Nat.mod_lt _ (by omega)
      have hrest := ih _ (Nat.div_lt_self (by omega) hbase)
      have hsnoc := hrest.snoc (hexValue?_digitChar _ (by omega)) hmod
      rw [Nat.mul_comm, Nat.div_add_mod] at hsnoc
      rwa [Nat.toDigits_of_base_le hbase (Nat.not_lt.mp hn)]

theorem lowerAscii_toDigits (hbase : 1 < base) (hle : base ≤ 16) (n : Nat) :
    lowerAscii (Nat.toDigits base n) = Nat.toDigits base n := by
  have hsmall : ∀ d < 16, (Nat.digitChar d).toLower = Nat.digitChar d := by decide
  have hall := forall_mem_toDigits (P := fun c => c.toLower = c) hbase
    (fun d hd => hsmall d (by omega)) n
  exact (List.map_congr_left hall).trans (List.map_id' _)

/-- A number above zero has no zero in front. -/
theorem head?_toDigits_ne (hbase : 1 < base) (hle : base ≤ 16) (hn : n ≠ 0) :
    (Nat.toDigits base n).head? ≠ some '0' := by
  induction n using Nat.strongRecOn with
  | _ n ih =>
    by_cases hlt : n < base
    · rw [Nat.toDigits_of_lt_base hlt]
      have hdigit : ∀ d < 16, d ≠ 0 → Nat.digitChar d ≠ '0' := by decide
      intro h
      exact hdigit n (by omega) hn (Option.some.inj h)
    · have hdiv : n / base ≠ 0 := by
        rw [Nat.div_ne_zero_iff]
        omega
      rw [Nat.toDigits_of_base_le hbase (Nat.not_lt.mp hlt),
        List.head?_append_of_ne_nil _ Nat.toDigits_ne_nil]
      exact ih _ (Nat.div_lt_self (by omega) hbase) hdiv

end Text

/-! ## Decimal digits -/

namespace Number

variable {n : Nat}

/-- Past every number of the format the number of digits alone decides. -/
theorem ofNat_of_many_digits (h : 400 < (Nat.toDigits 10 n).length) :
    ofNat n = .infinity false := by
  have hlarge : 10 ^ 400 ≤ n := by
    rw [← Nat.not_lt, ← Nat.length_toDigits_le_iff (by decide) (by decide)]
    omega
  have hpow : 2 ^ 1200 ≤ n := by
    calc 2 ^ 1200 = (2 ^ 3) ^ 400 := pow_mul 2 3 400
      _ ≤ 10 ^ 400 := pow_le_pow_left₀ (by decide) (by decide) 400
      _ ≤ n := hlarge
  have hfull : 2 ^ 53 ≤ n := by
    have hmore : 2 ^ 53 ≤ 2 ^ 1200 := pow_le_pow_right₀ (by decide) (by decide)
    exact hmore.trans hpow
  obtain ⟨q, e, r, hparts⟩ := exists_parts hfull
  have he : ¬ e + 52 < 1200 := fun h => Nat.not_lt.mpr hpow (hparts.lt_two_pow_iff.mpr h)
  rw [hparts.ofNat_eq, packed_of_lt (by omega)]

theorem ofDecimal_zero (n : Nat) : ofDecimal false n 0 = ofNat n := by
  unfold ofDecimal
  dsimp only
  split
  · rename_i h
    have hn : n = 0 := by omega
    rw [hn]
    rfl
  · split
    · rename_i h
      exact (ofNat_of_many_digits (by omega)).symm
    · simp [ofNat]

/-- Decimal digits alone are read as the number they spell, rounded once. -/
theorem readUnsigned?_digits {word : Text} (hne : word ≠ []) (h : Text.Spelled 10 word n)
    (hdigits : ∀ c ∈ word, (Text.digitValue? 10 c).isSome) :
    readUnsigned? false word = some (ofNat n) := by
  have htake : word.takeWhile (fun c => (Text.digitValue? 10 c).isSome) = word :=
    List.takeWhile_eq_self_iff.mpr hdigits
  have hdrop : word.dropWhile (fun c => (Text.digitValue? 10 c).isSome) = [] :=
    List.dropWhile_eq_nil_iff.mpr hdigits
  have hvalue : Text.wholeValue? 10 word = some n := Text.wholeValue?_eq_some_iff.mpr ⟨hne, h⟩
  simp [readUnsigned?, Text.spanDigits, htake, hdrop, hvalue, readPower?, ofDecimal_zero]

theorem takeSign_of_digits {word : Text} (hminus : '-' ∉ word) (hplus : '+' ∉ word) :
    takeSign word = (false, word) := by
  unfold takeSign
  split
  · exact absurd List.mem_cons_self hminus
  · exact absurd List.mem_cons_self hplus
  · rfl

/-! ## A rounding after each digit -/

variable {m e d k q t r s a : Nat} {x : Number}

theorem whole?_capped (he : e ≤ 971) (m : Nat) : (capped false m e).whole? = some (m * 2 ^ e) := by
  rw [capped_of_le (by omega)]
  simp [whole?]

/-- What lies below half of the last bit that is kept is lost. -/
theorem ofNat_of_full (hlow : 2 ^ 52 ≤ m) (hhigh : m < 2 ^ 53) (he : 1 ≤ e) (hd : 2 * d < 2 ^ e) :
    ofNat (m * 2 ^ e + d) = capped false m e := by
  have hparts : Parts (m * 2 ^ e + d) m e d := ⟨rfl, hlow, hhigh, by omega, he⟩
  rw [hparts.ofNat_eq, nearer, if_pos hd, packed, if_neg (by omega)]

/-- The product with a whole number, rounded. -/
def times (x : Number) (k : Nat) : Number :=
  match x.whole? with
  | some n => ofNat (n * k)
  | none => x

/-- The sum with a whole number, rounded. -/
def plus (x : Number) (d : Nat) : Number :=
  match x.whole? with
  | some n => ofNat (n + d)
  | none => x

theorem two_mul_lt_pow (he : 1 ≤ e) (hd : d < 2 ^ k) : 2 * d < 2 ^ (e + k) := by
  have hpow : 2 ^ (1 + k) ≤ 2 ^ (e + k) := pow_le_pow_right₀ (by decide) (by omega)
  rw [Nat.pow_add, Nat.pow_one] at hpow
  omega

/-- Once the significand is full, one more digit moves it up and is lost. -/
theorem append_capped (hlow : 2 ^ 52 ≤ m) (hhigh : m < 2 ^ 53) (he : 1 ≤ e) (hd : d < 2 ^ k) :
    (capped false m e).append (2 ^ k) d = capped false m (e + k : Nat) := by
  by_cases htop : 971 < e
  · rw [capped_of_lt (by omega), capped_of_lt (by omega)]
    rfl
  · rw [append, whole?_capped (by omega)]
    dsimp only
    rw [Nat.mul_assoc, ← Nat.pow_add]
    exact ofNat_of_full hlow hhigh (by omega) (two_mul_lt_pow he hd)

theorem plus_capped (hlow : 2 ^ 52 ≤ m) (hhigh : m < 2 ^ 53) (he : 1 ≤ e) (hd : 2 * d < 2 ^ e) :
    (capped false m e).plus d = capped false m e := by
  by_cases htop : 971 < e
  · rw [capped_of_lt (by omega)]
    rfl
  · rw [plus, whole?_capped (by omega)]
    exact ofNat_of_full hlow hhigh he hd

theorem times_eq_append (x : Number) (k : Nat) : x.times k = x.append k 0 := rfl

/-- A rounded significand moves with its exponent, whether it has grown by a bit or not. -/
theorem exists_capped (hlow : 2 ^ 52 ≤ a) (hhigh : a ≤ 2 ^ 53) :
    ∃ m i, 2 ^ 52 ≤ m ∧ m < 2 ^ 53 ∧
      ∀ e : Nat, packed false a e = capped false m (e + i : Nat) := by
  by_cases ha : a = 2 ^ 53
  · exact ⟨2 ^ 52, 1, Nat.le_refl _, by decide, fun e => if_pos ha⟩
  · exact ⟨a, 0, hlow, by omega, fun e => if_neg ha⟩

theorem append_packed (hlow : 2 ^ 52 ≤ a) (hhigh : a ≤ 2 ^ 53) (he : 1 ≤ e) (hd : d < 2 ^ k) :
    (packed false a e).append (2 ^ k) d = packed false a (e + k : Nat) := by
  obtain ⟨m, i, hm, hm', heq⟩ := exists_capped hlow hhigh
  rw [heq, heq, append_capped hm hm' (by omega) hd, Nat.add_right_comm]

/-- Rounding the product and then the sum is the same as rounding once. -/
theorem plus_times_packed (hlow : 2 ^ 52 ≤ a) (hhigh : a ≤ 2 ^ 53) (he : 1 ≤ e) (hd : d < 2 ^ k) :
    ((packed false a e).times (2 ^ k)).plus d = packed false a (e + k : Nat) := by
  obtain ⟨m, i, hm, hm', heq⟩ := exists_capped hlow hhigh
  rw [heq, heq, times_eq_append, append_capped hm hm' (by omega) (Nat.two_pow_pos k),
    plus_capped hm hm' (by omega) (two_mul_lt_pow (by omega) hd), Nat.add_right_comm]

theorem Parts.exponent_le (h : Parts n q e r) (hlt : n < 2 ^ 53 * 2 ^ k) : e ≤ k := by
  rw [← Nat.pow_add] at hlt
  have hlog := h.lt_two_pow_iff.mp hlt
  omega

/-- A quotient and a rest below the divisor are settled by the number. -/
theorem eq_of_mul_add_eq {q' r' : Nat} (hr : r < s) (hr' : r' < s) (h : q * s + r = q' * s + r') :
    q = q' ∧ r = r' := by
  have hpos : 0 < s := by omega
  have hleft : (q * s + r) / s = q ∧ (q * s + r) % s = r :=
    (Nat.div_mod_unique hpos).mpr ⟨by rw [Nat.add_comm, Nat.mul_comm], hr⟩
  have hright : (q * s + r) / s = q' ∧ (q * s + r) % s = r' :=
    (Nat.div_mod_unique hpos).mpr ⟨by rw [h, Nat.add_comm, Nat.mul_comm], hr'⟩
  exact ⟨hleft.1.symm.trans hright.1, hleft.2.symm.trans hright.2⟩

theorem Parts.unique {q' e' r' : Nat} (h : Parts n q e r) (h' : Parts n q' e' r') :
    q = q' ∧ e = e' ∧ r = r' := by
  have he : e = e' := by
    have hlog := h.log2_eq
    have hlog' := h'.log2_eq
    omega
  subst he
  obtain ⟨hq, hr⟩ := eq_of_mul_add_eq h.rest h'.rest (h.eq.symm.trans h'.eq)
  exact ⟨hq, rfl, hr⟩

/-- More bits after a number in parts go to the rest. -/
theorem Parts.extend (h : Parts n q e t) {i : Nat} (hr : r < 2 ^ i) :
    Parts (n * 2 ^ i + r) q (e + i) (t * 2 ^ i + r) := by
  refine ⟨?_, h.full, h.lt, ?_, ?_⟩
  · rw [h.eq, Nat.pow_add]
    ring
  · rw [Nat.pow_add]
    exact mul_add_lt h.rest hr
  · have hpos := h.pos
    omega

/-- A number of at most 53 bits with zeros after them is kept. -/
theorem whole?_ofNat_mul (hn : n < 2 ^ 53) (hk : k ≤ 971) :
    (ofNat (n * 2 ^ k)).whole? = some (n * 2 ^ k) := by
  by_cases hsmall : n * 2 ^ k < 2 ^ 53
  · exact whole?_ofNat hsmall
  · obtain ⟨q, e, r, hparts⟩ := exists_parts (Nat.not_lt.mp hsmall)
    have he : e ≤ k := hparts.exponent_le (Nat.mul_lt_mul_of_pos_right hn (Nat.two_pow_pos k))
    have hr : r = 0 := by
      have hdvd : 2 ^ e ∣ q * 2 ^ e + r := hparts.eq ▸ Dvd.dvd.mul_left (pow_dvd_pow 2 he) n
      exact Nat.eq_zero_of_dvd_of_lt ((Nat.dvd_add_right (Dvd.intro_left q rfl)).mp hdvd) hparts.rest
    have heq := hparts.eq
    rw [heq, hr, ofNat_of_full hparts.full hparts.lt hparts.pos (Nat.two_pow_pos e)]
    exact whole?_capped (by omega) q

/-- What the digits so far leave of the number `n` that they spell: the number itself while it has at
most 53 bits; after that the first digits with more bits, rounded, and moved up for each later
digit. -/
inductive Reads (bits : Nat) : Nat → Number → Prop
  | short {n : Nat} : n < 2 ^ 53 → Reads bits n (ofNat n)
  | long {p q e t r j : Nat} : Parts p q e t → e ≤ bits → r < 2 ^ (bits * j) →
      Reads bits (p * 2 ^ (bits * j) + r)
        (packed false (nearer q t (2 ^ e)) (e + bits * j : Nat))

/-- One more digit, and it does not matter whether the product is rounded before the sum. -/
theorem Reads.append {bits : Nat} (hbits : bits ≤ 971) (h : Reads bits n x) (hd : d < 2 ^ bits) :
    Reads bits (n * 2 ^ bits + d) (x.append (2 ^ bits) d) ∧
      (x.times (2 ^ bits)).plus d = x.append (2 ^ bits) d := by
  cases h with
  | @short n hn =>
    have happend : (ofNat n).append (2 ^ bits) d = ofNat (n * 2 ^ bits + d) := by
      rw [Number.append, whole?_ofNat hn]
    have htimes : (ofNat n).times (2 ^ bits) = ofNat (n * 2 ^ bits) := by
      rw [times, whole?_ofNat hn]
    rw [happend, htimes, plus, whole?_ofNat_mul hn hbits]
    refine ⟨?_, rfl⟩
    by_cases hsmall : n * 2 ^ bits + d < 2 ^ 53
    · exact .short hsmall
    · obtain ⟨q, e, t, hparts⟩ := exists_parts (Nat.not_lt.mp hsmall)
      have he : e ≤ bits := hparts.exponent_le (mul_add_lt hn hd)
      have hlong := Reads.long (j := 0) hparts he (Nat.two_pow_pos _)
      rwa [Nat.mul_zero, Nat.pow_zero, Nat.mul_one, Nat.add_zero, Nat.add_zero,
        ← hparts.ofNat_eq] at hlong
  | @long p q e t r j hparts he hr =>
    have hpos := hparts.pos
    obtain ⟨hlow, hhigh⟩ := hparts.nearer_mem
    rw [append_packed hlow hhigh (by omega) hd, plus_times_packed hlow hhigh (by omega) hd]
    refine ⟨?_, rfl⟩
    have hrest : r * 2 ^ bits + d < 2 ^ (bits * (j + 1)) := by
      rw [Nat.mul_succ, Nat.pow_add]
      exact mul_add_lt hr hd
    have heq : (p * 2 ^ (bits * j) + r) * 2 ^ bits + d =
        p * 2 ^ (bits * (j + 1)) + (r * 2 ^ bits + d) := by
      rw [Nat.mul_succ, Nat.pow_add]
      ring
    rw [heq, Nat.add_assoc]
    exact .long hparts he hrest

/-- Digits read with the product and the sum rounded apart. -/
def readTwice? (base : Nat) (t : Text) : Option Number :=
  if t.isEmpty then none
  else t.foldlM (fun acc c => (Text.digitValue? base c).map ((acc.times base).plus ·)) zero

/-- Every run over digits keeps the invariant, and rounding the product apart changes no run. -/
theorem reads_of_spelled {bits : Nat} {word : Text} (hbits : bits ≤ 971)
    (h : Text.Spelled (2 ^ bits) word n) :
    ∃ x, Reads bits n x ∧
      word.foldlM (fun acc c => (Text.digitValue? (2 ^ bits) c).map (acc.append (2 ^ bits))) zero =
        some x ∧
      word.foldlM (fun acc c =>
        (Text.digitValue? (2 ^ bits) c).map ((acc.times (2 ^ bits)).plus ·)) zero = some x := by
  induction h with
  | nil => exact ⟨zero, .short (by decide), rfl, rfl⟩
  | @snoc word n d c _ hvalue hd ih =>
    obtain ⟨x, hreads, hfold, htwice⟩ := ih
    obtain ⟨hnext, hsame⟩ := hreads.append hbits hd
    have hdigit := Text.digitValue?_eq_some_iff.mpr ⟨hvalue, hd⟩
    refine ⟨_, hnext, ?_, ?_⟩
    · simp [List.foldlM_append, hfold, hdigit]
    · simp [List.foldlM_append, htwice, hdigit, hsame]

/-! ## Slips -/

/-- The first digits that have more than 53 bits end exactly half way above the even `q`, and the
`j` digits after them are not all zero. -/
structure SlipsAt (bits n q e j r : Nat) : Prop where
  eq : n = (2 * q + 1) * 2 ^ e * 2 ^ (bits * j) + r
  full : 2 ^ 52 ≤ q
  lt : q < 2 ^ 53
  even : q % 2 = 0
  first : e < bits
  pos : 0 < r
  rest : r < 2 ^ (bits * j)

/-- Digits of `bits` bits each round the number down at a tie that is none. -/
def Slips (bits n : Nat) : Prop := n < 2 ^ 1024 ∧ ∃ q e j r, SlipsAt bits n q e j r

/-- `x` is the number just below `y`. -/
def JustBelow (x y : Number) : Prop :=
  ∃ (m : Nat) (e : Int), x = .finite false m e ∧ y = .finite false (m + 1) e

/-- Bits after the rest matter only at a tie: there they turn it upwards. -/
theorem nearer_extend (hr : r < s) (q t h : Nat) :
    nearer q (t * s + r) (2 * h * s) =
      if t = h ∧ q % 2 = 0 ∧ 0 < r then q + 1 else nearer q t (2 * h) := by
  unfold nearer
  rw [Nat.mul_assoc]
  rcases Nat.lt_trichotomy t h with hlt | rfl | hgt
  · have hbelow : t * s + r < h * s := mul_add_lt hlt hr
    rw [if_pos (by omega), if_neg (by omega), if_pos (by omega)]
  · generalize t * s = u
    split_ifs <;> omega
  · have habove : h * s + r < t * s := mul_add_lt hgt hr
    rw [if_neg (by omega), if_pos (by omega), if_neg (by omega), if_neg (by omega),
      if_pos (by omega)]

theorem SlipsAt.parts {bits j : Nat} (h : SlipsAt bits n q e j r) :
    Parts ((2 * q + 1) * 2 ^ e) q (e + 1) (2 ^ e) := by
  refine ⟨?_, h.full, h.lt, ?_, by omega⟩
  · rw [Nat.pow_succ]
    ring
  · exact Nat.pow_lt_pow_right (by decide) (by omega)

/-- A number slips only where its own first digits end in the tie: where they end is settled. -/
theorem SlipsAt.tie {bits p f j q' e' j' r' : Nat} (hparts : Parts p q (f + 1) t)
    (hf : f < bits) (hr : r < 2 ^ (bits * j))
    (h : SlipsAt bits (p * 2 ^ (bits * j) + r) q' e' j' r') :
    t = 2 ^ f ∧ q % 2 = 0 ∧ 0 < r := by
  have hslip := h.parts.extend h.rest
  rw [← h.eq] at hslip
  obtain ⟨rfl, hexp, hrest⟩ := (hparts.extend hr).unique hslip
  have hexp : j * bits + f = j' * bits + e' := by
    rw [Nat.mul_comm j, Nat.mul_comm j']
    omega
  obtain ⟨rfl, rfl⟩ := eq_of_mul_add_eq hf h.first hexp
  obtain ⟨ht, rfl⟩ := eq_of_mul_add_eq hr h.rest hrest
  exact ⟨ht, h.even, h.pos⟩

/-- Read with a rounding after each digit a number is the nearest, or where it slips the one
below. -/
theorem Reads.eq_or_justBelow {bits : Nat} (h : Reads bits n x) :
    ¬ Slips bits n ∧ x = ofNat n ∨ Slips bits n ∧ JustBelow x (ofNat n) := by
  cases h with
  | @short n hn =>
    refine .inl ⟨?_, rfl⟩
    rintro ⟨-, q, e, j, r, hslip⟩
    have hle := (hslip.parts.extend hslip.rest).le
    rw [← hslip.eq] at hle
    omega
  | @long p q e t r j hparts he hr =>
    obtain ⟨f, rfl⟩ : ∃ f, e = f + 1 := Nat.exists_eq_add_one.mpr hparts.pos
    have hwhole := hparts.extend hr
    have hround : nearer q (t * 2 ^ (bits * j) + r) (2 ^ (f + 1 + bits * j)) =
        if t = 2 ^ f ∧ q % 2 = 0 ∧ 0 < r then q + 1 else nearer q t (2 ^ (f + 1)) := by
      rw [Nat.pow_add, Nat.pow_succ, Nat.mul_comm (2 ^ f)]
      exact nearer_extend hr q t (2 ^ f)
    rw [hwhole.ofNat_eq, hround]
    by_cases htie : t = 2 ^ f ∧ q % 2 = 0 ∧ 0 < r
    · rw [if_pos htie]
      obtain ⟨rfl, heven, hpos⟩ := htie
      have hdown : nearer q (2 ^ f) (2 ^ (f + 1)) = q := by
        rw [Nat.pow_succ, nearer, if_neg (by omega), if_neg (by omega), if_pos heven]
      rw [hdown]
      by_cases htop : p * 2 ^ (bits * j) + r < 2 ^ 1024
      · have hexp := hwhole.lt_two_pow_iff.mp htop
        have hlt := hparts.lt
        refine .inr ⟨⟨htop, q, f, j, r, ?_⟩, q, (f + 1 + bits * j : Nat), ?_, ?_⟩
        · refine ⟨?_, hparts.full, hlt, heven, by omega, hpos, hr⟩
          rw [hparts.eq, Nat.pow_succ]
          ring
        · rw [packed, if_neg (by omega), capped_of_le (by omega)]
        · rw [packed, if_neg (by omega), capped_of_le (by omega)]
      · have hexp : ¬ f + 1 + bits * j + 52 < 1024 := fun h => htop (hwhole.lt_two_pow_iff.mpr h)
        rw [packed_of_lt (by omega), packed_of_lt (by omega)]
        exact .inl ⟨fun h => htop h.1, rfl⟩
    · rw [if_neg htie]
      refine .inl ⟨?_, rfl⟩
      rintro ⟨-, q', e', j', r', hslip⟩
      exact htie (hslip.tie hparts (by omega) hr)

/-- A number of 53 bits and one more digit does not slip. -/
theorem not_slips_of_lt {bits : Nat} (h : n < 2 ^ (53 + bits)) : ¬ Slips bits n := by
  rintro ⟨-, q, e, j, r, hslip⟩
  have hwhole := hslip.parts.extend hslip.rest
  rw [← hslip.eq] at hwhole
  have hexp := hwhole.lt_two_pow_iff.mp h
  have hpos := hslip.pos
  have hrest := hslip.rest
  cases j with
  | zero =>
    rw [Nat.mul_zero, Nat.pow_zero] at hrest
    omega
  | succ j =>
    rw [Nat.mul_succ] at hexp
    omega

end Number

/-! ## Spellings -/

namespace Literal

variable {raw word : Text}

/-- The bases that a numeral names by a letter after a zero. -/
inductive Radix where
  | binary
  | octal
  | hexadecimal
  deriving DecidableEq, Repr

/-- The letter of a base. -/
def Radix.letter : Radix → Char
  | .binary => 'b'
  | .octal => 'o'
  | .hexadecimal => 'x'

/-- How many bits a digit of the base has. -/
def Radix.bits : Radix → Nat
  | .binary => 1
  | .octal => 3
  | .hexadecimal => 4

/-- The digits of a number in the base. -/
def Radix.digits (radix : Radix) (n : Nat) : Text := Nat.toDigits (2 ^ radix.bits) n

/-- A number in the base, in small letters. -/
def Radix.spelling (radix : Radix) (n : Nat) : Text := '0' :: radix.letter :: radix.digits n

theorem Radix.one_lt (radix : Radix) : 1 < 2 ^ radix.bits := by cases radix <;> decide

theorem Radix.le_sixteen (radix : Radix) : 2 ^ radix.bits ≤ 16 := by cases radix <;> decide

theorem Radix.not_mem_spelling {c : Char} (hc : ∀ d < 16, Nat.digitChar d ≠ c)
    (hletter : ∀ radix : Radix, radix.letter ≠ c) (radix : Radix) (n : Nat) :
    c ∉ radix.spelling n := by
  intro hmem
  rcases List.mem_cons.mp hmem with rfl | hmem
  · exact hc 0 (by decide) rfl
  · rcases List.mem_cons.mp hmem with rfl | hmem
    · exact hletter radix rfl
    · refine Text.not_mem_toDigits radix.one_lt (fun d hd => ?_) n hmem
      exact hc d (Nat.lt_of_lt_of_le hd radix.le_sixteen)

/-- Without separators a numeral is read in small letters. -/
theorem canonicalNumber?_of_lower (h : Text.lowerAscii raw = word) (hword : '_' ∉ word) :
    canonicalNumber? raw = (numberOf? word).map Number.text := by
  have hraw : '_' ∉ raw := fun hmem => hword (h ▸ List.mem_map_of_mem hmem)
  rw [canonicalNumber?, cleaned_of_not_mem hraw, h]

/-- The digits of a numeral in one of the bases: those after a zero and the letter, or octal ones
after a zero alone. -/
inductive InBase : Text → Radix → Text → Prop
  | letter (radix : Radix) (digits : Text) : InBase ('0' :: radix.letter :: digits) radix digits
  | legacy {t : Text} : isLegacyOctal t = true → InBase t .octal (t.drop 1)

theorem InBase.numberOf?_eq {t digits : Text} {radix : Radix} (h : InBase t radix digits)
    (hlast : t.getLast? ≠ some 'n') :
    numberOf? t = Number.readBase? (2 ^ radix.bits) digits := by
  unfold numberOf?
  rw [if_neg hlast]
  cases h with
  | letter radix digits => cases radix <;> rfl
  | legacy h =>
    split
    · simp [isLegacyOctal] at h
    · simp [isLegacyOctal] at h
    · simp [isLegacyOctal] at h
    · exact if_pos h

theorem numberOf?_spelling (radix : Radix) (n : Nat) :
    numberOf? (radix.spelling n) = Number.readBase? (2 ^ radix.bits) (radix.digits n) := by
  refine (InBase.letter radix _).numberOf?_eq fun h => ?_
  exact Radix.not_mem_spelling (by decide) (by intro radix; cases radix <;> decide) radix n
    (List.mem_of_getLast? h)

theorem not_isLegacyOctal_toDigits (n : Nat) : isLegacyOctal (Nat.toDigits 10 n) = false := by
  by_cases hn : n = 0
  · subst hn
    rfl
  · have hhead := Text.head?_toDigits_ne (by decide : 1 < 10) (by decide) hn
    unfold isLegacyOctal
    split
    · rename_i heq
      rw [heq] at hhead
      exact absurd rfl hhead
    · rfl

/-- Decimal digits are read as the number nearest to what they spell. -/
theorem numberOf?_toDigits (n : Nat) : numberOf? (Nat.toDigits 10 n) = some (Number.ofNat n) := by
  have hnot : ∀ c, (∀ d < 10, Nat.digitChar d ≠ c) → c ∉ Nat.toDigits 10 n := fun c hc =>
    Text.not_mem_toDigits (by decide) hc n
  have hn := hnot 'n' (by decide)
  have hlower : Text.lowerAscii (Nat.toDigits 10 n) = Nat.toDigits 10 n :=
    Text.lowerAscii_toDigits (by decide) (by decide) n
  have hdigits : ∀ c ∈ Nat.toDigits 10 n, (Text.digitValue? 10 c).isSome :=
    Text.forall_mem_toDigits (by decide) (by decide) n
  unfold numberOf?
  rw [if_neg fun h => hn (List.mem_of_getLast? h)]
  split
  · rename_i heq
    exact absurd (by simp [heq]) (hnot 'x' (by decide))
  · rename_i heq
    exact absurd (by simp [heq]) (hnot 'o' (by decide))
  · rename_i heq
    exact absurd (by simp [heq]) (hnot 'b' (by decide))
  · rw [not_isLegacyOctal_toDigits, if_neg Bool.false_ne_true, Number.read?,
      Number.takeSign_of_digits (hnot '-' (by decide)) (hnot '+' (by decide))]
    dsimp only
    -- the words for infinity and for no number have an n in them
    have hword : ∀ w : String, 'n' ∈ w.toList → String.ofList (Text.lowerAscii (Nat.toDigits 10 n)) ≠ w := by
      rintro w hw rfl
      rw [String.toList_ofList, hlower] at hw
      exact hn hw
    rw [if_neg (hword "nan" (by decide)),
      if_neg (not_or.mpr ⟨hword "inf" (by decide), hword "infinity" (by decide)⟩)]
    exact Number.readUnsigned?_digits Nat.toDigits_ne_nil
      (Text.spelled_toDigits (by decide) (by decide) n) hdigits

theorem canonicalNumber?_toDigits (n : Nat) :
    canonicalNumber? (Nat.toDigits 10 n) = some (Number.ofNat n).text := by
  have hlower := Text.lowerAscii_toDigits (by decide : 1 < 10) (by decide) n
  have hplain : '_' ∉ Nat.toDigits 10 n := Text.not_mem_toDigits (by decide) (by decide) n
  rw [canonicalNumber?_of_lower hlower hplain, numberOf?_toDigits, Option.map_some]

/-- Digits after a base letter are read one by one, whatever case they are in. -/
theorem canonicalNumber?_of_spelling {radix : Radix} {n : Nat}
    (h : Text.lowerAscii raw = radix.spelling n) :
    ∃ x, Number.Reads radix.bits n x ∧ canonicalNumber? raw = some x.text ∧
      Number.readTwice? (2 ^ radix.bits) (radix.digits n) = some x := by
  have hbits : radix.bits ≤ 971 := by cases radix <;> decide
  have hplain : '_' ∉ radix.spelling n :=
    Radix.not_mem_spelling (by decide) (by intro radix; cases radix <;> decide) radix n
  have hne : (radix.digits n).isEmpty = false := List.isEmpty_eq_false_iff.mpr Nat.toDigits_ne_nil
  obtain ⟨x, hreads, hfold, htwice⟩ :=
    Number.reads_of_spelled hbits (Text.spelled_toDigits radix.one_lt radix.le_sixteen n)
  refine ⟨x, hreads, ?_, ?_⟩
  · rw [canonicalNumber?_of_lower h hplain, numberOf?_spelling, Number.readBase?, hne,
      if_neg Bool.false_ne_true]
    exact congrArg (Option.map Number.text) hfold
  · rw [Number.readTwice?, hne, if_neg Bool.false_ne_true]
    exact htwice

/-- The decimal digits of a whole number show the number nearest to it. So do its digits in another
base, unless they slip: then they show the number just below. Each of their steps is a product and
a sum, both rounded. -/
theorem spellings_agree_unless_digits_slip (n : Nat) :
    ∃ x, Number.IsNearest n x ∧ canonicalNumber? (Nat.toDigits 10 n) = some x.text ∧
      ∀ (radix : Radix) (raw : Text), Text.lowerAscii raw = radix.spelling n →
        canonicalNumber? raw =
            (Number.readTwice? (2 ^ radix.bits) (radix.digits n)).map Number.text ∧
          (¬ Number.Slips radix.bits n ∧ canonicalNumber? raw = some x.text ∨
            Number.Slips radix.bits n ∧
              ∃ y, Number.JustBelow y x ∧ canonicalNumber? raw = some y.text) := by
  refine ⟨Number.ofNat n, Number.isNearest_ofNat n, canonicalNumber?_toDigits n, ?_⟩
  intro radix raw hraw
  obtain ⟨x, hreads, htext, htwice⟩ := canonicalNumber?_of_spelling hraw
  refine ⟨by rw [htext, htwice, Option.map_some], ?_⟩
  rcases hreads.eq_or_justBelow with ⟨hkept, rfl⟩ | ⟨hslips, hbelow⟩
  · exact .inl ⟨hkept, htext⟩
  · exact .inr ⟨hslips, x, hbelow, htext⟩

/-- The first number that no longer fits, in capital letters: read as the nearest. -/
theorem capital_spelling_agrees :
    Text.lowerAscii "0X20000000000001".toList = Radix.hexadecimal.spelling (2 ^ 53 + 1) ∧
      ∃ x, Number.IsNearest (2 ^ 53 + 1) x ∧
        canonicalNumber? "0X20000000000001".toList = some x.text := by
  have hraw : Text.lowerAscii "0X20000000000001".toList =
      Radix.hexadecimal.spelling (2 ^ 53 + 1) := by decide +kernel
  obtain ⟨x, hnearest, -, hspelled⟩ := spellings_agree_unless_digits_slip (2 ^ 53 + 1)
  refine ⟨hraw, x, hnearest, ?_⟩
  rcases (hspelled .hexadecimal _ hraw).2 with ⟨-, htext⟩ | ⟨hslips, -⟩
  · exact htext
  · exact absurd hslips (Number.not_slips_of_lt (by decide))

/-- The least number that slips in hexadecimal digits shows two texts. -/
theorem hexadecimal_digits_slip :
    canonicalNumber? (Nat.toDigits 10 0x200000000000011) = some "144115188075855900".toList ∧
      canonicalNumber? (Radix.hexadecimal.spelling 0x200000000000011) =
        some "144115188075855870".toList := by
  decide +kernel

end Literal

end LiteralFolding
