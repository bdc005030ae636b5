-- Canonical number text. A literal is read as a number of the format or as infinite. The text of
-- such a number is a numeral with its sign, or the word for infinity, which no special form of a
-- literal claims, and reading it gives the same text again.
import LiteralFolding.Literal.Numeric
import LiteralFolding.Proofs.Layout

namespace LiteralFolding

/-! ## Numbers that are read -/

namespace Number

variable {x : Number} {t : Text} {negative : Bool} {n d m : Nat} {e p : Int} {v : ℚ}

/-- A number of the format, or infinite. -/
def IsRead (x : Number) : Prop := x.IsFinite ∨ ∃ negative, x = .infinity negative

theorem isRead_zero (negative : Bool) : (Number.finite negative 0 minExponent).IsRead :=
  .inl ⟨by decide, by decide, by decide, .inr rfl⟩

theorem isRead_ofRatio (hd : d ≠ 0) (n : Nat) : (ofRatio negative n d).IsRead := by
  rcases ofRatio_cases negative hd n with h | ⟨h, -⟩
  · exact .inr ⟨_, h⟩
  · exact .inl h

theorem isRead_ofDecimal (negative : Bool) (n : Nat) (p : Int) : (ofDecimal negative n p).IsRead := by
  unfold ofDecimal
  dsimp only
  split
  · exact isRead_zero negative
  · split
    · exact .inr ⟨_, rfl⟩
    · exact isRead_ofRatio (Nat.pow_pos (by decide)).ne' _

theorem isRead_of_readUnsigned? (h : readUnsigned? negative t = some x) : x.IsRead := by
  unfold readUnsigned? at h
  dsimp only at h
  split at h
  · cases h
    exact isRead_ofDecimal ..
  · cases h

theorem IsRead.append (h : x.IsRead) (base digit : Nat) : (x.append base digit).IsRead := by
  unfold Number.append
  split
  · exact isRead_ofRatio Nat.one_ne_zero _
  · exact h

theorem IsRead.foldlM_append {base : Nat} {y : Number} (hx : x.IsRead)
    (h : t.foldlM (fun acc c => (Text.digitValue? base c).map (acc.append base)) x = some y) :
    y.IsRead := by
  induction t generalizing x with
  | nil =>
    cases h
    exact hx
  | cons c t ih =>
    rw [List.foldlM_cons, Option.bind_eq_bind, Option.bind_eq_some_iff] at h
    obtain ⟨z, hz, h⟩ := h
    obtain ⟨digit, -, rfl⟩ := Option.map_eq_some_iff.mp hz
    exact ih (hx.append base digit) h

theorem isRead_of_readBase? {base : Nat} (h : readBase? base t = some x) : x.IsRead := by
  unfold readBase? at h
  split at h
  · cases h
  · exact (isRead_zero false).foldlM_append h

theorem takeSign_suffix (t : Text) : (takeSign t).2 <:+ t := by
  unfold takeSign
  split
  · exact List.suffix_cons ..
  · exact List.suffix_cons ..
  · exact List.suffix_rfl

/-- In small letters no text but one that ends in `n` is read as no number. -/
theorem isRead_of_read? (hlower : Text.lowerAscii t = t) (hlast : t.getLast? ≠ some 'n')
    (h : read? t = some x) : x.IsRead := by
  obtain ⟨front, hfront⟩ := takeSign_suffix t
  unfold read? at h
  dsimp only at h
  split at h
  · rename_i hnan
    have hword : Text.lowerAscii (takeSign t).2 = ['n', 'a', 'n'] := by
      simpa using congrArg String.toList hnan
    have hend : t = Text.lowerAscii front ++ ['n', 'a', 'n'] :=
      calc t = Text.lowerAscii (front ++ (takeSign t).2) := by rw [hfront, hlower]
        _ = Text.lowerAscii front ++ ['n', 'a', 'n'] := by rw [← hword]; exact List.map_append
    exact absurd (by simp [hend]) hlast
  · split at h
    · cases h
      exact .inr ⟨_, rfl⟩
    · exact isRead_of_readUnsigned? h

end Number

namespace Literal

variable {raw s t : Text} {x : Number}

theorem isRead_of_numberOf? (hlower : Text.lowerAscii t = t) (h : numberOf? t = some x) : x.IsRead := by
  unfold numberOf? at h
  split at h
  · cases h
  · rename_i hlast
    split at h
    · exact Number.isRead_of_readBase? h
    · exact Number.isRead_of_readBase? h
    · exact Number.isRead_of_readBase? h
    · split at h
      · exact Number.isRead_of_readBase? h
      · exact Number.isRead_of_read? hlower hlast h

end Literal

/-! ## Numerals that are read -/

namespace Text

variable {c : Char} {t : Text} {v : ℚ} {p : Int}

/-- The characters of a numeral. -/
def IsNumeric (c : Char) : Prop := c.isDigit ∨ c ∈ ['.', 'e', '+', '-']

instance (c : Char) : Decidable (IsNumeric c) := inferInstanceAs (Decidable (_ ∨ _))

theorem toLower_toLower (c : Char) : c.toLower.toLower = c.toLower := by
  have hsmall : ∀ code < 91, (Char.ofNat code).toLower.toLower = (Char.ofNat code).toLower := by decide
  by_cases hc : c.toNat < 91
  · rw [← Char.ofNat_toNat c]
    exact hsmall _ hc
  · have hsame : c.toLower = c := dif_neg fun hcapital => hc (Nat.lt_succ_of_le hcapital.2)
    rw [hsame, hsame]

theorem lowerAscii_lowerAscii (t : Text) : lowerAscii (lowerAscii t) = lowerAscii t := by
  unfold lowerAscii
  rw [List.map_map]
  exact List.map_congr_left fun c _ => toLower_toLower c

theorem toLower_of_isDigit (h : c.isDigit) : c.toLower = c := by
  rw [isDigit_iff] at h
  have hle : c.toNat ≤ '9'.toNat := h.2
  unfold Char.toLower
  split
  · rename_i hcapital
    have hge : 'A'.toNat ≤ c.toNat := hcapital.1
    exact absurd (hge.trans hle) (by decide)
  · rfl

theorem lowerAscii_of_isNumeric (h : ∀ c ∈ t, IsNumeric c) : lowerAscii t = t := by
  have hkept : ∀ c ∈ t, c.toLower = c := by
    intro c hc
    rcases h c hc with hdigit | hmark
    · exact toLower_of_isDigit hdigit
    · simp only [List.mem_cons, List.not_mem_nil, or_false] at hmark
      rcases hmark with rfl | rfl | rfl | rfl <;> rfl
  exact (List.map_congr_left hkept).trans (List.map_id' _)

theorem Spelled.isNumeric {n : Nat} (h : Spelled 10 t n) : ∀ c ∈ t, IsNumeric c :=
  fun c hc => .inl (h.isDigit c hc)

theorem Power.isNumeric (h : Power t p) : ∀ c ∈ t, IsNumeric c := by
  cases h with
  | none => simp
  | plus _ hword =>
    rintro c (_ | ⟨_, _ | ⟨_, hc⟩⟩)
    · decide
    · decide
    · exact hword.isNumeric c hc
  | minus _ hword =>
    rintro c (_ | ⟨_, _ | ⟨_, hc⟩⟩)
    · decide
    · decide
    · exact hword.isNumeric c hc

theorem Numeral.isNumeric (h : Numeral t v) : ∀ c ∈ t, IsNumeric c := by
  cases h with
  | whole _ hword hpower =>
    intro c hc
    rcases List.mem_append.mp hc with hc | hc
    · exact hword.isNumeric c hc
    · exact hpower.isNumeric c hc
  | fraction _ _ hword hpower =>
    intro c hc
    rcases List.mem_append.mp hc with hc | hc
    · exact hword.isNumeric c (List.mem_append_left _ hc)
    · rcases List.mem_cons.mp hc with rfl | hc
      · decide
      · rcases List.mem_append.mp hc with hc | hc
        · exact hword.isNumeric c (List.mem_append_right _ hc)
        · exact hpower.isNumeric c hc

theorem Numeral.not_mem (h : Numeral t v) (hc : ¬ IsNumeric c) : c ∉ t :=
  fun hmem => hc (h.isNumeric c hmem)

theorem Numeral.exists_head (h : Numeral t v) : ∃ c rest, t = c :: rest ∧ c.isDigit := by
  cases h with
  | @whole word power _ _ hne hword _ =>
    obtain ⟨c, word, rfl⟩ := List.exists_cons_of_ne_nil hne
    exact ⟨c, word ++ power, rfl, hword.isDigit c List.mem_cons_self⟩
  | @fraction word more power _ _ hne _ hword _ =>
    obtain ⟨c, word, rfl⟩ := List.exists_cons_of_ne_nil hne
    exact ⟨c, word ++ '.' :: (more ++ power), rfl, hword.isDigit c List.mem_cons_self⟩

end Text

namespace Number

theorem readPower?_of_power (h : Text.Power t p) : readPower? t = some p := by
  cases h with
  | none => rfl
  | plus hne hword =>
    simp [readPower?, takeSign, Text.wholeValue?_eq_some_iff.mpr ⟨hne, hword⟩]
  | minus hne hword =>
    simp [readPower?, takeSign, Text.wholeValue?_eq_some_iff.mpr ⟨hne, hword⟩]

/-- A numeral is read as the number nearest to its value. -/
theorem readUnsigned?_of_numeral (h : Text.Numeral t v) (negative : Bool) :
    ∃ (n : Nat) (p : Int), v = n * 10 ^ p ∧ readUnsigned? negative t = some (ofDecimal negative n p) := by
  cases h with
  | @whole word power n p hne hword hpower =>
    refine ⟨n, p, rfl, ?_⟩
    have hspan := Text.spanDigits_append hword.isDigit hpower.head_not_digit
    have hvalue := Text.wholeValue?_eq_some_iff.mpr ⟨hne, hword⟩
    have hread := readPower?_of_power hpower
    unfold readUnsigned?
    rw [hspan]
    cases hpower <;> simp [hvalue, hread]
  | @fraction word more power n p hne hmore hword hpower =>
    refine ⟨n, _, rfl, ?_⟩
    have hspan := Text.spanDigits_append (fun c hc => hword.isDigit c (List.mem_append_left _ hc))
      (Text.head_not_digit (c := '.') rfl (more ++ power))
    have hspan' := Text.spanDigits_append (fun c hc => hword.isDigit c (List.mem_append_right _ hc))
      hpower.head_not_digit
    have hvalue := Text.wholeValue?_eq_some_iff.mpr ⟨by simp [hne], hword⟩
    have hread := readPower?_of_power hpower
    unfold readUnsigned?
    rw [hspan]
    simp [hspan', hvalue, hread]

/-- The sign in front of a number. -/
def sign (negative : Bool) : Text := if negative then ['-'] else []

theorem takeSign_of_numeral (h : Text.Numeral t v) (negative : Bool) :
    takeSign (sign negative ++ t) = (negative, t) := by
  cases negative with
  | true => rfl
  | false =>
    obtain ⟨c, rest, rfl, hc⟩ := h.exists_head
    change takeSign (c :: rest) = _
    unfold takeSign
    split
    · rename_i heq
      cases heq
      cases hc
    · rename_i heq
      cases heq
      cases hc
    · rfl

theorem read?_of_numeral (h : Text.Numeral t v) (negative : Bool) :
    read? (sign negative ++ t) = readUnsigned? negative t := by
  have hlower := Text.lowerAscii_of_isNumeric h.isNumeric
  -- the words for infinity and for no number have an n in them
  have hword : ∀ w : String, 'n' ∈ w.toList → String.ofList t ≠ w := by
    rintro w hw rfl
    rw [String.toList_ofList] at hw
    exact h.not_mem (by decide) hw
  rw [read?, takeSign_of_numeral h]
  dsimp only
  rw [hlower, if_neg (hword "nan" (by decide)),
    if_neg (not_or.mpr ⟨hword "inf" (by decide), hword "infinity" (by decide)⟩)]

theorem text_finite (negative : Bool) (hm : m ≠ 0) (e : Int) :
    (Number.finite negative m e).text = sign negative ++ (shortest m e).scripted :=
  if_neg hm

theorem numeral_shortest (hm : m ≠ 0) (hx : (Number.finite negative m e).IsFinite) :
    Text.Numeral (shortest m e).scripted (shortest m e).value := by
  have hproper := (Decimal.isShortest_shortest hm hx).proper
  exact Decimal.numeral_scripted hproper.ne_nil hproper.digits

/-- The text of a number above zero is read as the number. -/
theorem read?_scripted (hm : m ≠ 0) (hx : (Number.finite negative m e).IsFinite) :
    read? (sign negative ++ (shortest m e).scripted) = some (.finite negative m e) := by
  obtain ⟨hproper, hreads, -, -⟩ := Decimal.isShortest_shortest hm hx
  have hnumeral := numeral_shortest hm hx
  obtain ⟨n, p, hvalue, hread⟩ := readUnsigned?_of_numeral hnumeral negative
  have hin := (hproper.number_eq_iff hm hx).mp hreads
  have hn : n ≠ 0 := by
    rintro rfl
    have hpos := hproper.value_pos
    rw [hvalue] at hpos
    simp at hpos
  rw [hvalue] at hin
  rw [read?_of_numeral hnumeral, hread, (ofDecimal_eq_finite_iff hn hm hx p).mpr hin]

end Number

/-! ## The same text again -/

namespace Literal

variable {raw s t : Text} {x : Number} {v : ℚ}

/-- A literal that is read as a decimal: no big integer, no base letter, and no octal digits alone. -/
structure IsDecimal (t : Text) : Prop where
  last : t.getLast? ≠ some 'n'
  letter : ∀ c ∈ ['x', 'o', 'b'], ¬ ['0', c] <+: t
  octal : isLegacyOctal t = false

theorem IsDecimal.numberOf?_eq (h : IsDecimal t) : numberOf? t = Number.read? t := by
  unfold numberOf?
  rw [if_neg h.last]
  split
  · exact absurd ⟨_, rfl⟩ (h.letter 'x' (by decide))
  · exact absurd ⟨_, rfl⟩ (h.letter 'o' (by decide))
  · exact absurd ⟨_, rfl⟩ (h.letter 'b' (by decide))
  · rw [h.octal, if_neg Bool.false_ne_true]

theorem cleaned_of_isNumeric (h : ∀ c ∈ t, Text.IsNumeric c) : cleaned t = t := by
  rw [cleaned_of_not_mem, Text.lowerAscii_of_isNumeric h]
  intro hmem
  exact absurd (h _ hmem) (by decide)

theorem isDecimal_of_isNumeric (h : ∀ c ∈ t, Text.IsNumeric c) (hoctal : isLegacyOctal t = false) :
    IsDecimal t := by
  refine ⟨fun hlast => ?_, ?_, hoctal⟩
  · exact absurd (h _ (List.mem_of_getLast? hlast)) (by decide)
  · rintro c hc ⟨digits, rfl⟩
    have hnumeric := h c (by simp)
    simp only [List.mem_cons, List.not_mem_nil, or_false] at hc
    rcases hc with rfl | rfl | rfl <;> exact absurd hnumeric (by decide)

theorem not_isLegacyOctal_of_head (h : t.head? ≠ some '0') : isLegacyOctal t = false := by
  unfold isLegacyOctal
  split
  · exact absurd rfl h
  · rfl

theorem isDecimal_of_head (hhead : t.head? ≠ some '0') (hlast : t.getLast? ≠ some 'n') :
    IsDecimal t := by
  refine ⟨hlast, ?_, not_isLegacyOctal_of_head hhead⟩
  rintro c - ⟨digits, rfl⟩
  exact hhead rfl

/-- After a zero in front comes a point. -/
theorem not_isLegacyOctal_scripted {d : Decimal} (h : d.IsProper) :
    isLegacyOctal d.scripted = false := by
  obtain ⟨l, -, hlaid⟩ := Decimal.exists_laid h.ne_nil
  have hhead := h.head
  generalize d.scripted = t at hlaid
  cases hlaid with
  | whole zeros =>
    apply not_isLegacyOctal_of_head
    rwa [List.head?_append_of_ne_nil _ h.ne_nil]
  | inner hsplit hfront _ =>
    apply not_isLegacyOctal_of_head
    rw [hsplit, List.head?_append_of_ne_nil _ hfront] at hhead
    rwa [List.head?_append_of_ne_nil _ hfront]
  | leading zeros => rfl
  | exponential power hsplit =>
    apply not_isLegacyOctal_of_head
    rwa [hsplit] at hhead

theorem isNumeric_signed (h : Text.Numeral t v) (negative : Bool) :
    ∀ c ∈ Number.sign negative ++ t, Text.IsNumeric c := by
  intro c hc
  rcases List.mem_append.mp hc with hc | hc
  · cases negative with
    | false => cases hc
    | true =>
      rw [List.mem_singleton.mp hc]
      decide
  · exact h.isNumeric c hc

/-- The text of a number that is read is a decimal, and it is read as a number of the same text. -/
theorem exists_read_text (h : x.IsRead) :
    IsDecimal (cleaned x.text) ∧ ∃ y, Number.read? (cleaned x.text) = some y ∧ y.text = x.text := by
  cases x with
  | nan => rcases h with h | ⟨_, h⟩ <;> cases h
  | infinity negative =>
    cases negative with
    | false => exact ⟨isDecimal_of_head (by decide) (by decide), .infinity false, by decide, rfl⟩
    | true => exact ⟨isDecimal_of_head (by decide) (by decide), .infinity true, by decide, rfl⟩
  | finite negative m e =>
    have hx := h.resolve_right (by rintro ⟨_, hx⟩; cases hx)
    by_cases hm : m = 0
    · have hzero : ∀ negative e, Number.text (.finite negative 0 e) = ['0'] :=
        fun _ _ => by rw [Number.text, if_pos rfl]
      have hnumeric : ∀ c ∈ ['0'], Text.IsNumeric c := List.forall_mem_singleton.mpr (by decide)
      rw [hm, hzero, cleaned_of_isNumeric hnumeric]
      exact ⟨isDecimal_of_isNumeric hnumeric rfl, .zero, by decide, hzero ..⟩
    · have htext := Number.text_finite negative hm e
      have hnumeric := isNumeric_signed (Number.numeral_shortest hm hx) negative
      rw [htext, cleaned_of_isNumeric hnumeric]
      refine ⟨isDecimal_of_isNumeric hnumeric ?_, _, Number.read?_scripted hm hx, htext⟩
      cases negative with
      | false => exact not_isLegacyOctal_scripted (Decimal.isShortest_shortest hm hx).proper
      | true => rfl

/-- Canonical text is its own canonical text, and it is read as a decimal. -/
theorem canonical_text_is_fixed (h : canonicalNumber? raw = some s) :
    canonicalNumber? s = some s ∧ s ≠ "NaN".toList ∧ IsDecimal (cleaned s) := by
  obtain ⟨x, hx, rfl⟩ := Option.map_eq_some_iff.mp h
  have hlower : Text.lowerAscii (cleaned raw) = cleaned raw := Text.lowerAscii_lowerAscii _
  obtain ⟨hdecimal, y, hread, htext⟩ := exists_read_text (isRead_of_numberOf? hlower hx)
  have hfixed : canonicalNumber? x.text = some x.text := by
    rw [canonicalNumber?, hdecimal.numberOf?_eq, hread, Option.map_some, htext]
  refine ⟨hfixed, ?_, hdecimal⟩
  intro hnan
  rw [hnan] at hfixed
  exact absurd hfixed (by decide)

/-- A number with a base letter and separators gets a signed exponent and then stays. -/
theorem power_text_is_fixed :
    let raw := "0x1_00000_00000_00000_00000".toList
    let s := "1.2089258196146292e+24".toList
    canonicalNumber? raw = some s ∧ canonicalNumber? s = some s ∧ s ≠ "NaN".toList ∧
      IsDecimal (cleaned s) := by
  have h : canonicalNumber? "0x1_00000_00000_00000_00000".toList =
      some "1.2089258196146292e+24".toList := by decide +kernel
  exact ⟨h, canonical_text_is_fixed h⟩

end Literal

end LiteralFolding
