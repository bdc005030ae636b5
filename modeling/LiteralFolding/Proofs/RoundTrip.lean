-- The law of quoted literals: a text written between quotes reads back as itself. Each written
-- character is either plain or an escape that takes exactly its own characters off what
-- follows, whatever that is; only the short form of NUL must look at the next character.
import LiteralFolding.Expression
import LiteralFolding.Literal.Quoted

namespace LiteralFolding.Literal

/-! ## Steps of decoding -/

theorem decode?_plain {c : Char} (h : c ≠ '\\') (t : Text) :
    decode? (c :: t) = (decode? t).map (c :: ·) := by
  rw [decode?]
  exact h

theorem decode?_escape {t rest : Text} {decoded : Option Char}
    (h : escape? t = some (decoded, rest)) :
    decode? ('\\' :: t) = (decode? rest).map (decoded.toList ++ ·) := by
  rw [decode?]
  split
  · rename_i h'
    rw [h] at h'
    cases h'
  · rename_i h'
    rw [h] at h'
    cases h'
    rfl

/-! ## Digits -/

theorem hexValue?_hexDigit : ∀ n < 16, Text.hexValue? (hexDigit n) = some n := by decide

theorem hexDigit_ne_brace : ∀ n < 16, hexDigit n ≠ '\x7b' := by decide

theorem digitValue?_hexDigit {n : Nat} (h : n < 16) :
    Text.digitValue? 16 (hexDigit n) = some n := by
  rw [Text.digitValue?, hexValue?_hexDigit n h]
  simp [h]

/-- Four digits are read back as the number that they spell. -/
theorem fixedValue?_hexDigits {a b c d : Nat} (ha : a < 16) (hb : b < 16) (hc : c < 16)
    (hd : d < 16) (rest : Text) :
    Text.fixedValue? 16 4 (hexDigit a :: hexDigit b :: hexDigit c :: hexDigit d :: rest) =
      some (((a * 16 + b) * 16 + c) * 16 + d, rest) := by
  simp [Text.fixedValue?, Text.wholeValue?, digitValue?_hexDigit, ha, hb, hc, hd]

/-! ## Escapes of single characters -/

theorem scalar?_toNat (c : Char) : Text.scalar? c.toNat = some c := by
  have hvalid : c.toNat.isValidChar := c.valid
  rw [Text.scalar?, if_pos hvalid, Char.ofNat_toNat]

theorem not_isHighSurrogate_toNat (c : Char) : isHighSurrogate c.toNat = false := by
  have hvalid : c.toNat < 0xD800 ∨ 0xDFFF < c.toNat ∧ c.toNat < 0x110000 := c.valid
  simp only [isHighSurrogate, Bool.and_eq_false_iff, decide_eq_false_iff_not]
  omega

theorem escape?_unicodeEscape {c : Char} (h : c.toNat < 0x10000) (rest : Text) :
    escape? ((unicodeEscape c).drop 1 ++ rest) = some (some c, rest) := by
  have hvalue : ((c.toNat / 0x1000 % 16 * 16 + c.toNat / 0x100 % 16) * 16 +
      c.toNat / 0x10 % 16) * 16 + c.toNat % 16 = c.toNat := by omega
  have hbrace := hexDigit_ne_brace (c.toNat / 0x1000 % 16) (Nat.mod_lt _ (by decide))
  have hdigits := fixedValue?_hexDigits (a := c.toNat / 0x1000 % 16) (b := c.toNat / 0x100 % 16)
    (c := c.toNat / 0x10 % 16) (d := c.toNat % 16) (Nat.mod_lt _ (by decide))
    (Nat.mod_lt _ (by decide)) (Nat.mod_lt _ (by decide)) (Nat.mod_lt _ (by decide)) rest
  rw [hvalue] at hdigits
  have hcode : codeEscape? (hexDigit (c.toNat / 0x1000 % 16) :: hexDigit (c.toNat / 0x100 % 16) ::
      hexDigit (c.toNat / 0x10 % 16) :: hexDigit (c.toNat % 16) :: rest) = some (c, rest) := by
    simp [codeEscape?, hdigits, not_isHighSurrogate_toNat, scalar?_toNat]
  simp only [unicodeEscape, List.drop_succ_cons, List.drop_zero, List.cons_append, List.nil_append,
    escape?]
  rw [unicodeEscape?]
  · rw [hcode]
    rfl
  · intro t heq
    exact hbrace (List.cons.inj heq).1

/-- What follows does not start with an octal digit. -/
def NoOctalNext (rest : Text) : Prop := ∀ c t, rest = c :: t → ('0' ≤ c && c ≤ '7') = false

theorem escape?_short_nul {rest : Text} (h : NoOctalNext rest) :
    escape? ('0' :: rest) = some (some '\x00', rest) := by
  have hdigits : (rest.take 2).takeWhile (fun c => '0' ≤ c && c ≤ '7') = [] := by
    cases rest with
    | nil => rfl
    | cons c t => simp [h c t rfl]
  simp [escape?, octalEscape, hdigits]

theorem escape?_long_nul (rest : Text) :
    escape? ('x' :: '0' :: '0' :: rest) = some (some '\x00', rest) := by
  have hdigits : Text.fixedValue? 16 2 ('0' :: '0' :: rest) = some (0, rest) := by
    rfl
  rw [escape?, hdigits]
  rfl

/-- A written character is itself, or an escape that decodes to the character and leaves all
that follows. -/
theorem encodeChar_cases (quote : Quote) (c : Char) (next : Option Char) :
    (encodeChar quote c next = [c] ∧ c ≠ '\\') ∨
      ∃ body, encodeChar quote c next = '\\' :: body ∧
        ∀ rest, (next.any Char.isDigit = false → NoOctalNext rest) →
          escape? (body ++ rest) = some (some c, rest) := by
  rw [encodeChar]
  by_cases hslash : c = '\\'
  · subst hslash
    exact .inr ⟨['\\'], rfl, fun rest _ => rfl⟩
  rw [if_neg hslash]
  by_cases hquote : c = quote.char
  · subst hquote
    rw [if_pos rfl]
    refine .inr ⟨[quote.char], rfl, fun rest _ => ?_⟩
    cases quote <;> rfl
  rw [if_neg hquote]
  by_cases hn : c = '\n'
  · subst hn
    exact .inr ⟨['n'], rfl, fun rest _ => rfl⟩
  rw [if_neg hn]
  by_cases hr : c = '\r'
  · subst hr
    exact .inr ⟨['r'], rfl, fun rest _ => rfl⟩
  rw [if_neg hr]
  by_cases ht : c = '\t'
  · subst ht
    exact .inr ⟨['t'], rfl, fun rest _ => rfl⟩
  rw [if_neg ht]
  by_cases hb : c = '\x08'
  · subst hb
    exact .inr ⟨['b'], rfl, fun rest _ => rfl⟩
  rw [if_neg hb]
  by_cases hv : c = '\x0b'
  · subst hv
    exact .inr ⟨['v'], rfl, fun rest _ => rfl⟩
  rw [if_neg hv]
  by_cases hf : c = '\x0c'
  · subst hf
    exact .inr ⟨['f'], rfl, fun rest _ => rfl⟩
  rw [if_neg hf]
  by_cases hnul : c = '\x00'
  · subst hnul
    rw [if_pos rfl]
    by_cases hdigit : next.any Char.isDigit = true
    · rw [if_pos hdigit]
      exact .inr ⟨['x', '0', '0'], rfl, fun rest _ => escape?_long_nul rest⟩
    · rw [if_neg hdigit]
      exact .inr ⟨['0'], rfl, fun rest hrest => escape?_short_nul (hrest (by simpa using hdigit))⟩
  rw [if_neg hnul]
  by_cases hcode : needsUnicodeEscape c = true
  · rw [if_pos hcode]
    have hsmall : c.toNat < 0x10000 := by
      simp only [needsUnicodeEscape, Bool.or_eq_true, decide_eq_true_eq] at hcode
      rcases hcode with ((rfl | rfl) | rfl) | hlt
      · decide
      · decide
      · decide
      · omega
    exact .inr ⟨_, rfl, fun rest _ => escape?_unicodeEscape hsmall rest⟩
  · rw [if_neg hcode]
    exact .inl ⟨rfl, hslash⟩

/-! ## Whole bodies -/

theorem not_octal_of_not_isDigit {c : Char} (h : c.isDigit = false) :
    ('0' ≤ c && c ≤ '7') = false := by
  simp only [Char.isDigit, Bool.and_eq_false_iff, decide_eq_false_iff_not, Char.le_def,
    UInt32.le_iff_toNat_le, ge_iff_le] at h ⊢
  have hseven : '7'.val.toNat ≤ '9'.val.toNat := by decide
  rcases h with h | h
  · exact .inl h
  · exact .inr (by omega)

theorem noOctalNext_encodeBody {quote : Quote} {t : Text} (h : t.head?.any Char.isDigit = false) :
    NoOctalNext (encodeBody quote t) := by
  intro d u heq
  cases t with
  | nil => cases heq
  | cons c t =>
    rw [encodeBody] at heq
    rcases encodeChar_cases quote c t.head? with ⟨hc, _⟩ | ⟨body, hc, _⟩
    · rw [hc] at heq
      cases heq
      exact not_octal_of_not_isDigit (by simpa using h)
    · rw [hc] at heq
      cases heq
      rfl

theorem decode?_encodeBody (quote : Quote) (t : Text) : decode? (encodeBody quote t) = some t := by
  induction t with
  | nil =>
    rw [encodeBody, decode?]
  | cons c t ih =>
    rw [encodeBody]
    rcases encodeChar_cases quote c t.head? with ⟨hc, hplain⟩ | ⟨body, hc, hbody⟩
    · rw [hc, List.singleton_append, decode?_plain hplain, ih]
      rfl
    · rw [hc, List.cons_append, decode?_escape (hbody _ noOctalNext_encodeBody), ih]
      rfl

theorem inside_encode (quote : Quote) (t : Text) :
    inside (encode quote t) = encodeBody quote t := by
  simp [inside, encode]

/-- Reading the inside of a written literal gives the text back. -/
theorem decode?_inside_encode (quote : Quote) (t : Text) :
    decode? (inside (encode quote t)) = some t := by
  rw [inside_encode, decode?_encodeBody]

end LiteralFolding.Literal
