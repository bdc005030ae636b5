-- The grammar of literal bodies. A body is read from left to right as items, each the longest that
-- stands there: a character, or an escape of one of eight forms. Decoding gives the values of the
-- items one after the other, and fails exactly where no item stands.
import LiteralFolding.Proofs.Digits
import LiteralFolding.Proofs.RoundTrip
import Mathlib.Data.List.TakeWhile

namespace LiteralFolding.Literal

open Text (Spelled)

/-! ## Items -/

/-- The letters that stand for a control character after a backslash. -/
def controls : List (Char × Char) :=
  [('n', '\n'), ('r', '\r'), ('t', '\t'), ('b', '\x08'), ('f', '\x0c'), ('v', '\x0b')]

/-- Where a line ends. -/
def lineEnds : List Text := [['\n'], ['\r'], ['\r', '\n'], ['\u2028'], ['\u2029']]

/-- The characters other than digits that mean something else after a backslash. -/
def meaningful : List Char :=
  ['n', 'r', 't', 'b', 'f', 'v', 'x', 'u', '\n', '\r', '\u2028', '\u2029']

/-- How many octal digits may follow the first. -/
def moreOctals (first : Char) : Nat := if first ≤ '3' then 2 else 1

/-- One item of a body, as it is written, and the text that it stands for. -/
inductive Item : Text → Text → Prop
  | plain {c : Char} : c ≠ '\\' → Item [c] [c]
  | control {name c : Char} : (name, c) ∈ controls → Item ['\\', name] [c]
  | byte {word : Text} {c : Char} :
      word.length = 2 → Spelled 16 word c.toNat → Item ('\\' :: 'x' :: word) [c]
  | braced {word : Text} {c : Char} :
      word ≠ [] → Spelled 16 word c.toNat → Item ('\\' :: 'u' :: '\x7b' :: (word ++ ['\x7d'])) [c]
  | code {word : Text} {c : Char} :
      word.length = 4 → Spelled 16 word c.toNat → Item ('\\' :: 'u' :: word) [c]
  | pair {word word' : Text} {high low : Nat} {c : Char} :
      word.length = 4 → Spelled 16 word high → 0xD800 ≤ high → high ≤ 0xDBFF →
      word'.length = 4 → Spelled 16 word' low → 0xDC00 ≤ low → low ≤ 0xDFFF →
      c.toNat = 0x10000 + (high - 0xD800) * 0x400 + (low - 0xDC00) →
      Item ('\\' :: 'u' :: (word ++ '\\' :: 'u' :: word')) [c]
  | octal {first : Char} {word : Text} {c : Char} :
      Spelled 8 (first :: word) c.toNat → word.length ≤ moreOctals first →
      Item ('\\' :: first :: word) [c]
  | continuation {lineEnd : Text} : lineEnd ∈ lineEnds → Item ('\\' :: lineEnd) []
  | other {c : Char} : c ∉ meaningful → ¬ ('0' ≤ c ∧ c ≤ '7') → Item ['\\', c] [c]

/-- A body split into items from the left, each the longest that stands there, and the text that
they stand for. -/
inductive Splits : Text → Text → Prop
  | nil : Splits [] []
  | cons {word value rest t : Text} :
      Item word value →
      (∀ word' value', Item word' value' → word' <+: word ++ rest → word'.length ≤ word.length) →
      Splits rest t → Splits (word ++ rest) (value ++ t)

variable {t rest word value : Text} {c : Char}

/-! ## Codes -/

theorem scalar?_eq_some_iff {code : Nat} : Text.scalar? code = some c ↔ c.toNat = code := by
  constructor
  · intro h
    unfold Text.scalar? at h
    split at h
    · rename_i hvalid
      rw [← Option.some.inj h, Char.ofNat, dif_pos hvalid]
      rfl
    · cases h
  · rintro rfl
    exact scalar?_toNat c

/-- A code escape reads four digits, and four more after a first half of a pair. -/
theorem codeEscape?_eq_some_iff :
    codeEscape? t = some (c, rest) ↔
      (∃ word, t = word ++ rest ∧ word.length = 4 ∧ Spelled 16 word c.toNat) ∨
      ∃ word word' high low, t = word ++ '\\' :: 'u' :: (word' ++ rest) ∧
        (word.length = 4 ∧ Spelled 16 word high ∧ 0xD800 ≤ high ∧ high ≤ 0xDBFF) ∧
        (word'.length = 4 ∧ Spelled 16 word' low ∧ 0xDC00 ≤ low ∧ low ≤ 0xDFFF) ∧
        c.toNat = 0x10000 + (high - 0xD800) * 0x400 + (low - 0xDC00) := by
  constructor
  · intro h
    simp only [codeEscape?, Option.bind_eq_bind, Option.bind_eq_some_iff] at h
    obtain ⟨⟨high, after⟩, hhigh, h⟩ := h
    obtain ⟨word, rfl, hlen, hword⟩ := (Text.fixedValue?_eq_some_iff (by decide)).mp hhigh
    dsimp only at h
    split at h
    · rename_i hsur
      simp only [isHighSurrogate, Bool.and_eq_true, decide_eq_true_eq] at hsur
      obtain ⟨after', hstrip, hrest⟩ := Option.bind_eq_some_iff.mp h
      obtain ⟨⟨low, after''⟩, hlow, hchar⟩ := Option.bind_eq_some_iff.mp hrest
      obtain ⟨word', hsplit, hlen', hword'⟩ := (Text.fixedValue?_eq_some_iff (by decide)).mp hlow
      dsimp only at hchar
      split at hchar
      · rename_i hsur'
        simp only [isLowSurrogate, Bool.and_eq_true, decide_eq_true_eq] at hsur'
        obtain ⟨c', hc, heq⟩ := Option.map_eq_some_iff.mp hchar
        obtain ⟨rfl, rfl⟩ := Prod.mk.inj heq
        refine .inr ⟨word, word', high, low, ?_, ⟨hlen, hword, hsur⟩, ⟨hlen', hword', hsur'⟩,
          scalar?_eq_some_iff.mp hc⟩
        rw [Text.strip?_eq_some_iff.mp hstrip, hsplit]
        rfl
      · cases hchar
    · obtain ⟨c', hc, heq⟩ := Option.map_eq_some_iff.mp h
      obtain ⟨rfl, rfl⟩ := Prod.mk.inj heq
      exact .inl ⟨word, rfl, hlen, scalar?_eq_some_iff.mp hc ▸ hword⟩
  · rintro (⟨word, rfl, hlen, hword⟩ | ⟨word, word', high, low, rfl, hhigh, hlow, hc⟩)
    · have hfixed : Text.fixedValue? 16 4 (word ++ rest) = some (c.toNat, rest) :=
        (Text.fixedValue?_eq_some_iff (by decide)).mpr ⟨word, rfl, hlen, hword⟩
      simp [codeEscape?, hfixed, not_isHighSurrogate_toNat, scalar?_toNat]
    · obtain ⟨hlen, hword, hsur⟩ := hhigh
      obtain ⟨hlen', hword', hsur'⟩ := hlow
      have hfixed : Text.fixedValue? 16 4 (word ++ '\\' :: 'u' :: (word' ++ rest)) =
          some (high, '\\' :: 'u' :: (word' ++ rest)) :=
        (Text.fixedValue?_eq_some_iff (by decide)).mpr ⟨word, rfl, hlen, hword⟩
      have hfixed' : Text.fixedValue? 16 4 (word' ++ rest) = some (low, rest) :=
        (Text.fixedValue?_eq_some_iff (by decide)).mpr ⟨word', rfl, hlen', hword'⟩
      have hpair : Text.scalar? (pairCode high low) = some c := scalar?_eq_some_iff.mpr hc
      have hhigh : isHighSurrogate high = true := by simp [isHighSurrogate, hsur]
      have hlow : isLowSurrogate low = true := by simp [isLowSurrogate, hsur']
      have hstrip : Text.strip? ['\\', 'u'] ('\\' :: 'u' :: (word' ++ rest)) = some (word' ++ rest) :=
        Text.strip?_eq_some_iff.mpr rfl
      simp [codeEscape?, hfixed, hhigh, hstrip, hfixed', hlow, hpair]

theorem ne_of_mem_spelled {base n : Nat} (h : Spelled base word n) (hc : Text.hexValue? c = none) :
    ∀ x ∈ word, x ≠ c := by
  rintro x hx rfl
  have hsome := h.isSome_hexValue? x hx
  rw [hc] at hsome
  cases hsome

/-- A code in braces ends at the first closing brace, and that is the one after its digits. -/
theorem unicodeEscape?_brace_eq_some_iff :
    unicodeEscape? ('\x7b' :: t) = some (c, rest) ↔
      ∃ word, t = word ++ '\x7d' :: rest ∧ word ≠ [] ∧ Spelled 16 word c.toNat := by
  rw [unicodeEscape?]
  constructor
  · intro h
    split at h
    · cases h
    · rename_i x after heq
      obtain ⟨c', hc, hpair⟩ := Option.map_eq_some_iff.mp h
      obtain ⟨rfl, rfl⟩ := Prod.mk.inj hpair
      obtain ⟨code, hcode, hscalar⟩ := Option.bind_eq_some_iff.mp hc
      obtain ⟨hne, hword⟩ := Text.wholeValue?_eq_some_iff.mp hcode
      have hx : x = '\x7d' := by
        have := List.head?_dropWhile_not (· ≠ '\x7d') t
        rw [heq] at this
        simpa using this
      refine ⟨_, ?_, hne, scalar?_eq_some_iff.mp hscalar ▸ hword⟩
      subst hx
      rw [← heq, List.takeWhile_append_dropWhile]
  · rintro ⟨word, rfl, hne, hword⟩
    have hopen : ∀ x ∈ word, decide (x ≠ '\x7d') = true := by
      intro x hx
      exact decide_eq_true (ne_of_mem_spelled hword (by decide) x hx)
    rw [List.takeWhile_append_of_pos hopen, List.dropWhile_append_of_pos hopen]
    have hwhole := Text.wholeValue?_eq_some_iff.mpr ⟨hne, hword⟩
    simp [hwhole, scalar?_toNat]

theorem unicodeEscape?_of_ne_brace (h : t.head? ≠ some '\x7b') : unicodeEscape? t = codeEscape? t := by
  rw [unicodeEscape?]
  rintro u rfl
  exact h rfl

/-! ## Octal digits -/

theorem hexValue?_of_octal (h : '0' ≤ c ∧ c ≤ '7') :
    Text.hexValue? c = some (c.toNat - '0'.toNat) ∧ c.toNat - '0'.toNat < 8 := by
  have hle : c ≤ '9' := Char.le_trans h.2 (by decide)
  have hlow : '0'.toNat ≤ c.toNat := h.1
  have hhigh : c.toNat ≤ '7'.toNat := h.2
  have hzero : '0'.toNat = 48 := rfl
  have hseven : '7'.toNat = 55 := rfl
  refine ⟨?_, by omega⟩
  rw [Text.hexValue?, if_pos ⟨h.1, hle⟩]

theorem octal_of_hexValue? {d : Nat} (h : Text.hexValue? c = some d) (hd : d < 8) :
    '0' ≤ c ∧ c ≤ '7' := by
  have hzero : '0'.toNat = 48 := rfl
  have hseven : '7'.toNat = 55 := rfl
  unfold Text.hexValue? at h
  split at h
  · rename_i hdigit
    have hc := Option.some.inj h
    refine ⟨hdigit.1, ?_⟩
    have hle : c.toNat ≤ '7'.toNat := by omega
    exact hle
  · split at h
    · have := Option.some.inj h
      omega
    · split at h
      · have := Option.some.inj h
        omega
      · cases h

/-- Octal digits spell the number that adding them up gives. -/
theorem spelled_octal (h : ∀ c ∈ word, '0' ≤ c ∧ c ≤ '7') :
    Spelled 8 word (word.foldl (fun acc c => acc * 8 + (c.toNat - '0'.toNat)) 0) := by
  induction word using List.reverseRecOn with
  | nil => exact .nil
  | append_singleton word c ih =>
    rw [List.foldl_append, List.foldl_cons, List.foldl_nil]
    obtain ⟨hvalue, hlt⟩ := hexValue?_of_octal (h c (by simp))
    exact .snoc (ih fun x hx => h x (List.mem_append_left _ hx)) hvalue hlt

theorem octal_of_spelled {n : Nat} (h : Spelled 8 word n) : ∀ c ∈ word, '0' ≤ c ∧ c ≤ '7' := by
  induction h with
  | nil => simp
  | snoc _ hvalue hlt ih =>
    intro x hx
    rcases List.mem_append.mp hx with hx | hx
    · exact ih x hx
    · rw [List.mem_singleton.mp hx]
      exact octal_of_hexValue? hvalue hlt

/-- The octal digits after the first that belong to its escape. -/
def octalDigits (first : Char) (t : Text) : Text :=
  (t.take (moreOctals first)).takeWhile fun c => '0' ≤ c && c ≤ '7'

theorem length_octalDigits_le (first : Char) (t : Text) :
    (octalDigits first t).length ≤ moreOctals first :=
  Nat.le_trans (List.takeWhile_sublist _).length_le (List.length_take_le _ _)

/-- Three octal digits at most make a small code. -/
theorem lt_of_spelled_octalDigits {first : Char} {n : Nat}
    (h : Spelled 8 (first :: octalDigits first t) n) : n < 512 := by
  have hmore : moreOctals first ≤ 2 := by
    unfold moreOctals
    split <;> omega
  have hlen : (first :: octalDigits first t).length ≤ 3 :=
    Nat.succ_le_succ (Nat.le_trans (length_octalDigits_le first t) hmore)
  exact Nat.lt_of_lt_of_le h.lt_pow (Nat.pow_le_pow_right (by decide) hlen)

theorem octalEscape_eq {first : Char} (h : '0' ≤ first ∧ first ≤ '7') (t : Text) :
    ∃ c, octalEscape first t = (c, t.drop (octalDigits first t).length) ∧
      Spelled 8 (first :: octalDigits first t) c.toNat := by
  have hall : ∀ c ∈ first :: octalDigits first t, '0' ≤ c ∧ c ≤ '7' := by
    intro c hc
    rcases List.mem_cons.mp hc with rfl | hc
    · exact h
    · simpa using List.mem_takeWhile_imp hc
  have hspelled := spelled_octal hall
  have hsmall := lt_of_spelled_octalDigits hspelled
  have hvalid : Nat.isValidChar (List.foldl (fun acc c => acc * 8 + (c.toNat - '0'.toNat)) 0
      (first :: octalDigits first t)) := .inl (by omega)
  exact ⟨_, rfl, (scalar?_eq_some_iff.mp (if_pos hvalid)).symm ▸ hspelled⟩

theorem octalDigits_isStart (first : Char) (t : Text) : octalDigits first t <+: t :=
  (List.takeWhile_prefix _).trans (List.take_prefix _ _)

/-- As many octal digits are taken as may and do follow. -/
theorem octalDigits_append (first : Char) (hword : ∀ c ∈ word, '0' ≤ c ∧ c ≤ '7')
    (hlen : word.length ≤ moreOctals first) (rest : Text) :
    ∃ more, octalDigits first (word ++ rest) = word ++ more ∧ more.length ≤ rest.length := by
  refine ⟨(rest.take (moreOctals first - word.length)).takeWhile fun c => '0' ≤ c && c ≤ '7', ?_, ?_⟩
  · rw [octalDigits, List.take_append, List.take_of_length_le hlen,
      List.takeWhile_append_of_pos (by simpa using hword)]
  · exact Nat.le_trans (List.takeWhile_sublist _).length_le (List.length_take_le' _ _)

/-! ## Single escapes -/

theorem not_meaningful_of_octal (h : '0' ≤ c ∧ c ≤ '7') : c ∉ meaningful := by
  intro hc
  simp only [meaningful, List.mem_cons, List.not_mem_nil, or_false] at hc
  rcases hc with rfl | rfl | rfl | rfl | rfl | rfl | rfl | rfl | rfl | rfl | rfl | rfl
  all_goals exact absurd h (by decide)

/-- After a backslash every character without a form of its own is an octal digit or itself. -/
theorem escape?_of_not_meaningful (h : c ∉ meaningful) (t : Text) :
    escape? (c :: t) =
      if '0' ≤ c ∧ c ≤ '7' then some (some (octalEscape c t).1, (octalEscape c t).2)
      else some (some c, t) := by
  simp only [meaningful, List.mem_cons, List.not_mem_nil, or_false, not_or] at h
  unfold escape?
  split
  all_goals simp_all

theorem item_of_read_control {name d : Char} {decoded : Option Char}
    (h : some (some d, t) = some (decoded, rest)) (hmem : (name, d) ∈ controls) :
    ∃ word, name :: t = word ++ rest ∧ Item ('\\' :: word) decoded.toList := by
  obtain ⟨rfl, rfl⟩ := Prod.mk.inj (Option.some.inj h)
  exact ⟨[name], rfl, .control hmem⟩

theorem item_of_read_lineEnd (lineEnd : Text) {decoded : Option Char}
    (h : some (none, t) = some (decoded, rest)) (hmem : lineEnd ∈ lineEnds) :
    ∃ word, lineEnd ++ t = word ++ rest ∧ Item ('\\' :: word) decoded.toList := by
  obtain ⟨rfl, rfl⟩ := Prod.mk.inj (Option.some.inj h)
  exact ⟨lineEnd, rfl, .continuation hmem⟩

theorem escape?_return (h : t.head? ≠ some '\n') : escape? ('\r' :: t) = some (none, t) := by
  rw [escape?]
  rintro u rfl
  exact h rfl

theorem item_of_read_return {decoded : Option Char} (h : escape? ('\r' :: t) = some (decoded, rest)) :
    ∃ word, '\r' :: t = word ++ rest ∧ Item ('\\' :: word) decoded.toList := by
  by_cases hfeed : t.head? = some '\n'
  · obtain ⟨u, rfl⟩ := List.head?_eq_some_iff.mp hfeed
    exact item_of_read_lineEnd ['\r', '\n'] h (by decide)
  · rw [escape?_return hfeed] at h
    exact item_of_read_lineEnd ['\r'] h (by decide)

/-- After `\u` there is a code in braces, a code of four digits, or a pair of such codes. -/
theorem unicodeEscape?_cases (h : unicodeEscape? t = some (c, rest)) :
    (∃ word, t = '\x7b' :: (word ++ '\x7d' :: rest) ∧ word ≠ [] ∧ Spelled 16 word c.toNat) ∨
      (∃ word, t = word ++ rest ∧ word.length = 4 ∧ Spelled 16 word c.toNat) ∨
      ∃ word word' high low, t = word ++ '\\' :: 'u' :: (word' ++ rest) ∧
        (word.length = 4 ∧ Spelled 16 word high ∧ 0xD800 ≤ high ∧ high ≤ 0xDBFF) ∧
        (word'.length = 4 ∧ Spelled 16 word' low ∧ 0xDC00 ≤ low ∧ low ≤ 0xDFFF) ∧
        c.toNat = 0x10000 + (high - 0xD800) * 0x400 + (low - 0xDC00) := by
  by_cases hbrace : t.head? = some '\x7b'
  · obtain ⟨u, rfl⟩ := List.head?_eq_some_iff.mp hbrace
    obtain ⟨word, rfl, hne, hword⟩ := unicodeEscape?_brace_eq_some_iff.mp h
    exact .inl ⟨word, rfl, hne, hword⟩
  · rw [unicodeEscape?_of_ne_brace hbrace] at h
    exact .inr (codeEscape?_eq_some_iff.mp h)

theorem item_of_read_unicode (h : unicodeEscape? t = some (c, rest)) :
    ∃ word, t = word ++ rest ∧ Item ('\\' :: 'u' :: word) [c] := by
  rcases unicodeEscape?_cases h with ⟨word, rfl, hne, hword⟩ | ⟨word, rfl, hlen, hword⟩ |
    ⟨word, word', high, low, rfl, ⟨hlen, hword, hh, hh'⟩, ⟨hlen', hword', hl, hl'⟩, hc⟩
  · exact ⟨'\x7b' :: (word ++ ['\x7d']), by simp, .braced hne hword⟩
  · exact ⟨word, rfl, .code hlen hword⟩
  · exact ⟨word ++ '\\' :: 'u' :: word', by simp, .pair hlen hword hh hh' hlen' hword' hl hl' hc⟩

theorem item_of_read_octal {first : Char} (hfirst : '0' ≤ first ∧ first ≤ '7') :
    ∃ word, first :: t = word ++ (octalEscape first t).2 ∧
      Item ('\\' :: word) [(octalEscape first t).1] := by
  obtain ⟨c, heq, hspelled⟩ := octalEscape_eq hfirst t
  refine ⟨first :: octalDigits first t, ?_, ?_⟩
  · rw [heq]
    exact congrArg (first :: ·) (List.prefix_iff_eq_append.mp (octalDigits_isStart first t)).symm
  · rw [heq]
    exact .octal hspelled (length_octalDigits_le first t)

/-- What is read after a backslash is one item. -/
theorem item_of_escape? {decoded : Option Char} (h : escape? t = some (decoded, rest)) :
    ∃ word, t = word ++ rest ∧ Item ('\\' :: word) decoded.toList := by
  cases t with
  | nil => cases h
  | cons c t =>
    by_cases hc : c ∈ meaningful
    · simp only [meaningful, List.mem_cons, List.not_mem_nil, or_false] at hc
      rcases hc with rfl | rfl | rfl | rfl | rfl | rfl | rfl | rfl | rfl | rfl | rfl | rfl
      iterate 6 exact item_of_read_control h (by decide)
      · obtain ⟨⟨code, after⟩, hcode, hchar⟩ := Option.bind_eq_some_iff.mp h
        obtain ⟨c, hscalar, heq⟩ := Option.map_eq_some_iff.mp hchar
        obtain ⟨rfl, rfl⟩ := Prod.mk.inj heq
        obtain ⟨word, rfl, hlen, hword⟩ := (Text.fixedValue?_eq_some_iff (by decide)).mp hcode
        exact ⟨'x' :: word, rfl, .byte hlen (scalar?_eq_some_iff.mp hscalar ▸ hword)⟩
      · obtain ⟨⟨c, after⟩, hread, heq⟩ := Option.map_eq_some_iff.mp h
        obtain ⟨rfl, rfl⟩ := Prod.mk.inj heq
        obtain ⟨word, rfl, hitem⟩ := item_of_read_unicode hread
        exact ⟨'u' :: word, rfl, hitem⟩
      · exact item_of_read_lineEnd ['\n'] h (by decide)
      · exact item_of_read_return h
      · exact item_of_read_lineEnd ['\u2028'] h (by decide)
      · exact item_of_read_lineEnd ['\u2029'] h (by decide)
    · rw [escape?_of_not_meaningful hc] at h
      split at h
      · rename_i hoctal
        obtain ⟨rfl, rfl⟩ := Prod.mk.inj (Option.some.inj h)
        exact item_of_read_octal hoctal
      · rename_i hoctal
        obtain ⟨rfl, rfl⟩ := Prod.mk.inj (Option.some.inj h)
        exact ⟨[c], rfl, .other hc hoctal⟩

/-! ## The longest item -/

/-- Reading what an item starts takes the whole item, and perhaps more. If not more, then it gives
the item's value. -/
def ReadsOver (word value rest : Text) : Prop :=
  ∃ decoded rest', escape? (word ++ rest) = some (decoded, rest') ∧ rest'.length ≤ rest.length ∧
    (rest'.length = rest.length → decoded.toList = value)

theorem readsOver_of_eq (decoded : Option Char)
    (h : escape? (word ++ rest) = some (decoded, rest)) : ReadsOver word decoded.toList rest :=
  ⟨decoded, rest, h, Nat.le_refl _, fun _ => rfl⟩

theorem readsOver_unicode (h : unicodeEscape? (word ++ rest) = some (c, rest)) :
    ReadsOver ('u' :: word) [c] rest := by
  have hread : escape? ('u' :: word ++ rest) = some (some c, rest) := by
    rw [List.cons_append, escape?, h]
    rfl
  exact readsOver_of_eq (some c) hread

theorem head?_ne_brace_of_spelled {n : Nat} (h : Spelled 16 word n) (hlen : word.length = 4)
    (rest : Text) : (word ++ rest).head? ≠ some '\x7b' := by
  cases word with
  | nil => cases hlen
  | cons d word =>
    intro hd
    exact ne_of_mem_spelled h (c := '\x7b') (by decide) d (List.mem_cons_self ..)
      (Option.some.inj hd)

theorem readsOver_octal {first : Char} (h : Spelled 8 (first :: word) c.toNat)
    (hlen : word.length ≤ moreOctals first) (rest : Text) :
    ReadsOver (first :: word) [c] rest := by
  have hoctal := octal_of_spelled h
  have hfirst := hoctal first (List.mem_cons_self ..)
  obtain ⟨more, hdigits, hmore⟩ := octalDigits_append first
    (fun x hx => hoctal x (List.mem_cons_of_mem _ hx)) hlen rest
  obtain ⟨d, heq, hspelled⟩ := octalEscape_eq hfirst (word ++ rest)
  rw [hdigits] at heq hspelled
  have hread : escape? (first :: word ++ rest) = some (some d, rest.drop more.length) := by
    rw [List.cons_append, escape?_of_not_meaningful (not_meaningful_of_octal hfirst),
      if_pos hfirst, heq]
    simp [List.drop_append]
  refine ⟨some d, _, hread, by simp, ?_⟩
  -- nothing was left out of the rest, so the digits are those of the item
  intro hsame
  have hnil : more = [] := by
    rw [List.length_drop] at hsame
    exact List.eq_nil_of_length_eq_zero (by omega)
  rw [hnil, List.append_nil] at hspelled
  rw [Option.toList_some, Char.toNat_inj.mp (hspelled.unique h)]

theorem readsOver_lineEnd {lineEnd : Text} (h : lineEnd ∈ lineEnds) (rest : Text) :
    ReadsOver lineEnd [] rest := by
  simp only [lineEnds, List.mem_cons, List.not_mem_nil, or_false] at h
  rcases h with rfl | rfl | rfl | rfl | rfl
  · exact readsOver_of_eq none rfl
  · by_cases hfeed : rest.head? = some '\n'
    · obtain ⟨u, rfl⟩ := List.head?_eq_some_iff.mp hfeed
      exact ⟨none, u, rfl, by simp, fun _ => rfl⟩
    · exact readsOver_of_eq none (escape?_return hfeed)
  · exact readsOver_of_eq none rfl
  · exact readsOver_of_eq none rfl
  · exact readsOver_of_eq none rfl

theorem readsOver_of_item (h : Item ('\\' :: word) value) (rest : Text) :
    ReadsOver word value rest := by
  generalize hwhole : '\\' :: word = whole at h
  cases h with
  | plain hc =>
    cases hwhole
    exact absurd rfl hc
  | @control name c hmem =>
    cases hwhole
    simp only [controls, List.mem_cons, Prod.mk.injEq, List.not_mem_nil, or_false] at hmem
    rcases hmem with ⟨rfl, rfl⟩ | ⟨rfl, rfl⟩ | ⟨rfl, rfl⟩ | ⟨rfl, rfl⟩ | ⟨rfl, rfl⟩ | ⟨rfl, rfl⟩
    all_goals exact readsOver_of_eq (some _) rfl
  | @byte digits c hlen hdigits =>
    cases hwhole
    have hfixed : Text.fixedValue? 16 2 (digits ++ rest) = some (c.toNat, rest) :=
      (Text.fixedValue?_eq_some_iff (by decide)).mpr ⟨digits, rfl, hlen, hdigits⟩
    refine readsOver_of_eq (some c) ?_
    simp [escape?, hfixed, scalar?_toNat]
  | @braced digits c hne hdigits =>
    cases hwhole
    apply readsOver_unicode
    rw [List.cons_append, unicodeEscape?_brace_eq_some_iff]
    exact ⟨digits, by simp, hne, hdigits⟩
  | @code digits c hlen hdigits =>
    cases hwhole
    apply readsOver_unicode
    rw [unicodeEscape?_of_ne_brace (head?_ne_brace_of_spelled hdigits hlen rest),
      codeEscape?_eq_some_iff]
    exact .inl ⟨digits, rfl, hlen, hdigits⟩
  | @pair digits digits' high low c hlen hdigits hh hh' hlen' hdigits' hl hl' hc =>
    cases hwhole
    apply readsOver_unicode
    rw [List.append_assoc, unicodeEscape?_of_ne_brace (head?_ne_brace_of_spelled hdigits hlen _),
      codeEscape?_eq_some_iff]
    exact .inr ⟨digits, digits', high, low, rfl, ⟨hlen, hdigits, hh, hh'⟩,
      ⟨hlen', hdigits', hl, hl'⟩, hc⟩
  | octal hdigits hlen =>
    cases hwhole
    exact readsOver_octal hdigits hlen rest
  | continuation hmem =>
    cases hwhole
    exact readsOver_lineEnd hmem rest
  | @other c hc hoctal =>
    cases hwhole
    refine readsOver_of_eq (some c) ?_
    rw [List.singleton_append, escape?_of_not_meaningful hc, if_neg hoctal]

/-- An item is a character or starts with a backslash. -/
theorem Item.cases_head (h : Item word value) :
    (∃ c, c ≠ '\\' ∧ word = [c] ∧ value = [c]) ∨ ∃ body, word = '\\' :: body := by
  cases h with
  | plain hc => exact .inl ⟨_, hc, rfl, rfl⟩
  | _ => exact .inr ⟨_, rfl⟩

theorem Item.length_le_of_plain {word' value' : Text} (h : Item word' value') (hc : c ≠ '\\')
    (hstart : word' <+: c :: rest) : word'.length ≤ 1 := by
  rcases h.cases_head with ⟨d, _, rfl, _⟩ | ⟨body, rfl⟩
  · exact Nat.le_refl _
  · exact absurd (List.cons_prefix_cons.mp hstart).1.symm hc

theorem Item.length_le_of_escape? {word' value' : Text} {decoded : Option Char}
    (h : Item word' value') (hread : escape? (word ++ rest) = some (decoded, rest))
    (hstart : word' <+: '\\' :: word ++ rest) : word'.length ≤ ('\\' :: word).length := by
  rcases h.cases_head with ⟨d, hd, rfl, _⟩ | ⟨body, rfl⟩
  · simp
  · obtain ⟨after, hafter⟩ : ∃ after, body ++ after = word ++ rest :=
      (List.cons_prefix_cons.mp hstart).2
    obtain ⟨decoded', rest', hread', hle, _⟩ := readsOver_of_item h after
    rw [hafter, hread] at hread'
    obtain ⟨_, rfl⟩ := Prod.mk.inj (Option.some.inj hread')
    have hlen := congrArg List.length hafter
    simp only [List.length_append, List.length_cons] at hlen ⊢
    omega

/-- An item that no longer one extends is read, and nothing beyond it. -/
theorem escape?_of_longest (h : Item ('\\' :: word) value)
    (hlongest : ∀ word' value', Item word' value' → word' <+: '\\' :: word ++ rest →
      word'.length ≤ ('\\' :: word).length) :
    ∃ decoded, escape? (word ++ rest) = some (decoded, rest) ∧ decoded.toList = value := by
  obtain ⟨decoded, rest', hread, hle, hvalue⟩ := readsOver_of_item h rest
  obtain ⟨word', heq, hitem⟩ := item_of_escape? hread
  have hword : ('\\' :: word').length ≤ ('\\' :: word).length :=
    hlongest _ _ hitem ⟨rest', by rw [List.cons_append, List.cons_append, heq]⟩
  have hlen := congrArg List.length heq
  simp only [List.length_append, List.length_cons] at hlen hword
  have hsame : rest'.length = rest.length := by omega
  obtain ⟨_, rfl⟩ := List.append_inj' heq hsame.symm
  exact ⟨decoded, hread, hvalue hsame⟩

/-! ## Whole bodies -/

theorem splits_of_decode? {raw : Text} (h : decode? raw = some t) : Splits raw t := by
  fun_induction decode? raw generalizing t with
  | case1 =>
    cases h
    exact .nil
  | case2 body hread => cases h
  | case3 body decoded rest hread hlt ih =>
    obtain ⟨u, hu, rfl⟩ := Option.map_eq_some_iff.mp h
    obtain ⟨word, rfl, hitem⟩ := item_of_escape? hread
    exact .cons hitem (fun _ _ hitem' hstart => hitem'.length_le_of_escape? hread hstart) (ih hu)
  | case4 c body hc ih =>
    obtain ⟨u, hu, rfl⟩ := Option.map_eq_some_iff.mp h
    exact .cons (.plain hc) (fun _ _ hitem' hstart => hitem'.length_le_of_plain hc hstart) (ih hu)

theorem decode?_of_splits {raw : Text} (h : Splits raw t) : decode? raw = some t := by
  induction h with
  | nil => rw [decode?]
  | @cons word value rest t hitem hlongest _ ih =>
    rcases hitem.cases_head with ⟨c, hc, rfl, rfl⟩ | ⟨body, rfl⟩
    · rw [List.singleton_append, decode?_plain hc, ih]
      rfl
    · obtain ⟨decoded, hread, rfl⟩ := escape?_of_longest hitem hlongest
      rw [List.cons_append, decode?_escape hread, ih]
      rfl

theorem decode?_eq_some_iff {raw : Text} : decode? raw = some t ↔ Splits raw t :=
  ⟨splits_of_decode?, decode?_of_splits⟩

end LiteralFolding.Literal
