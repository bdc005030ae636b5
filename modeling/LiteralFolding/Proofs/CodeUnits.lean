-- What the body of a literal is to a script: a sequence of sixteen-bit code units. A script reads
-- each escape by itself, so the two halves of a pair are two escapes of one unit each. The text
-- that a body is decoded to has just these units.
import LiteralFolding.Proofs.Escapes

namespace LiteralFolding.Script

/-! ## Code units -/

/-- The code units of a code point: one, or a high and a low surrogate. -/
def codeUnits (code : Nat) : List Nat :=
  if code < 0x10000 then [code]
  else [0xD800 + (code - 0x10000) / 0x400, 0xDC00 + (code - 0x10000) % 0x400]

/-- The code units of a text. -/
def textUnits (t : Text) : List Nat := t.flatMap fun c => codeUnits c.toNat

/-- Is this an octal digit? -/
def isOctal (c : Char) : Bool := '0' ≤ c && c ≤ '7'

/-- The value of a decimal digit. -/
def digit (c : Char) : Nat := c.toNat - '0'.toNat

/-- The code of an octal escape that starts with digit `a`: of three digits if `a` is at most 3
and two more follow, else of two if one more follows, else of `a` alone. -/
def octalCode (a : Char) : Text → Nat × Text
  | b :: c :: t =>
    if a ≤ '3' ∧ isOctal b ∧ isOctal c then (digit a * 64 + digit b * 8 + digit c, t)
    else if isOctal b then (digit a * 8 + digit b, c :: t)
    else (digit a, b :: c :: t)
  | [b] => if isOctal b then (digit a * 8 + digit b, []) else (digit a, [b])
  | [] => (digit a, [])

/-- The units of a code in braces, at most six significant digits up to 10FFFF. -/
def bracedUnits? (t : Text) : Option (List Nat × Text) :=
  (Text.cutAt ['\x7d'] t).bind fun (digits, rest) =>
    (Text.wholeValue? 16 digits).bind fun code =>
      if code ≤ 0x10FFFF then some (codeUnits code, rest) else none

/-- The units of the escape after a backslash, and what follows it. -/
def escapeUnits? : Text → Option (List Nat × Text)
  | [] => none
  | c :: t =>
    if c = 'x' then (Text.fixedValue? 16 2 t).map fun (n, rest) => ([n], rest)
    else if c = 'u' then
      match Text.strip? ['\x7b'] t with
      | some t => bracedUnits? t
      | none => (Text.fixedValue? 16 4 t).map fun (n, rest) => ([n], rest)
    else if c = '\r' then some ([], (Text.strip? ['\n'] t).getD t)
    else if c ∈ ['\n', '\u2028', '\u2029'] then some ([], t)
    else if isOctal c then some ([(octalCode c t).1], (octalCode c t).2)
    else some (codeUnits ((Literal.controls.lookup c).getD c).toNat, t)

/-- The code units that the body of a literal means. -/
inductive Means : Text → List Nat → Prop
  | nil : Means [] []
  | char {c : Char} {t : Text} {units : List Nat} :
      c ≠ '\\' → Means t units → Means (c :: t) (codeUnits c.toNat ++ units)
  | escape {t rest : Text} {first units : List Nat} :
      escapeUnits? t = some (first, rest) → Means rest units → Means ('\\' :: t) (first ++ units)

variable {t rest word : Text} {units : List Nat} {c : Char}

/-- A body means one sequence of units at most. -/
theorem Means.unique {units' : List Nat} (h : Means t units) (h' : Means t units') :
    units = units' := by
  induction h generalizing units' with
  | nil =>
    cases h'
    rfl
  | @char c t units hc _ ih =>
    generalize hbody : c :: t = body at h'
    cases h' with
    | nil => cases hbody
    | char _ hrest =>
      cases hbody
      rw [ih hrest]
    | escape _ _ =>
      cases hbody
      exact absurd rfl hc
  | @escape t rest first units hread _ ih =>
    generalize hbody : '\\' :: t = body at h'
    cases h' with
    | nil => cases hbody
    | char hc _ =>
      cases hbody
      exact absurd rfl hc
    | escape hread' hrest =>
      cases hbody
      obtain ⟨rfl, rfl⟩ := Prod.mk.inj (Option.some.inj (hread.symm.trans hread'))
      rw [ih hrest]

/-! ## Escapes -/

theorem codeUnits_of_lt {code : Nat} (h : code < 0x10000) : codeUnits code = [code] := if_pos h

/-- The two halves of a pair are the units of the code that they make. -/
theorem codeUnits_pair {high low : Nat} (hhigh : 0xD800 ≤ high ∧ high ≤ 0xDBFF)
    (hlow : 0xDC00 ≤ low ∧ low ≤ 0xDFFF) :
    codeUnits (0x10000 + (high - 0xD800) * 0x400 + (low - 0xDC00)) = [high, low] := by
  have hquot : 0xD800 + (0x10000 + (high - 0xD800) * 0x400 + (low - 0xDC00) - 0x10000) / 0x400 =
      high := by omega
  have hrem : 0xDC00 + (0x10000 + (high - 0xD800) * 0x400 + (low - 0xDC00) - 0x10000) % 0x400 =
      low := by omega
  rw [codeUnits, if_neg (by omega), hquot, hrem]

theorem escapeUnits?_code {n : Nat} (hlen : word.length = 4) (h : Text.Spelled 16 word n)
    (rest : Text) : escapeUnits? ('u' :: (word ++ rest)) = some ([n], rest) := by
  have hfixed : Text.fixedValue? 16 4 (word ++ rest) = some (n, rest) :=
    (Text.fixedValue?_eq_some_iff (by decide)).mpr ⟨word, rfl, hlen, h⟩
  have hbrace : Text.strip? ['\x7b'] (word ++ rest) = none := by
    cases hstrip : Text.strip? ['\x7b'] (word ++ rest) with
    | none => rfl
    | some after =>
      have heq := Text.strip?_eq_some_iff.mp hstrip
      exact absurd (congrArg List.head? heq) (Literal.head?_ne_brace_of_spelled h hlen rest)
  simp [escapeUnits?, hbrace, hfixed]

theorem cutAt_brace (h : ∀ x ∈ word, x ≠ '\x7d') (rest : Text) :
    Text.cutAt ['\x7d'] (word ++ '\x7d' :: rest) = some (word, rest) := by
  induction word with
  | nil => simp [Text.cutAt, Text.strip?]
  | cons c word ih =>
    have hc : '\x7d' ≠ c := (h c (List.mem_cons_self ..)).symm
    have hrest := ih fun x hx => h x (List.mem_cons_of_mem _ hx)
    simp [Text.cutAt, Text.strip?, hc, hrest]

theorem escapeUnits?_brace (hne : word ≠ []) (h : Text.Spelled 16 word c.toNat) (rest : Text) :
    escapeUnits? ('u' :: '\x7b' :: (word ++ '\x7d' :: rest)) = some (codeUnits c.toNat, rest) := by
  have hcut := cutAt_brace (Literal.ne_of_mem_spelled h (by decide)) rest
  have hwhole := Text.wholeValue?_eq_some_iff.mpr ⟨hne, h⟩
  have hle : c.toNat ≤ 0x10FFFF := by
    have hvalid : c.toNat < 0xD800 ∨ 0xDFFF < c.toNat ∧ c.toNat < 0x110000 := c.valid
    omega
  simp [escapeUnits?, Text.strip?, bracedUnits?, hcut, hwhole, hle]

/-- Three, two or one digit: the digits that are taken make the code. -/
theorem octalCode_eq (c : Char) (t : Text) :
    octalCode c t =
      ((c :: Literal.octalDigits c t).foldl (fun acc x => acc * 8 + (x.toNat - '0'.toNat)) 0,
        t.drop (Literal.octalDigits c t).length) := by
  by_cases hc : c ≤ '3'
  · match t with
    | [] => simp [octalCode, Literal.octalDigits, digit]
    | [b] =>
      by_cases hb : '0' ≤ b ∧ b ≤ '7' <;>
        simp [octalCode, Literal.octalDigits, Literal.moreOctals, hc, isOctal, digit, hb]
    | b :: d :: t =>
      by_cases hb : '0' ≤ b ∧ b ≤ '7' <;> by_cases hd : '0' ≤ d ∧ d ≤ '7' <;>
        simp [octalCode, Literal.octalDigits, Literal.moreOctals, hc, isOctal, digit, hb, hd]
      omega
  · match t with
    | [] => simp [octalCode, Literal.octalDigits, digit]
    | [b] =>
      by_cases hb : '0' ≤ b ∧ b ≤ '7' <;>
        simp [octalCode, Literal.octalDigits, Literal.moreOctals, hc, isOctal, digit, hb]
    | b :: d :: t =>
      by_cases hb : '0' ≤ b ∧ b ≤ '7' <;>
        simp [octalCode, Literal.octalDigits, Literal.moreOctals, hc, isOctal, digit, hb]

/-- After a backslash every character without a form of its own is an octal digit or itself. -/
theorem escapeUnits?_of_not_meaningful (h : c ∉ Literal.meaningful) (t : Text) :
    escapeUnits? (c :: t) =
      if '0' ≤ c ∧ c ≤ '7' then some ([(octalCode c t).1], (octalCode c t).2)
      else some (codeUnits c.toNat, t) := by
  simp only [Literal.meaningful, List.mem_cons, List.not_mem_nil, or_false, not_or] at h
  have hname : Literal.controls.lookup c = none := by
    rw [List.lookup_eq_none_iff]
    intro p hp
    simp only [Literal.controls, List.mem_cons, List.not_mem_nil, or_false] at hp
    rcases hp with rfl | rfl | rfl | rfl | rfl | rfl
    all_goals simp [h]
  simp [escapeUnits?, h, hname, isOctal]

theorem textUnits_singleton (c : Char) : textUnits [c] = codeUnits c.toNat := by
  simp [textUnits]

/-- What a script reads at a code escape: the units of the character, in one escape or in two. -/
theorem means_of_unicodeEscape? (h : Literal.unicodeEscape? t = some (c, rest))
    (hrest : Means rest units) : Means ('\\' :: 'u' :: t) (codeUnits c.toNat ++ units) := by
  rcases Literal.unicodeEscape?_cases h with ⟨word, rfl, hne, hword⟩ | ⟨word, rfl, hlen, hword⟩ |
    ⟨word, word', high, low, rfl, ⟨hlen, hword, hhigh⟩, ⟨hlen', hword', hlow⟩, hc⟩
  · exact .escape (escapeUnits?_brace hne hword rest) hrest
  · have hsmall := hword.lt_pow
    rw [hlen] at hsmall
    rw [codeUnits_of_lt hsmall]
    exact .escape (escapeUnits?_code hlen hword rest) hrest
  · rw [hc, codeUnits_pair hhigh hlow]
    have hsecond := Means.escape (escapeUnits?_code hlen' hword' rest) hrest
    have hpair := Means.escape (escapeUnits?_code hlen hword _) hsecond
    exact hpair

theorem means_of_octalEscape (hc : '0' ≤ c ∧ c ≤ '7')
    (hrest : Means (Literal.octalEscape c t).2 units) :
    Means ('\\' :: c :: t) (codeUnits (Literal.octalEscape c t).1.toNat ++ units) := by
  obtain ⟨d, heq, hspelled⟩ := Literal.octalEscape_eq hc t
  rw [heq] at hrest ⊢
  dsimp only at hrest ⊢
  have hvalue := hspelled.unique (Literal.spelled_octal (Literal.octal_of_spelled hspelled))
  have hread : escapeUnits? (c :: t) =
      some ([d.toNat], t.drop (Literal.octalDigits c t).length) := by
    rw [escapeUnits?_of_not_meaningful (Literal.not_meaningful_of_octal hc), if_pos hc,
      octalCode_eq, hvalue]
  have hsmall := Literal.lt_of_spelled_octalDigits hspelled
  rw [codeUnits_of_lt (by omega)]
  exact .escape hread hrest

/-- A carriage return ends a line together with the line feed after it. -/
theorem means_of_return {decoded : Option Char}
    (h : Literal.escape? ('\r' :: t) = some (decoded, rest)) (hrest : Means rest units) :
    Means ('\\' :: '\r' :: t) (textUnits decoded.toList ++ units) := by
  by_cases hfeed : t.head? = some '\n'
  · obtain ⟨u, rfl⟩ := List.head?_eq_some_iff.mp hfeed
    obtain ⟨rfl, rfl⟩ := Prod.mk.inj (Option.some.inj h)
    exact .escape rfl hrest
  · rw [Literal.escape?_return hfeed] at h
    obtain ⟨rfl, rfl⟩ := Prod.mk.inj (Option.some.inj h)
    have hstrip : Text.strip? ['\n'] t = none := by
      cases t with
      | nil => rfl
      | cons d u =>
        have hd : '\n' ≠ d := fun heq => hfeed (by rw [heq]; rfl)
        simp [Text.strip?, hd]
    exact .escape (by simp [escapeUnits?, hstrip, textUnits]) hrest

/-- What a script reads at an escape is what decoding makes of it, in code units. -/
theorem means_of_escape? {decoded : Option Char} (h : Literal.escape? t = some (decoded, rest))
    (hrest : Means rest units) : Means ('\\' :: t) (textUnits decoded.toList ++ units) := by
  cases t with
  | nil => cases h
  | cons c t =>
    by_cases hc : c ∈ Literal.meaningful
    · simp only [Literal.meaningful, List.mem_cons, List.not_mem_nil, or_false] at hc
      rcases hc with rfl | rfl | rfl | rfl | rfl | rfl | rfl | rfl | rfl | rfl | rfl | rfl
      iterate 6
        obtain ⟨rfl, rfl⟩ := Prod.mk.inj (Option.some.inj h)
        exact .escape rfl hrest
      · obtain ⟨⟨code, after⟩, hcode, hchar⟩ := Option.bind_eq_some_iff.mp h
        obtain ⟨d, hscalar, heq⟩ := Option.map_eq_some_iff.mp hchar
        obtain ⟨rfl, rfl⟩ := Prod.mk.inj heq
        obtain ⟨word, rfl, hlen, hword⟩ := (Text.fixedValue?_eq_some_iff (by decide)).mp hcode
        have hsmall := hword.lt_pow
        rw [hlen] at hsmall
        rw [Option.toList_some, textUnits_singleton, Literal.scalar?_eq_some_iff.mp hscalar,
          codeUnits_of_lt (by omega)]
        exact .escape (by simp [escapeUnits?, hcode]) hrest
      · obtain ⟨⟨d, after⟩, hread, heq⟩ := Option.map_eq_some_iff.mp h
        obtain ⟨rfl, rfl⟩ := Prod.mk.inj heq
        rw [Option.toList_some, textUnits_singleton]
        exact means_of_unicodeEscape? hread hrest
      · obtain ⟨rfl, rfl⟩ := Prod.mk.inj (Option.some.inj h)
        exact .escape rfl hrest
      · exact means_of_return h hrest
      · obtain ⟨rfl, rfl⟩ := Prod.mk.inj (Option.some.inj h)
        exact .escape rfl hrest
      · obtain ⟨rfl, rfl⟩ := Prod.mk.inj (Option.some.inj h)
        exact .escape rfl hrest
    · rw [Literal.escape?_of_not_meaningful hc] at h
      split at h
      · rename_i hoctal
        obtain ⟨rfl, rfl⟩ := Prod.mk.inj (Option.some.inj h)
        rw [Option.toList_some, textUnits_singleton]
        exact means_of_octalEscape hoctal hrest
      · rename_i hoctal
        obtain ⟨rfl, rfl⟩ := Prod.mk.inj (Option.some.inj h)
        rw [Option.toList_some, textUnits_singleton]
        exact .escape ((escapeUnits?_of_not_meaningful hc t).trans (if_neg hoctal)) hrest

/-! ## Bodies and segments -/

theorem means_of_decode? {raw : Text} (h : Literal.decode? raw = some t) :
    Means raw (textUnits t) := by
  fun_induction Literal.decode? raw generalizing t with
  | case1 =>
    cases h
    exact .nil
  | case2 body hread => cases h
  | case3 body decoded rest hread hlt ih =>
    obtain ⟨u, hu, rfl⟩ := Option.map_eq_some_iff.mp h
    rw [textUnits, List.flatMap_append]
    exact means_of_escape? hread (ih hu)
  | case4 c body hc ih =>
    obtain ⟨u, hu, rfl⟩ := Option.map_eq_some_iff.mp h
    exact .char hc (ih hu)

end LiteralFolding.Script

namespace LiteralFolding.Literal

/-- Every carriage return with a line feed after it becomes a line feed. -/
def joinReturns : Text → Text
  | '\r' :: '\n' :: t => '\n' :: joinReturns t
  | c :: t => c :: joinReturns t
  | [] => []

/-- A carriage return becomes a line feed. -/
def feedOf (c : Char) : Char := if c = '\r' then '\n' else c

/-- Line ends are unified as if in two passes, the pairs first and then what is left alone. -/
theorem unifyLineEnds_eq (t : Text) : unifyLineEnds t = (joinReturns t).map feedOf := by
  fun_induction joinReturns t with
  | case1 t ih =>
    rw [unifyLineEnds, ih]
    rfl
  | case2 c t hpair ih =>
    by_cases hc : c = '\r'
    · subst hc
      rw [unifyLineEnds, ih]
      · rfl
      · intro u hu
        exact hpair u rfl hu
    · rw [unifyLineEnds, ih, List.map_cons, feedOf, if_neg hc]
      · intro u hu _
        exact hc hu
      · exact hc
  | case3 => rfl

/-- Decoding follows the grammar of bodies: it gives the values of the items that the body is
split into, and nothing for a body that cannot be split. What it gives has the code units that a
script gives the body. A segment of a template is decoded alike, once every pair of carriage return
and line feed and every other carriage return is a line feed. -/
theorem decode?_follows_grammar (raw : Text) :
    (∀ t, decode? raw = some t ↔ Splits raw t) ∧
      (decode? raw = none ↔ ¬ ∃ t, Splits raw t) ∧
      (∀ t, decode? raw = some t →
        ∀ units, Script.Means raw units ↔ units = Script.textUnits t) ∧
      decodeSegment? raw = decode? ((joinReturns raw).map feedOf) := by
  refine ⟨fun t => decode?_eq_some_iff, ?_, ?_, ?_⟩
  · simp only [← decode?_eq_some_iff]
    cases decode? raw <;> simp
  · intro t h units
    have hmeans := Script.means_of_decode? h
    constructor
    · intro hunits
      exact hunits.unique hmeans
    · rintro rfl
      exact hmeans
  · rw [decodeSegment?, unifyLineEnds_eq]

/-- A body with a pair of escapes for one character, an octal escape before a digit, a line that is
continued, and a letter that needs no escape. -/
def mixedBody : Text :=
  ['\\', 'u', 'D', '8', '3', 'D', '\\', 'u', 'D', 'E', '0', '0', '\\', '1', '0', '1', '8', '\\', '\r',
    '\n', '\\', 'q']

theorem mixedBody_follows_grammar :
    decode? mixedBody = some ['😀', 'A', '8', 'q'] ∧
      Splits mixedBody ['😀', 'A', '8', 'q'] ∧
      ∀ units, Script.Means mixedBody units ↔ units = [0xD83D, 0xDE00, 0x41, 0x38, 0x71] := by
  have h : decode? mixedBody = some ['😀', 'A', '8', 'q'] := by decide +kernel
  obtain ⟨hsplits, _, hmeans, _⟩ := decode?_follows_grammar mixedBody
  exact ⟨h, (hsplits _).mp h, hmeans _ h⟩

end LiteralFolding.Literal
