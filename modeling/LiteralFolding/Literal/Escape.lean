-- The text that a quoted literal or a template segment stands for: escapes are decoded,
-- and a malformed one makes the whole literal undecodable.
import LiteralFolding.Text.Digit

namespace LiteralFolding.Literal

def isHighSurrogate (code : Nat) : Bool := 0xD800 ≤ code && code ≤ 0xDBFF

def isLowSurrogate (code : Nat) : Bool := 0xDC00 ≤ code && code ≤ 0xDFFF

/-- The code that a surrogate pair stands for. -/
def pairCode (high low : Nat) : Nat := 0x10000 + (high - 0xD800) * 0x400 + (low - 0xDC00)

/-- Four digits after `\u`, or a surrogate pair in two such escapes. -/
def codeEscape? (t : Text) : Option (Char × Text) := do
  let (code, rest) ← Text.fixedValue? 16 4 t
  if isHighSurrogate code then
    let rest ← Text.strip? ['\\', 'u'] rest
    let (low, rest) ← Text.fixedValue? 16 4 rest
    if isLowSurrogate low then (Text.scalar? (pairCode code low)).map (·, rest) else none
  else (Text.scalar? code).map (·, rest)

/-- What follows `\u`: a braced code, four digits, or a surrogate pair in two escapes. -/
def unicodeEscape? : Text → Option (Char × Text)
  | '\x7b' :: t =>
    match t.dropWhile (· ≠ '\x7d') with
    | [] => none
    | _ :: rest =>
      ((Text.wholeValue? 16 (t.takeWhile (· ≠ '\x7d'))).bind Text.scalar?).map (·, rest)
  | t => codeEscape? t

/-- The character of the octal digits `first` and up to two more, one more from `4` on. -/
def octalEscape (first : Char) (t : Text) : Char × Text :=
  let digits := (t.take (if first ≤ '3' then 2 else 1)).takeWhile fun c => '0' ≤ c && c ≤ '7'
  let code := (first :: digits).foldl (fun acc c => acc * 8 + (c.toNat - '0'.toNat)) 0
  (Char.ofNat code, t.drop digits.length)

/-- What follows a backslash: the decoded character, or nothing at a line continuation. -/
def escape? : Text → Option (Option Char × Text)
  | [] => none
  | 'n' :: t => some (some '\n', t)
  | 'r' :: t => some (some '\r', t)
  | 't' :: t => some (some '\t', t)
  | 'b' :: t => some (some '\x08', t)
  | 'f' :: t => some (some '\x0c', t)
  | 'v' :: t => some (some '\x0b', t)
  | 'x' :: t => (Text.fixedValue? 16 2 t).bind fun (code, rest) => (Text.scalar? code).map (some ·, rest)
  | 'u' :: t => (unicodeEscape? t).map fun (c, rest) => (some c, rest)
  | '\r' :: '\n' :: t => some (none, t)
  | '\r' :: t => some (none, t)
  | '\n' :: t => some (none, t)
  | '\u2028' :: t => some (none, t)
  | '\u2029' :: t => some (none, t)
  | c :: t =>
    if '0' ≤ c ∧ c ≤ '7' then
      let (decoded, rest) := octalEscape c t
      some (some decoded, rest)
    else some (some c, t)

/-! ## Decoding moves forward -/

theorem codeEscape?_length_le {t rest : Text} {c : Char}
    (h : codeEscape? t = some (c, rest)) : rest.length ≤ t.length := by
  simp only [codeEscape?, Option.bind_eq_bind, Option.bind_eq_some_iff] at h
  obtain ⟨⟨code, rest₁⟩, h₁, h⟩ := h
  have l₁ := Text.fixedValue?_length_le h₁
  dsimp only at h
  split at h
  · obtain ⟨rest₂, h₂, h⟩ := Option.bind_eq_some_iff.mp h
    have l₂ : rest₁.length = 2 + rest₂.length := by
      rw [Text.strip?_eq_some_iff.mp h₂]; simp; omega
    obtain ⟨⟨low, rest₃⟩, h₃, h⟩ := Option.bind_eq_some_iff.mp h
    have l₃ := Text.fixedValue?_length_le h₃
    dsimp only at h
    split at h
    · obtain ⟨c', _, hc⟩ := Option.map_eq_some_iff.mp h
      obtain ⟨_, rfl⟩ := Prod.mk.inj hc
      omega
    · simp at h
  · obtain ⟨c', _, hc⟩ := Option.map_eq_some_iff.mp h
    obtain ⟨_, rfl⟩ := Prod.mk.inj hc
    exact l₁

theorem unicodeEscape?_length_le {t rest : Text} {c : Char}
    (h : unicodeEscape? t = some (c, rest)) : rest.length ≤ t.length := by
  unfold unicodeEscape? at h
  split at h
  · rename_i t
    have hle : (t.dropWhile (· ≠ '\x7d')).length ≤ t.length := (List.dropWhile_sublist _).length_le
    split at h
    · simp at h
    · rename_i x after heq
      obtain ⟨c', _, hc⟩ := Option.map_eq_some_iff.mp h
      obtain ⟨_, rfl⟩ := Prod.mk.inj hc
      rw [heq] at hle
      simp only [List.length_cons] at hle ⊢
      omega
  · exact codeEscape?_length_le h

theorem escape?_length_lt {t rest : Text} {decoded : Option Char}
    (h : escape? t = some (decoded, rest)) : rest.length < t.length := by
  unfold escape? at h
  split at h
  case h_1 => simp at h
  case h_8 =>
    obtain ⟨⟨code, rest₁⟩, h₁, h⟩ := Option.bind_eq_some_iff.mp h
    obtain ⟨c, _, hc⟩ := Option.map_eq_some_iff.mp h
    obtain ⟨_, rfl⟩ := Prod.mk.inj hc
    exact Nat.lt_succ_of_le (Text.fixedValue?_length_le h₁)
  case h_9 =>
    obtain ⟨⟨c, rest₁⟩, h₁, h⟩ := Option.map_eq_some_iff.mp h
    obtain ⟨_, rfl⟩ := Prod.mk.inj h
    exact Nat.lt_succ_of_le (unicodeEscape?_length_le h₁)
  case h_15 =>
    split at h
    · simp only [octalEscape, Option.some.injEq, Prod.mk.injEq] at h
      rw [← h.2]
      simp only [List.length_drop, List.length_cons]
      omega
    · obtain ⟨_, rfl⟩ := Prod.mk.inj (Option.some.inj h)
      simp
  all_goals
    obtain ⟨_, rfl⟩ := Prod.mk.inj (Option.some.inj h)
    simp only [List.length_cons]
    omega

/-! ## Whole bodies -/

/-- The text that the body of a quoted literal stands for. -/
def decode? : Text → Option Text
  | [] => some []
  | '\\' :: t =>
    match h : escape? t with
    | none => none
    | some (decoded, rest) =>
      have := escape?_length_lt h
      (decode? rest).map (decoded.toList ++ ·)
  | c :: t => (decode? t).map (c :: ·)
termination_by t => t.length

/-- Line ends of every kind become a line feed. -/
def unifyLineEnds : Text → Text
  | '\r' :: '\n' :: t => '\n' :: unifyLineEnds t
  | '\r' :: t => '\n' :: unifyLineEnds t
  | c :: t => c :: unifyLineEnds t
  | [] => []

/-- The text that a literal segment of a template stands for. -/
def decodeSegment? (raw : Text) : Option Text := decode? (unifyLineEnds raw)

end LiteralFolding.Literal
