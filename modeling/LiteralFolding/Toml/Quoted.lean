-- Quoted text of a document: one line or many, with escapes or as it stands.
import LiteralFolding.Text.Digit

namespace LiteralFolding.Toml

/-- Characters that may stand in text and comments: no control but the tab. -/
def isPlain (c : Char) : Bool := c = '\t' || (' ' ≤ c && c ≠ '\x7f')

def escape? : Text → Option (Char × Text)
  | 'b' :: t => some ('\x08', t)
  | 't' :: t => some ('\t', t)
  | 'n' :: t => some ('\n', t)
  | 'f' :: t => some ('\x0c', t)
  | 'r' :: t => some ('\r', t)
  | '\x22' :: t => some ('\x22', t)
  | '\\' :: t => some ('\\', t)
  | 'u' :: t => (Text.fixedValue? 16 4 t).bind fun (code, rest) => (Text.scalar? code).map (·, rest)
  | 'U' :: t => (Text.fixedValue? 16 8 t).bind fun (code, rest) => (Text.scalar? code).map (·, rest)
  | _ => none

theorem escape?_length_lt {t rest : Text} {c : Char} (h : escape? t = some (c, rest)) :
    rest.length < t.length := by
  unfold escape? at h
  split at h
  case h_8 | h_9 =>
    obtain ⟨⟨code, rest₁⟩, h₁, h⟩ := Option.bind_eq_some_iff.mp h
    obtain ⟨_, _, hc⟩ := Option.map_eq_some_iff.mp h
    obtain ⟨_, rfl⟩ := Prod.mk.inj hc
    exact Nat.lt_succ_of_le (Text.fixedValue?_length_le h₁)
  case h_10 => simp at h
  all_goals
    obtain ⟨_, rfl⟩ := Prod.mk.inj (Option.some.inj h)
    simp

/-- The rest of a line of quoted text with escapes, after its first quote. -/
def basic? : Text → Option (Text × Text)
  | [] => none
  | '\x22' :: t => some ([], t)
  | '\\' :: t =>
    match h : escape? t with
    | none => none
    | some (c, rest) =>
      have := escape?_length_lt h
      (basic? rest).map fun (text, after) => (c :: text, after)
  | c :: t => if isPlain c then (basic? t).map fun (text, after) => (c :: text, after) else none
termination_by t => t.length

/-- The rest of a line of quoted text as it stands, after its first quote. -/
def literal? : Text → Option (Text × Text)
  | [] => none
  | '\x27' :: t => some ([], t)
  | c :: t => if isPlain c then (literal? t).map fun (text, after) => (c :: text, after) else none

/-- The rest after a line end. -/
def lineBreak? : Text → Option Text
  | '\n' :: t => some t
  | '\r' :: '\n' :: t => some t
  | _ => none

theorem lineBreak?_length_lt {t rest : Text} (h : lineBreak? t = some rest) :
    rest.length < t.length := by
  unfold lineBreak? at h
  split at h
  case h_3 => simp at h
  all_goals
    obtain rfl := Option.some.inj h
    simp only [List.length_cons]
    omega

/-- A line end right after the opening quotes does not count. -/
def skipFirstBreak (t : Text) : Text := (lineBreak? t).getD t

/-- Drops blanks and whole line ends. -/
def skipLines : Text → Text
  | ' ' :: t | '\t' :: t | '\n' :: t => skipLines t
  | '\r' :: '\n' :: t => skipLines t
  | t => t

theorem skipLines_length_le (t : Text) : (skipLines t).length ≤ t.length := by
  fun_induction skipLines t <;> grind

def isSpace (c : Char) : Bool := c = ' ' || c = '\t'

/-- What is left after a backslash at the end of a line: the text from its next word on. -/
def joinedLine? (t : Text) : Option Text := (lineBreak? (t.dropWhile isSpace)).map skipLines

theorem joinedLine?_length_lt {t rest : Text} (h : joinedLine? t = some rest) :
    rest.length < t.length := by
  obtain ⟨after, h₁, rfl⟩ := Option.map_eq_some_iff.mp h
  have l₁ := lineBreak?_length_lt h₁
  have l₂ := skipLines_length_le after
  have l₃ : (t.dropWhile isSpace).length ≤ t.length := (List.dropWhile_sublist _).length_le
  omega

/-- The end of text in triple quotes: the first three quotes in a row close it, but up to two
quotes before the closing three belong to it. -/
def closing? (quote : Char) (t : Text) : Option (Text × Text) :=
  let count := min 5 (t.takeWhile (· = quote)).length
  if 3 ≤ count then some (List.replicate (count - 3) quote, t.drop count) else none

/-- The rest of text with escapes in triple quotes, after the opening ones. -/
def basicLines? (t : Text) : Option (Text × Text) :=
  match closing? '\x22' t with
  | some found => some found
  | none =>
    match t with
    | [] => none
    | '\\' :: u =>
      match hj : joinedLine? u with
      | some rest =>
        have := joinedLine?_length_lt hj
        basicLines? rest
      | none =>
        match he : escape? u with
        | none => none
        | some (c, rest) =>
          have := escape?_length_lt he
          (basicLines? rest).map fun (text, after) => (c :: text, after)
    | '\n' :: u => (basicLines? u).map fun (text, after) => ('\n' :: text, after)
    | '\r' :: '\n' :: u => (basicLines? u).map fun (text, after) => ('\n' :: text, after)
    | c :: u => if isPlain c then (basicLines? u).map fun (text, after) => (c :: text, after) else none
termination_by t.length

/-- The rest of text as it stands in triple quotes, after the opening ones. -/
def literalLines? (t : Text) : Option (Text × Text) :=
  match closing? '\x27' t with
  | some found => some found
  | none =>
    match t with
    | [] => none
    | '\n' :: u => (literalLines? u).map fun (text, after) => ('\n' :: text, after)
    | '\r' :: '\n' :: u => (literalLines? u).map fun (text, after) => ('\n' :: text, after)
    | c :: u =>
      if isPlain c then (literalLines? u).map fun (text, after) => (c :: text, after) else none
termination_by t.length

/-- Quoted text of any kind at the start of a text. -/
def quoted? : Text → Option (Text × Text)
  | '\x22' :: '\x22' :: '\x22' :: t => basicLines? (skipFirstBreak t)
  | '\x27' :: '\x27' :: '\x27' :: t => literalLines? (skipFirstBreak t)
  | '\x22' :: t => basic? t
  | '\x27' :: t => literal? t
  | _ => none

end LiteralFolding.Toml
