-- Text and byte offsets. A program's positions count bytes of its encoded text, so a
-- slice exists only where both of its ends fall between characters.

namespace LiteralFolding

/-- A text, as its characters. -/
abbrev Text := List Char

namespace Text

def byteLength : Text → Nat
  | [] => 0
  | c :: cs => c.utf8Size + byteLength cs

/-- The text after its first `n` bytes, if that cuts no character and stays inside the text. -/
def dropBytes : Nat → Text → Option Text
  | 0, cs => some cs
  | _ + 1, [] => none
  | n + 1, c :: cs =>
    if c.utf8Size ≤ n + 1 then dropBytes (n + 1 - c.utf8Size) cs else none

/-- The first `n` bytes of a text, under the same condition. -/
def takeBytes : Nat → Text → Option Text
  | 0, _ => some []
  | _ + 1, [] => none
  | n + 1, c :: cs =>
    if c.utf8Size ≤ n + 1 then (takeBytes (n + 1 - c.utf8Size) cs).map (c :: ·) else none

/-- The bytes from `start` up to `stop`. -/
def slice (t : Text) (start stop : Nat) : Option Text :=
  if start ≤ stop then (dropBytes start t).bind (takeBytes (stop - start)) else none

/-- The rest of a text after a leading `part`. -/
def strip? : (part : Text) → Text → Option Text
  | [], t => some t
  | _ :: _, [] => none
  | p :: ps, c :: cs => if p = c then strip? ps cs else none

theorem strip?_eq_some_iff {part t rest : Text} : strip? part t = some rest ↔ t = part ++ rest := by
  induction part generalizing t with
  | nil => simp [strip?]
  | cons p ps ih =>
    cases t with
    | nil => simp [strip?]
    | cons c cs => by_cases h : p = c <;> simp [strip?, h, ih, eq_comm]

/-- Cuts a text at the first place where `part` stands: what is before and what is after. -/
def cutAt (part : Text) : Text → Option (Text × Text)
  | [] => (strip? part []).map ([], ·)
  | c :: cs =>
    match strip? part (c :: cs) with
    | some after => some ([], after)
    | none => (cutAt part cs).map fun (before, after) => (c :: before, after)

theorem eq_of_cutAt {part t before after : Text} (h : cutAt part t = some (before, after)) :
    t = before ++ part ++ after := by
  induction t generalizing before with
  | nil =>
    obtain ⟨rest, hrest, heq⟩ := Option.map_eq_some_iff.mp h
    obtain ⟨rfl, rfl⟩ := Prod.mk.inj heq
    simpa using strip?_eq_some_iff.mp hrest
  | cons c cs ih =>
    rw [cutAt] at h
    split at h
    · rename_i rest hrest
      obtain ⟨rfl, rfl⟩ := Prod.mk.inj (Option.some.inj h)
      simpa using strip?_eq_some_iff.mp hrest
    · obtain ⟨⟨b, a⟩, hcut, heq⟩ := Option.map_eq_some_iff.mp h
      obtain ⟨rfl, rfl⟩ := Prod.mk.inj heq
      simp [ih hcut]

/-- The pieces between the separators `sep`; there is always at least one. -/
def splitAt (sep : Char) : Text → List Text
  | [] => [[]]
  | c :: cs =>
    match splitAt sep cs with
    | [] => [[c]]
    | piece :: pieces => if c = sep then [] :: piece :: pieces else (c :: piece) :: pieces

/-- An ASCII capital becomes its small letter, every other character stays. -/
def lowerAscii (t : Text) : Text := t.map Char.toLower

end Text

end LiteralFolding
