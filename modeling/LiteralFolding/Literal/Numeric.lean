-- Numeric literals: the text a script shows for the number that a literal spells.
import LiteralFolding.Number.Reading
import LiteralFolding.Number.Written

namespace LiteralFolding.Literal

/-- Digits after a leading zero, all of them octal. -/
def isLegacyOctal : Text → Bool
  | '0' :: rest => !rest.isEmpty && rest.all fun c => '0' ≤ c && c ≤ '7'
  | _ => false

/-- What a literal is without separators and in small letters. -/
def cleaned (raw : Text) : Text := Text.lowerAscii (raw.filter (· ≠ '_'))

theorem cleaned_of_not_mem {raw : Text} (h : '_' ∉ raw) : cleaned raw = Text.lowerAscii raw := by
  have hkeep : raw.filter (· ≠ '_') = raw := by
    rw [List.filter_eq_self]
    intro c hc
    have hne : c ≠ '_' := by
      rintro rfl
      exact h hc
    simpa using hne
  rw [cleaned, hkeep]

/-- The number of a cleaned literal. A literal that ends in `n` is a big integer, not a number. -/
def numberOf? (t : Text) : Option Number :=
  if t.getLast? = some 'n' then none
  else
    match t with
    | '0' :: 'x' :: digits => Number.readBase? 16 digits
    | '0' :: 'o' :: digits => Number.readBase? 8 digits
    | '0' :: 'b' :: digits => Number.readBase? 2 digits
    | _ => if isLegacyOctal t then Number.readBase? 8 (t.drop 1) else Number.read? t

/-- The canonical decimal text of a numeric literal. -/
def canonicalNumber? (raw : Text) : Option Text :=
  (numberOf? (cleaned raw)).map Number.text

end LiteralFolding.Literal
