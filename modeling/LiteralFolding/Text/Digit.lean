-- Digits of a base: their values one by one and as a whole number.
import LiteralFolding.Text.Basic

namespace LiteralFolding.Text

/-- The value of a hexadecimal digit, small or capital. -/
def hexValue? (c : Char) : Option Nat :=
  if '0' ≤ c ∧ c ≤ '9' then some (c.toNat - '0'.toNat)
  else if 'a' ≤ c ∧ c ≤ 'f' then some (c.toNat - 'a'.toNat + 10)
  else if 'A' ≤ c ∧ c ≤ 'F' then some (c.toNat - 'A'.toNat + 10)
  else none

/-- The value of a digit in base `base`, at most sixteen. -/
def digitValue? (base : Nat) (c : Char) : Option Nat :=
  (hexValue? c).filter (· < base)

/-- The whole number that digits of base `base` spell; none if there is no digit or another
character stands among them. -/
def wholeValue? (base : Nat) (t : Text) : Option Nat :=
  if t.isEmpty then none
  else t.foldlM (fun acc c => (digitValue? base c).map (acc * base + ·)) 0

/-- The whole number that the first `count` characters spell, and what follows them. -/
def fixedValue? (base count : Nat) (t : Text) : Option (Nat × Text) :=
  let digits := t.take count
  if digits.length = count then (wholeValue? base digits).map (·, t.drop count) else none

theorem fixedValue?_length_le {base count value : Nat} {t rest : Text}
    (h : fixedValue? base count t = some (value, rest)) : rest.length ≤ t.length := by
  unfold fixedValue? at h
  dsimp only at h
  split at h
  · obtain ⟨n, _, hn⟩ := Option.map_eq_some_iff.mp h
    obtain ⟨_, rfl⟩ := Prod.mk.inj hn
    simp
  · simp at h

/-- The character with a code, unless the code is a surrogate or too large. -/
def scalar? (code : Nat) : Option Char :=
  if code.isValidChar then some (Char.ofNat code) else none

/-- The digits a text starts with, and what follows them. -/
def spanDigits (base : Nat) (t : Text) : Text × Text :=
  (t.takeWhile fun c => (digitValue? base c).isSome, t.dropWhile fun c => (digitValue? base c).isSome)

/-- The bytes that pairs of hexadecimal digits spell. -/
def hexBytes? : Text → Option (List UInt8)
  | [] => some []
  | [_] => none
  | a :: b :: t => do
    let high ← hexValue? a
    let low ← hexValue? b
    (hexBytes? t).map ((high * 16 + low).toUInt8 :: ·)

end LiteralFolding.Text
