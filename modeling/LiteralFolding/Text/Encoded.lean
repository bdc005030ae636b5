-- Texts as bytes: a character takes one to four of them, and not every sequence of bytes is a
-- text.
import LiteralFolding.Text.Digit

namespace LiteralFolding.Text

/-- How a character's bytes start: what the first one gives, how many follow, and the least and
the greatest that the next one may be. -/
structure Lead where
  bits : Nat
  more : Nat
  least : Nat := 0x80
  greatest : Nat := 0xBF
  deriving DecidableEq, Repr

/-- What a first byte says. -/
def lead? (byte : UInt8) : Option Lead :=
  let b := byte.toNat
  if b < 0x80 then some { bits := b, more := 0 }
  else if b < 0xC2 then none
  else if b < 0xE0 then some { bits := b - 0xC0, more := 1 }
  else if b < 0xF0 then
    some { bits := b - 0xE0, more := 2
           least := if b = 0xE0 then 0xA0 else 0x80
           greatest := if b = 0xED then 0x9F else 0xBF }
  else if b < 0xF5 then
    some { bits := b - 0xF0, more := 3
           least := if b = 0xF0 then 0x90 else 0x80
           greatest := if b = 0xF4 then 0x8F else 0xBF }
  else none

/-- Takes the bytes that follow a first one, up to one that does not fit. -/
def follow : Lead → List UInt8 → Option Nat × List UInt8
  | ⟨bits, 0, _, _⟩, bytes => (some bits, bytes)
  | ⟨_, _ + 1, _, _⟩, [] => (none, [])
  | ⟨bits, more + 1, least, greatest⟩, b :: bytes =>
    if least ≤ b.toNat ∧ b.toNat ≤ greatest then
      follow { bits := bits * 64 + b.toNat % 64, more } bytes
    else (none, b :: bytes)
termination_by _ bytes => bytes.length

theorem follow_length_le (lead : Lead) (bytes : List UInt8) :
    (follow lead bytes).2.length ≤ bytes.length := by
  fun_induction follow lead bytes <;> grind

/-- The characters of some bytes, with a gap for each piece that is none. -/
def ofBytes : List UInt8 → List (Option Char)
  | [] => []
  | b :: bytes =>
    match lead? b with
    | none => none :: ofBytes bytes
    | some lead =>
      have := follow_length_le lead bytes
      ((follow lead bytes).1.bind scalar?) :: ofBytes (follow lead bytes).2
termination_by bytes => bytes.length

def encoded (t : Text) : List UInt8 := t.flatMap String.utf8EncodeChar

/-- The text of some bytes, if they are one. -/
def decoded? (bytes : List UInt8) : Option Text := (ofBytes bytes).mapM id

/-- Stands where something could not be read. -/
def gapMark : Char := '\ufffd'

/-- What can be read of some bytes, with a mark in each gap. -/
def legible (bytes : List UInt8) : Text := (ofBytes bytes).map (·.getD gapMark)

end LiteralFolding.Text
