-- Quoted literals: a text written between quotes so that it reads back as itself.
import LiteralFolding.Text.Basic

namespace LiteralFolding

/-- The quote character of a literal. -/
inductive Quote where
  | double
  | single
  deriving DecidableEq, Repr

def Quote.char : Quote → Char
  | .double => '\x22'
  | .single => '\x27'

namespace Literal

/-- A hexadecimal digit in capitals. -/
def hexDigit (n : Nat) : Char := (Nat.digitChar n).toUpper

/-- A backslash, `u` and the four digits of a code. -/
def unicodeEscape (c : Char) : Text :=
  let n := c.toNat
  ['\\', 'u', hexDigit (n / 0x1000 % 16), hexDigit (n / 0x100 % 16), hexDigit (n / 0x10 % 16),
    hexDigit (n % 16)]

/-- Is this a character that would end a line or hide in one? -/
def needsUnicodeEscape (c : Char) : Bool :=
  c = '\x85' || c = '\u2028' || c = '\u2029' || c.toNat < 0x20

/-- A character inside quotes, given the one after it: a NUL before a digit must not be read
as a longer octal escape. -/
def encodeChar (quote : Quote) (c : Char) (next : Option Char) : Text :=
  if c = '\\' then ['\\', '\\']
  else if c = quote.char then ['\\', c]
  else if c = '\n' then ['\\', 'n']
  else if c = '\r' then ['\\', 'r']
  else if c = '\t' then ['\\', 't']
  else if c = '\x08' then ['\\', 'b']
  else if c = '\x0b' then ['\\', 'v']
  else if c = '\x0c' then ['\\', 'f']
  else if c = '\x00' then
    if next.any Char.isDigit then ['\\', 'x', '0', '0'] else ['\\', '0']
  else if needsUnicodeEscape c then unicodeEscape c
  else [c]

def encodeBody (quote : Quote) : Text → Text
  | [] => []
  | c :: t => encodeChar quote c t.head? ++ encodeBody quote t

def encode (quote : Quote) (t : Text) : Text :=
  quote.char :: (encodeBody quote t ++ [quote.char])

end Literal

end LiteralFolding
