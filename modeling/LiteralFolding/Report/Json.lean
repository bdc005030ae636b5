-- JSON values and their indented text.
import LiteralFolding.Text.Basic

namespace LiteralFolding

/-- The JSON values that reports are made of. Members keep their order. -/
inductive JsonValue where
  | number (n : Nat)
  | string (t : Text)
  | array (items : List JsonValue)
  | object (members : List (String × JsonValue))

namespace JsonValue

/-- A character inside a JSON string. Only quotes, backslashes and control characters are
escaped. -/
def escapeChar (c : Char) : Text :=
  if c = '\x22' then ['\\', '\x22']
  else if c = '\\' then ['\\', '\\']
  else if c = '\x08' then ['\\', 'b']
  else if c = '\x0c' then ['\\', 'f']
  else if c = '\n' then ['\\', 'n']
  else if c = '\r' then ['\\', 'r']
  else if c = '\t' then ['\\', 't']
  else if c.toNat < 0x20 then
    ['\\', 'u', '0', '0', Nat.digitChar (c.toNat / 16), Nat.digitChar (c.toNat % 16)]
  else [c]

def quoted (t : Text) : Text := '\x22' :: (t.flatMap escapeChar ++ ['\x22'])

/-- A new line at a depth of nesting. -/
def newline (depth : Nat) : Text := '\n' :: List.replicate (2 * depth) ' '

mutual

/-- The text of a value that stands at a depth of nesting. -/
def pretty (depth : Nat) : JsonValue → Text
  | .number n => (toString n).toList
  | .string t => quoted t
  | .array [] => ['[', ']']
  | .array (item :: items) =>
    '[' :: (newline (depth + 1) ++ pretty (depth + 1) item ++ prettyItems (depth + 1) items ++
      newline depth ++ [']'])
  | .object [] => ['\x7b', '\x7d']
  | .object ((key, value) :: members) =>
    '\x7b' :: (newline (depth + 1) ++ quoted key.toList ++ [':', ' '] ++ pretty (depth + 1) value ++
      prettyMembers (depth + 1) members ++ newline depth ++ ['\x7d'])

/-- The items of an array after the first. -/
def prettyItems (depth : Nat) : List JsonValue → Text
  | [] => []
  | item :: items => ',' :: (newline depth ++ pretty depth item ++ prettyItems depth items)

/-- The members of an object after the first. -/
def prettyMembers (depth : Nat) : List (String × JsonValue) → Text
  | [] => []
  | (key, value) :: members =>
    ',' :: (newline depth ++ quoted key.toList ++ [':', ' '] ++ pretty depth value ++
      prettyMembers depth members)

end

end JsonValue

end LiteralFolding
