-- Places in a text: spans of bytes, and the lines and columns they cover.
import LiteralFolding.Text.Basic

namespace LiteralFolding

/-- The bytes from `start` up to `stop`. -/
structure Span where
  start : Nat
  stop : Nat
  deriving DecidableEq, Repr

/-- The lines, from one, and columns in bytes, from zero, where a span starts and ends. -/
structure Location where
  startLine : Nat
  endLine : Nat
  startColumn : Nat
  endColumn : Nat
  deriving DecidableEq, Repr

namespace Location

/-- The line and column of the byte `n` places on from `line`, `column`. Only a line feed
ends a line. -/
def pointFrom (line column : Nat) : Nat → Text → Nat × Nat
  | _, [] => (line, column)
  | n, c :: t =>
    if n < c.utf8Size then (line, column + n)
    else if c = '\n' then pointFrom (line + 1) 0 (n - c.utf8Size) t
    else pointFrom line (column + c.utf8Size) (n - c.utf8Size) t

def ofSpan (t : Text) (span : Span) : Location :=
  let (startLine, startColumn) := pointFrom 1 0 span.start t
  let (endLine, endColumn) := pointFrom 1 0 span.stop t
  { startLine, endLine, startColumn, endColumn }

/-- The start of a location as people count: line and column, both from one. -/
def text (l : Location) : Text := (toString l.startLine ++ ":" ++ toString (l.startColumn + 1)).toList

end Location

end LiteralFolding
