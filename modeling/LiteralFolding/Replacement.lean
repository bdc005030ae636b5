-- Replacements: spans of a text with the literals that take their place.
import LiteralFolding.Location

namespace LiteralFolding

/-- A span of a text and what to write there. -/
structure Edit where
  span : Span
  literal : Text
  deriving DecidableEq, Repr

namespace Edit

/-- What the edits make of a text from byte `cursor` on. An edit that starts before the
cursor, past the end or inside a character is left out. -/
def spliceFrom (source : Text) (cursor : Nat) : List Edit → Text
  | [] => (Text.dropBytes cursor source).getD []
  | e :: rest =>
    match Text.slice source cursor e.span.start with
    | none => spliceFrom source cursor rest
    | some before => before ++ e.literal ++ spliceFrom source e.span.stop rest

/-- The edits in the order in which they start. -/
def sorted (edits : List Edit) : List Edit :=
  edits.mergeSort fun a b => a.span.start ≤ b.span.start

/-- A text with edits applied, first start first. -/
def splice (source : Text) (edits : List Edit) : Text := spliceFrom source 0 (sorted edits)

end Edit

/-- A folded value: where it stood, what it was and the literal for it. -/
structure Replacement extends Edit where
  location : Location
  replaced : Text
  deriving DecidableEq, Repr

end LiteralFolding
