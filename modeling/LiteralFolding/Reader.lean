-- Readers: they take something off the start of a text and give the rest back.
import LiteralFolding.Text.Basic

namespace LiteralFolding

/-- Reads something at the start of a text. -/
abbrev Reader (α : Type) := Text → Option (α × Text)

namespace Reader

/-- One item or more with commas between them, up to the closing bracket. `skip` drops what may
stand between the parts, and `trailing` says whether a comma may follow the last item. -/
def items (skip : Text → Text) (close : Char) (trailing : Bool) (item : Reader α) (t : Text) :
    Option (List α × Text) :=
  match item (skip t) with
  | none => none
  | some (a, rest) =>
    match skip rest with
    | [] => none
    | c :: rest =>
      if c = close then some ([a], rest)
      else if c ≠ ',' then none
      else
        match skip rest with
        | [] => none
        | d :: after =>
          if d = close then (if trailing then some ([a], after) else none)
          else if rest.length < t.length then
            (items skip close trailing item rest).map fun (more, rest) => (a :: more, rest)
          else none
termination_by t.length

/-- The items between brackets, after the opening one; there may be none. -/
def bracketed (skip : Text → Text) (close : Char) (trailing : Bool) (item : Reader α) :
    Reader (List α) := fun t =>
  match skip t with
  | [] => none
  | c :: rest => if c = close then some ([], rest) else items skip close trailing item t

/-- All of a text, but for what `skip` drops at both ends. -/
def whole? (skip : Text → Text) (reader : Reader α) (t : Text) : Option α :=
  match reader (skip t) with
  | some (a, rest) => if (skip rest).isEmpty then some a else none
  | none => none

end Reader

end LiteralFolding
