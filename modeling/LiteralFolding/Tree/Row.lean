-- Trees as flat rows: one row a node, parents before children, each row naming its parent by
-- number.
import LiteralFolding.Text.Digit
import LiteralFolding.Tree.Basic

namespace LiteralFolding

/-- One node of a flat tree. -/
structure Row where
  /-- The number of the parent's row; none for the top. -/
  parent : Option Nat
  node : Node
  deriving Repr

namespace Row

/-- Trees whose parents have not been met yet: under each row number, and the top ones. -/
structure Pending where
  below : Array (List Tree)
  top : List Tree

/-- Takes up row number `i`, after all rows below it. -/
def attach (row : Row) (i : Nat) (pending : Pending) : Pending :=
  let t := Tree.mk row.node (pending.below.getD i [])
  match row.parent with
  | none => { pending with top := t :: pending.top }
  | some p => { pending with below := pending.below.modify p (t :: ·) }

/-- The tree that rows describe: the first row without a parent and all below it. -/
def tree? (rows : List Row) : Option Tree :=
  let start : Pending := { below := Array.replicate rows.length [], top := [] }
  (rows.zipIdx.foldr (fun (row, i) pending => row.attach i pending) start).top.head?

/-- Reads a row written as parent, kind, field, start, end and flags with tabs between them. A
dash stands for no parent and for no field; the flags are 1 for a named node and 2 for a
broken one. -/
def ofLine? (line : Text) : Option Row :=
  match Text.splitAt '\t' line with
  | [parent, kind, field, start, stop, flags] => do
    let parent ← if parent = ['-'] then some none else (Text.wholeValue? 10 parent).map some
    let start ← Text.wholeValue? 10 start
    let stop ← Text.wholeValue? 10 stop
    let flags ← Text.wholeValue? 10 flags
    some {
      parent
      node := {
        kind := Kind.ofName (String.ofList kind)
        field := if field = ['-'] then none else some (Field.ofLabel (String.ofList field))
        span := { start, stop }
        named := flags % 2 = 1
        broken := flags / 2 % 2 = 1 } }
  | _ => none

def ofLines? (t : Text) : Option (List Row) :=
  ((Text.splitAt '\n' t).filter (!·.isEmpty)).mapM ofLine?

end Row

end LiteralFolding
