-- Sets of characters given by ranges of their codes.

namespace LiteralFolding.Text

/-- Ranges of codes, both ends included. -/
abbrev Ranges := List (Nat × Nat)

def Ranges.has (ranges : Ranges) (c : Char) : Bool :=
  ranges.any fun (first, last) => first ≤ c.toNat && c.toNat ≤ last

end LiteralFolding.Text
