-- Case mappings: runs of characters that shift by the same amount, and characters that
-- become a sequence.
import LiteralFolding.Text.Basic

namespace LiteralFolding.Text

/-- Every `step`-th code from `first` to `last` moves by `shift`. -/
structure CaseRun where
  first : Nat
  last : Nat
  step : Nat
  shift : Int
  deriving DecidableEq, Repr

def CaseRun.has (run : CaseRun) (code : Nat) : Bool :=
  run.first ≤ code && code ≤ run.last && (code - run.first) % run.step == 0

/-- A mapping of characters to sequences of characters. -/
structure CaseMapping where
  runs : List CaseRun
  sequences : List (Nat × List Nat)

/-- What a character becomes; one that no entry names stays. -/
def CaseMapping.apply (m : CaseMapping) (c : Char) : Text :=
  match m.sequences.lookup c.toNat with
  | some codes => codes.map Char.ofNat
  | none =>
    match m.runs.find? (·.has c.toNat) with
    | some run => [Char.ofNat ((c.toNat : Int) + run.shift).toNat]
    | none => [c]

end LiteralFolding.Text
