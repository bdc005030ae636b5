-- Folding: every property with the wanted name has its value turned into one literal where
-- that is possible.
import LiteralFolding.Candidate
import LiteralFolding.Replacement

namespace LiteralFolding

/-- What a pass folds and how it writes. -/
structure FoldOptions where
  /-- The name of the properties whose values are folded. -/
  property : Text
  quote : Quote
  deriving DecidableEq, Repr

/-- All that a pass over one source needs. -/
structure FoldContext where
  source : Source
  resolver : Resolver
  transform : Transform
  options : FoldOptions

/-- A value that was not folded. -/
structure Skipped where
  location : Location
  reason : Skip
  deriving DecidableEq, Repr

/-- What became of one property. -/
inductive Occurrence where
  | replaced (replacement : Replacement)
  /-- The value already is its own literal. -/
  | unchanged
  | skipped (skipped : Skipped)
  deriving DecidableEq, Repr

/-- Did the value become a literal, or was it one? -/
def Occurrence.isFolded : Occurrence → Bool
  | .skipped _ => false
  | _ => true

/-- What became of one source. -/
structure FoldedSource where
  path : Text
  text : Text
  replacements : List Replacement
  skipped : List Skipped
  unchanged : Nat

namespace FoldedSource

def isChanged (f : FoldedSource) : Bool := !f.replacements.isEmpty

/-- How many properties were met. -/
def occurrences (f : FoldedSource) : Nat := f.replacements.length + f.skipped.length + f.unchanged

end FoldedSource

namespace FoldContext

/-- The value of a property with the wanted name. -/
def value? (cx : FoldContext) (p : Position) : Option Position :=
  if p.kind = .pair then
    match p.child? .key with
    | none => none
    | some key =>
      if key.kind = .propertyIdentifier ∧ cx.source.textOf key.node = cx.options.property then
        p.child? .value
      else none
  else none

/-- Takes a value through all its steps. -/
def candidate (cx : FoldContext) (value : Position) : Candidate :=
  (Candidate.visit cx.source cx.resolver { position := value }).transform cx.transform

/-- What becomes of a value: one occurrence, or nothing to tell. -/
def occurrence? (cx : FoldContext) (value : Position) : Option Occurrence :=
  let c := cx.candidate value
  let location := cx.source.locationOf value.node
  match c.literal? cx.options.quote with
  | some literal =>
    let replaced := cx.source.textOf value.node
    if literal = replaced then some .unchanged
    else some (.replaced { span := value.node.span, literal, location, replaced })
  | none => c.skip.map fun reason => .skipped { location, reason }

/-- The occurrences at the places still to visit and below them, in the order of the text. The
places below come before the places after, and a folded value is not looked into. -/
def walk (cx : FoldContext) : (pending : List Position) → List Occurrence
  | [] => []
  | p :: rest =>
    match (cx.value? p).bind cx.occurrence? with
    | none => cx.walk (p.namedChildren ++ rest)
    | some o => o :: (if o.isFolded then cx.walk rest else cx.walk (p.namedChildren ++ rest))
termination_by pending => Position.sizeAll pending
decreasing_by
  all_goals
    have := p.tree.size_pos
    have := Position.sizeAll_namedChildren_lt p
    simp only [Position.sizeAll_cons, Position.sizeAll_append]
    omega

def occurrences (cx : FoldContext) : List Occurrence := cx.walk [Position.top cx.source.tree]

def fold (cx : FoldContext) : FoldedSource :=
  let occurrences := cx.occurrences
  let replacements := occurrences.filterMap fun
    | .replaced r => some r
    | _ => none
  { path := cx.source.path
    text := Edit.splice cx.source.text (replacements.map (·.toEdit))
    replacements
    skipped := occurrences.filterMap fun
      | .skipped s => some s
      | _ => none
    unchanged := occurrences.countP fun o => o = .unchanged }

end FoldContext

end LiteralFolding
