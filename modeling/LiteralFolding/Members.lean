-- Named members: values under their names, in order, each name once.
import LiteralFolding.Text.Basic

namespace LiteralFolding.Members

def get? (name : Text) (members : List (Text × α)) : Option α :=
  (members.find? fun m => m.1 = name).map (·.2)

/-- Puts a value under a name; a name that was there keeps its place. -/
def put (name : Text) (value : α) : List (Text × α) → List (Text × α)
  | [] => [(name, value)]
  | m :: ms => if m.1 = name then (name, value) :: ms else m :: put name value ms

theorem get?_put (name other : Text) (value : α) (members : List (Text × α)) :
    get? other (put name value members) = if other = name then some value else get? other members := by
  induction members with
  | nil => by_cases h : name = other <;> simp [put, get?, h, eq_comm]
  | cons m ms ih =>
    simp only [get?] at ih ⊢
    by_cases h : m.1 = name
    · by_cases ho : name = other
      · simp [put, h, ho]
      · simp [put, h, ho, Ne.symm ho]
    · by_cases ho : m.1 = other
      · have hk : other ≠ name := fun e => h (ho.trans e)
        simp [put, ho, hk]
      · simp [put, h, ho, ih]

/-- The members of a list of pairs, where a later pair wins over an earlier one. -/
def ofPairs (pairs : List (Text × α)) : List (Text × α) :=
  pairs.foldl (fun acc (name, value) => put name value acc) []

end LiteralFolding.Members
