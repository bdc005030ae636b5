-- Keys as paths: dots lead into tables, places in square brackets into lists.
import LiteralFolding.Datum.Basic
import LiteralFolding.Text.Case.Lower
import LiteralFolding.Text.Digit

namespace LiteralFolding.Datum

/-- One step down into a datum. -/
inductive Step where
  | member (name : Text)
  /-- A place in a list; below zero it counts from the end. -/
  | place (index : Int)
  deriving DecidableEq, Repr

/-! ## Reading a key -/

def isNameChar (c : Char) : Bool := c.isAlphanum || c = '_' || c = '-' || c = ' '

def name? (t : Text) : Option (Text × Text) :=
  let name := t.takeWhile isNameChar
  if name.isEmpty then none else some (name, t.dropWhile isNameChar)

def isPad (c : Char) : Bool := c = ' ' || c = '\t'

/-- A place at the start of a key, after its opening bracket. -/
def place? (t : Text) : Option (Int × Text) := do
  let t := t.dropWhile isPad
  let (negative, t) :=
    match t with
    | '-' :: more => (true, more)
    | t => (false, t)
  let (digits, rest) := Text.spanDigits 10 t
  let n ← Text.wholeValue? 10 digits
  let index : Int := if negative then -(n : Int) else n
  let rest ← Text.strip? [']'] (rest.dropWhile isPad)
  if isWord index then some (index, rest) else none

/-- The steps that follow the first name. -/
def moreSteps? (t : Text) : Option (List Step) :=
  let go (step : Step) (rest : Text) : Option (List Step) :=
    if rest.length < t.length then (moreSteps? rest).map (step :: ·) else none
  match t with
  | [] => some []
  | '.' :: more => (name? more).bind fun (name, rest) => go (.member name) rest
  | '[' :: more => (place? more).bind fun (index, rest) => go (.place index) rest
  | _ :: _ => none
termination_by t.length

/-- The path that a key spells, in small letters. A key that spells none is one name. -/
def steps (key : Text) : List Step :=
  let key := Text.lower key
  let path? : Option (List Step) := do
    let (name, rest) ← name? key
    let more ← moreSteps? rest
    some (.member name :: more)
  path?.getD [.member key]

/-! ## Lists with room for every place -/

/-- The place counted from the start. A place before the start makes room there. -/
def fromStart (index : Int) (size : Nat) : Nat :=
  if 0 ≤ index then index.toNat else (index + size).toNat

/-- The list with room for a place: what is missing holds nothing. -/
def withRoom (index : Int) (items : List Datum) : List Datum :=
  let front := List.replicate (-(index + items.length)).toNat .nothing ++ items
  front ++ List.replicate (fromStart index items.length + 1 - front.length) .nothing

def changeItem (index : Int) (f : Datum → Datum) (items : List Datum) : List Datum :=
  (withRoom index items).modify (fromStart index items.length) f

/-! ## Laying values over each other -/

mutual

/-- Gives a name a value: a table is laid over what is there, anything else takes its place. -/
def overlay (name : Text) (under : List (Text × Datum)) : Datum → List (Text × Datum)
  | .table members =>
    let name := Text.lower name
    Members.put name (overlayAll members ((Members.get? name under).getD (.table []))) under
  | value => Members.put (Text.lower name) value under

/-- Lays every member over a datum. -/
def overlayAll : List (Text × Datum) → (under : Datum) → Datum
  | [], under => under
  | (name, value) :: members, under => overlayAll members (.table (overlay name under.members value))

end

/-- Gives the end of a path a value. What is not of the kind that a step needs becomes empty
first. An item of a list is replaced, never laid over. -/
def overlayAt (value : Datum) : List Step → (under : Datum) → Datum
  | [], _ => value
  | [.member name], under => .table (overlay name under.members value)
  | .member name :: path, under =>
    let below := overlayAt value path ((Members.get? name under.members).getD .nothing)
    .table (Members.put name below under.members)
  | .place index :: path, under => .list (changeItem index (overlayAt value path) under.items)

def overlayLayer (under : Datum) (layer : List (Text × Datum)) : Datum :=
  layer.foldl (fun acc (key, value) => overlayAt value (steps key) acc) under

end LiteralFolding.Datum
