-- Nodes: the tokens of a YAML document as one datum.
import LiteralFolding.Datum.Basic
import LiteralFolding.Datum.Yaml.Scan

namespace LiteralFolding.Datum.Yaml

/-! ## Plain texts as data -/

/-- A whole number: plain, with its base in front, or with two signs of which the first is a
plus. -/
def integer? (t : Text) : Option Int :=
  match t with
  | '0' :: 'x' :: digits => (readWord? 16 digits).or (readWord? 10 t)
  | '0' :: 'o' :: digits => (readWord? 8 digits).or (readWord? 10 t)
  | '+' :: digits => (readWord? 10 digits).or (readWord? 10 t)
  | t => readWord? 10 t

/-- The words for what is no finite number. They are numbers of the document that no setting can
hold. -/
def boundless : List String :=
  [".inf", ".Inf", ".INF", "+.inf", "+.Inf", "+.INF", "-.inf", "-.Inf", "-.INF", ".nan", ".NaN", ".NAN"]

def isBoundless (t : Text) : Bool := boundless.any fun word => word.toList = t

/-- A number that has a digit. -/
def number? (t : Text) : Option Number := if t.any Char.isDigit then Number.read? t else none

/-- What a plain text stands for, if a document may hold it. -/
def plainDatum? (t : Text) : Option Datum :=
  if t = "~".toList ∨ t = "null".toList then some .nothing
  else if t = "true".toList then some (.boolean true)
  else if t = "false".toList then some (.boolean false)
  else if isBoundless t then none
  else
    match integer? t, number? t with
    | some n, _ => some (.integer n)
    | none, some x => some (.number x)
    | none, none => some (.text t)

/-- What the tags of the standard start with. -/
def standardTags : Text := "tag:yaml.org,2002:".toList

/-- What a plain text with a tag of the standard stands for. What does not fit its tag is
nothing. -/
def taggedDatum? (name t : Text) : Option Datum :=
  if name = "bool".toList then
    if t = "true".toList then some (.boolean true)
    else if t = "false".toList then some (.boolean false)
    else some .nothing
  else if name = "int".toList then some (((readWord? 10 t).map Datum.integer).getD .nothing)
  else if name = "float".toList then
    if isBoundless t then none else some (((number? t).map Datum.number).getD .nothing)
  else if name = "null".toList then some .nothing
  else some (.text t)

/-- What a scalar stands for. Only a plain one without a tag is looked at. -/
def scalarDatum? (tag : Option (Text × Text)) (plain : Bool) (t : Text) : Option Datum :=
  match tag with
  | none => if plain then plainDatum? t else some (.text t)
  | some (start, name) => if plain ∧ start = standardTags then taggedDatum? name t else some (.text t)

/-! ## Keys -/

inductive Key where
  | text (t : Text)
  | integer (n : Int)
  deriving DecidableEq, Repr

namespace Key

def ofDatum? : Datum → Option Key
  | .text t => some (.text t)
  | .integer n => some (.integer n)
  | _ => none

/-- The name under which a key's value is found. -/
def name : Key → Text
  | .text t => t
  | .integer n => integerText n

end Key

/-- The table of some keys and values; no key is there twice. -/
def table? (pairs : List (Datum × Datum)) : Option Datum := do
  let keyed ← pairs.mapM fun (key, value) => (Key.ofDatum? key).map (·, value)
  if (keyed.map (·.1)).Nodup then
    some (.table (Members.ofPairs (keyed.map fun (key, value) => (key.name, value))))
  else none

/-! ## Nodes -/

/-- A document while its tokens are read. -/
structure Draft where
  tokens : List Token
  /-- The handles of tags with what they stand for. -/
  handles : List (Text × Text) := []
  /-- The numbers of the anchors, the last one first. -/
  anchors : List (Text × Nat) := []
  /-- What stands at the anchors that are read to their end. -/
  values : List (Nat × Datum) := []

namespace Draft

def peek (d : Draft) : Option Token := d.tokens.head?

def skip (d : Draft) : Draft := { d with tokens := d.tokens.tail }

/-- Notes an anchor, if there is one; what stands there comes later. -/
def note (name : Option Text) (d : Draft) : Draft :=
  match name with
  | none => d
  | some name => { d with anchors := (name, d.anchors.length) :: d.anchors }

/-- Keeps what stands at an anchor. -/
def hold (name : Option Text) (slot : Nat) (value : Datum) (d : Draft) : Draft :=
  if name.isNone then d else { d with values := (slot, value) :: d.values }

/-- What an alias stands for. Inside of the node at its anchor that is nothing yet. -/
def aliased? (name : Text) (d : Draft) : Option Datum :=
  (d.anchors.find? fun a => a.1 = name).map fun (_, slot) =>
    ((d.values.find? fun v => v.1 = slot).map (·.2)).getD .nothing

/-- A tag with its handle replaced by what that stands for. -/
def resolve? (d : Draft) (handle suffix : Text) : Option (Text × Text) :=
  match d.handles.find? fun h => h.1 = handle with
  | some (_, start) => some (start, suffix)
  | none =>
    if handle = ['!', '!'] then some (standardTags, suffix)
    else if 2 ≤ handle.length then none
    else some (handle, suffix)

/-- What stands before a node: an anchor and a tag, in either order. -/
def properties? (d : Draft) : Option (Option Text × Option (Text × Text) × Draft) :=
  match d.tokens with
  | .anchor name :: .tag handle suffix :: tokens =>
    (d.resolve? handle suffix).map fun tag => (some name, some tag, { d with tokens })
  | .anchor name :: tokens => some (some name, none, { d with tokens })
  | .tag handle suffix :: .anchor name :: tokens =>
    (d.resolve? handle suffix).map fun tag => (some name, some tag, { d with tokens })
  | .tag handle suffix :: tokens =>
    (d.resolve? handle suffix).map fun tag => (none, some tag, { d with tokens })
  | _ => some (none, none, d)

end Draft

def nextIs (d : Draft) (tokens : List Token) : Bool := d.peek.any tokens.contains

mutual

/-- A node. `block` says whether it may be a block, and `loose` whether it may be a list whose
dashes are not indented. -/
def node? : (steps : Nat) → (block loose : Bool) → Draft → Option (Datum × Draft)
  | 0, _, _, _ => none
  | steps + 1, block, loose, d =>
    match d.peek with
    | some (.alias name) => (d.aliased? name).map (·, d.skip)
    | _ => do
      let (anchor, tag, d) ← d.properties?
      let slot := d.anchors.length
      let d := d.note anchor
      let (value, d) ←
        match d.peek with
        | some (.scalar plain t) => (scalarDatum? tag plain t).map (·, d.skip)
        | some .openList => (flowItems? steps true d.skip).map fun (items, d) => (.list items, d)
        | some .openMap => (flowMembers? steps true d.skip).bind fun (pairs, d) => (table? pairs).map (·, d)
        | other =>
          if other = some .dash ∧ loose then
            (looseItems? steps d).map fun (items, d) => (.list items, d)
          else if other = some .blockList ∧ block then
            (blockItems? steps d.skip).map fun (items, d) => (.list items, d)
          else if other = some .blockMap ∧ block then
            (blockMembers? steps d.skip).bind fun (pairs, d) => (table? pairs).map (·, d)
          else if anchor.isSome ∨ tag.isSome then (scalarDatum? tag true []).map (·, d)
          else none
      some (value, d.hold anchor slot value)

/-- A node, or nothing before one of the given tokens. -/
def optionalNode? : (steps : Nat) → (block loose : Bool) → List Token → Draft → Option (Datum × Draft)
  | 0, _, _, _, _ => none
  | steps + 1, block, loose, ends, d =>
    if nextIs d ends then some (.nothing, d) else node? steps block loose d

def blockItems? : (steps : Nat) → Draft → Option (List Datum × Draft)
  | 0, _ => none
  | steps + 1, d =>
    if nextIs d [.blockEnd] then some ([], d.skip)
    else if nextIs d [.dash] then do
      let (item, d) ← optionalNode? steps true false [.dash, .blockEnd] d.skip
      let (items, d) ← blockItems? steps d
      some (item :: items, d)
    else none

/-- The items of a list whose dashes are not indented. -/
def looseItems? : (steps : Nat) → Draft → Option (List Datum × Draft)
  | 0, _ => none
  | steps + 1, d =>
    if nextIs d [.dash] then do
      let (item, d) ← optionalNode? steps true false [.dash, .key, .value, .blockEnd] d.skip
      let (items, d) ← looseItems? steps d
      some (item :: items, d)
    else some ([], d)

def blockMembers? : (steps : Nat) → Draft → Option (List (Datum × Datum) × Draft)
  | 0, _ => none
  | steps + 1, d =>
    if nextIs d [.blockEnd] then some ([], d.skip)
    else if nextIs d [.key, .value] then do
      let ends : List Token := [.key, .value, .blockEnd]
      let (key, d) ←
        if nextIs d [.key] then optionalNode? steps true true ends d.skip else some (.nothing, d)
      let (value, d) ←
        if nextIs d [.value] then optionalNode? steps true true ends d.skip else some (.nothing, d)
      let (pairs, d) ← blockMembers? steps d
      some ((key, value) :: pairs, d)
    else none

/-- The items of a list in brackets; one with a key is a map of its own. -/
def flowItems? : (steps : Nat) → (first : Bool) → Draft → Option (List Datum × Draft)
  | 0, _, _ => none
  | steps + 1, first, d =>
    if nextIs d [.closeList] then some ([], d.skip)
    else if !first ∧ !nextIs d [.comma] then none
    else
      let d := if first then d else d.skip
      if nextIs d [.closeList] then some ([], d.skip)
      else do
        let (item, d) ←
          if nextIs d [.key, .value] then
            (flowPair? steps [.comma, .closeList] d).bind fun (pair, d) => (table? [pair]).map (·, d)
          else node? steps false false d
        let (items, d) ← flowItems? steps false d
        some (item :: items, d)

/-- The members of a map in brackets; a value may be missing, and so may a key. -/
def flowMembers? : (steps : Nat) → (first : Bool) → Draft → Option (List (Datum × Datum) × Draft)
  | 0, _, _ => none
  | steps + 1, first, d =>
    if nextIs d [.closeMap] then some ([], d.skip)
    else if !first ∧ !nextIs d [.comma] then none
    else
      let d := if first then d else d.skip
      if nextIs d [.closeMap] then some ([], d.skip)
      else do
        let (pair, d) ←
          if nextIs d [.key, .value] then flowPair? steps [.comma, .closeMap] d
          else (node? steps false false d).map fun (key, d) => ((key, .nothing), d)
        let (pairs, d) ← flowMembers? steps false d
        some (pair :: pairs, d)

/-- A key and a value in brackets, up to one of the given tokens. -/
def flowPair? : (steps : Nat) → List Token → Draft → Option ((Datum × Datum) × Draft)
  | 0, _, _ => none
  | steps + 1, ends, d => do
    let (key, d) ←
      if nextIs d [.key] then optionalNode? steps false false (.value :: ends) d.skip else some (.nothing, d)
    let (value, d) ←
      if nextIs d [.value] then optionalNode? steps false false ends d.skip else some (.nothing, d)
    some ((key, value), d)

end

/-! ## Documents -/

/-- Takes up the directives in front of a document; there is at most one version. -/
def directives? (versioned : Bool) (d : Draft) : List Token → Option Draft
  | .version :: tokens => if versioned then none else directives? true d tokens
  | .tagHandle handle start :: tokens =>
    directives? versioned { d with handles := (handle, start) :: d.handles } tokens
  | tokens => some { d with tokens }

/-- The only document of some tokens. Where there is none, it is an empty table. -/
def document? (tokens : List Token) : Option Datum :=
  match tokens.dropWhile (· = .documentEnd) with
  | [] => some (.table [])
  | first :: rest => do
    let steps := 3 * tokens.length + 3
    let d ← directives? false { tokens := first :: rest } (first :: rest)
    let (value, d) ←
      if nextIs d [.documentStart] then
        if d.skip.peek.isNone then some (.nothing, d.skip)
        else optionalNode? steps true false [.version, .documentStart, .documentEnd] d.skip
      else if d.tokens.length < (first :: rest).length then none
      else node? steps true false d
    if d.tokens.all (· = .documentEnd) then some value else none

def read? (t : Text) : Option Datum := (tokens? t).bind document?

end LiteralFolding.Datum.Yaml
