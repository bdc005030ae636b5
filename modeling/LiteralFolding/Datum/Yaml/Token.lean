-- The tokens of a YAML document. Indents become tokens too: they open and close blocks.
import LiteralFolding.Datum.Yaml.Scalar

namespace LiteralFolding.Datum.Yaml

/-- A piece of a document. -/
inductive Token where
  | version
  /-- What a handle of tags stands for. -/
  | tagHandle (handle start : Text)
  | documentStart
  | documentEnd
  /-- A list of lines with dashes, up to `blockEnd`. -/
  | blockList
  /-- A map of lines with keys, up to `blockEnd`. -/
  | blockMap
  | blockEnd
  | openList
  | closeList
  | openMap
  | closeMap
  | dash
  | comma
  | key
  | value
  | alias (name : Text)
  | anchor (name : Text)
  | tag (handle suffix : Text)
  | scalar (plain : Bool) (text : Text)
  deriving DecidableEq, Repr

/-! ## Anchors and tags -/

/-- The name of an anchor, after its sign. -/
def anchorName? (gs : Glyphs) : Option (Text × Glyphs) :=
  let isPart (c : Char) : Bool := !isGap c && !isFlow c && c != '\ufeff'
  let name := gs.textWhile isPart
  if name.isEmpty then none else some (name, gs.skipWhile isPart)

def isTagChar (c : Char) : Bool := c.isAlphanum || "-#;/?:@&=+$_.~*'()%".toList.contains c

/-- The handle at the start of a tag: `!`, and a name with another `!` behind it. -/
def tagHandle? (gs : Glyphs) : Option (Text × Glyphs) :=
  if gs.char ≠ '!' then none
  else
    let name := (gs.skip 1).textWhile isNameChar
    let rest := (gs.skip 1).skipWhile isNameChar
    if rest.char = '!' then some ('!' :: name ++ ['!'], (rest.skip 1)) else some ('!' :: name, rest)

/-- A tag in angle brackets, after its opening bracket. -/
def verbatimTag? (gs : Glyphs) : Option (Token × Glyphs) :=
  let isPart (c : Char) : Bool := isTagChar c || c = '!' || isFlow c
  let address := gs.textWhile isPart
  let rest := gs.skipWhile isPart
  if address.isEmpty ∨ rest.char ≠ '>' then none else some (.tag [] address, (rest.skip 1))

/-- A tag with a handle, or one of the document's own. -/
def shorthandTag? (gs : Glyphs) : Option (Token × Glyphs) := do
  let (handle, rest) ← tagHandle? gs
  let suffix := rest.textWhile isTagChar
  let rest := rest.skipWhile isTagChar
  if 2 ≤ handle.length ∧ handle.getLast? = some '!' then
    if suffix.isEmpty then none else some (.tag handle suffix, rest)
  else
    let suffix := handle.drop 1 ++ suffix
    some (if suffix.isEmpty then .tag [] ['!'] else .tag ['!'] suffix, rest)

/-- A tag; a gap follows it, or inside brackets a bracket or a comma. -/
def tag? (flow : Bool) (gs : Glyphs) : Option (Token × Glyphs) :=
  (if gs.next = '<' then verbatimTag? (gs.skip 2) else shorthandTag? gs).filter fun (_, rest) =>
    isGap rest.char || (flow && isFlow rest.char)

/-! ## Directives -/

/-- Digits of a version, at most nine. -/
def versionDigits? (gs : Glyphs) : Option Glyphs :=
  let digits := gs.textWhile Char.isDigit
  if digits.isEmpty ∨ 9 < digits.length then none else some (gs.skipWhile Char.isDigit)

/-- A version: two numbers with a point between them. -/
def version? (gs : Glyphs) : Option Glyphs := do
  let gs ← versionDigits? (gs.skipWhile isBlank)
  if gs.char ≠ '.' then none else versionDigits? (gs.skip 1)

def handleMeaning? (gs : Glyphs) : Option (Token × Glyphs) := do
  let (handle, gs) ← tagHandle? (gs.skipWhile isBlank)
  if handle ≠ ['!'] ∧ (handle.length < 2 ∨ handle.getLast? ≠ some '!') then none
  let gs := gs.skipWhile isBlank
  let start := gs.textWhile fun c => !isGap c
  if start.isEmpty then none else some (.tagHandle handle start, gs.skipWhile fun c => !isGap c)

/-- A directive, after its sign. One that is not known is passed over. -/
def directive? (gs : Glyphs) : Option (Token × Glyphs) := do
  let name := gs.textWhile isNameChar
  let gs := gs.skipWhile isNameChar
  if name.isEmpty ∨ !isGap gs.char then none
  let (token, gs) ←
    if name = "YAML".toList then (version? gs).map (Token.version, ·)
    else if name = "TAG".toList then handleMeaning? gs
    else some (Token.tagHandle [] [], gs.skipWhile fun c => !isLineEnd c)
  let gs ← gs.skipRestOfLine?
  if !isLineEnd gs.char then none
  else some (token, if gs.char = '\n' then (gs.skip 1) else gs)

end LiteralFolding.Datum.Yaml
