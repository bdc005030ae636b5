-- Scanning: a YAML document as its tokens. A key is known as such only at the colon behind it, so
-- the tokens in front of a key are put in afterwards.
import LiteralFolding.Datum.Yaml.Token

namespace LiteralFolding.Datum.Yaml

/-- Something that will have been a key if a colon follows it. -/
structure PossibleKey where
  /-- It can still be one. -/
  possible : Bool := false
  /-- Nothing but a key can stand there. -/
  required : Bool := false
  /-- How many tokens come before it. -/
  token : Nat := 0
  line : Nat := 0
  column : Nat := 0
  index : Nat := 0
  deriving DecidableEq, Repr

/-- An indent that is open. -/
structure Level where
  /-- The indent around it. -/
  outer : Int
  /-- It is the indent of a block; otherwise it only keeps what belongs to a key away from the
  left. -/
  block : Bool
  deriving DecidableEq, Repr

/-- A document while it is scanned. -/
structure Scan where
  rest : Glyphs
  /-- The tokens so far, the last one first. -/
  tokens : List Token := []
  indent : Int := -1
  /-- The open indents, the innermost first. -/
  levels : List Level := []
  /-- The open brackets, the innermost first. -/
  brackets : List Char := []
  /-- For the document and each open bracket the last possible key, the innermost first. -/
  keys : List PossibleKey := [{}]
  /-- Can a key start here? -/
  keyAllowed : Bool := true
  /-- Where a colon needs no gap behind it. -/
  adjacent : Option Nat := none

namespace Scan

def here (s : Scan) : Glyph := s.rest.here

def inFlow (s : Scan) : Bool := !s.brackets.isEmpty

def push (token : Token) (s : Scan) : Scan := { s with tokens := token :: s.tokens }

/-- Puts a token behind the first `count` ones. -/
def insert (count : Nat) (token : Token) (s : Scan) : Scan :=
  { s with tokens := s.tokens.insertIdx (s.tokens.length - count) token }

/-! ## Indents -/

/-- The indent and the levels left when all right of a column are closed, and how many of those
were blocks. -/
def closeLevels (column : Int) (indent : Int) : List Level → Nat × Int × List Level
  | [] => (0, indent, [])
  | level :: levels =>
    if indent ≤ column then (0, indent, level :: levels)
    else
      let (blocks, rest) := closeLevels column level.outer levels
      (if level.block then blocks + 1 else blocks, rest)

/-- Closes the indents right of a column; brackets keep them open. -/
def unroll (column : Int) (s : Scan) : Scan :=
  if s.inFlow then s
  else
    let (blocks, indent, levels) := closeLevels column s.indent s.levels
    { s with indent, levels, tokens := List.replicate blocks .blockEnd ++ s.tokens }

/-- The indent and the levels without those inside the innermost block. -/
def looseLevels (indent : Int) : List Level → Int × List Level
  | [] => (indent, [])
  | level :: levels => if level.block then (indent, level :: levels) else looseLevels level.outer levels

/-- Closes the indents inside the innermost block. -/
def unrollLoose (s : Scan) : Scan :=
  let (indent, levels) := looseLevels s.indent s.levels
  { s with indent, levels }

/-- Closes the last indent if it is no block's and not right of a column. -/
def unrollLast (column : Int) (s : Scan) : Scan :=
  match s.levels with
  | level :: levels =>
    if s.indent ≤ column ∧ !level.block then { s with indent := level.outer, levels } else s
  | [] => s

/-- Opens a block at a column, unless one is open there. Its token goes behind the first `count`
ones. -/
def roll (column count : Nat) (token : Token) (s : Scan) : Scan :=
  if s.inFlow then s
  else
    let s := s.unrollLast column
    if s.indent < column then
      { s with indent := column, levels := ⟨s.indent, true⟩ :: s.levels }.insert count token
    else s

/-- Opens an indent one column right of the innermost block. -/
def rollLoose (s : Scan) : Scan :=
  match s.levels with
  | level :: _ =>
    if !s.inFlow ∧ level.block then
      { s with indent := s.indent + 1, levels := ⟨s.indent, false⟩ :: s.levels }
    else s
  | [] => s

/-! ## Possible keys -/

/-- Notes that a key may start here. -/
def saveKey (s : Scan) : Scan :=
  if !s.keyAllowed then s
  else
    let g := s.here
    let key : PossibleKey :=
      { possible := true
        required := !s.inFlow && s.indent = (g.column : Int) && s.levels.head?.any (·.block)
        token := s.tokens.length, line := g.line, column := g.column, index := g.index }
    { s with keys := key :: s.keys.tail }

/-- The last possible key is none; this must not happen where nothing else can stand. -/
def removeKey? (s : Scan) : Option Scan :=
  match s.keys with
  | [] => some s
  | key :: keys =>
    if key.possible ∧ key.required then none
    else some { s with keys := { key with possible := false } :: keys }

/-- A key outside of brackets stands on one line and is not too long. -/
def isStale (s : Scan) (key : PossibleKey) : Bool :=
  key.possible && !s.inFlow && (key.line < s.here.line || key.index + 1024 < s.here.index)

/-- Gives up the possible keys that are too far back. -/
def dropStale? (s : Scan) : Option Scan :=
  if s.keys.any fun key => s.isStale key && key.required then none
  else some { s with keys := s.keys.map fun key => if s.isStale key then { key with possible := false } else key }

def allowKey (allowed : Bool) (s : Scan) : Scan := { s with keyAllowed := allowed }

/-! ## Steps -/

/-- Drops what stands before the next token. -/
def toNext? (s : Scan) : Option Scan :=
  let indent := if s.levels.isEmpty then none else some s.indent
  (s.rest.skipFiller? indent false false).map fun (broke, rest) =>
    { s with rest, keyAllowed := s.keyAllowed || (broke && !s.inFlow) }

/-- Drops some characters and what follows them on the line. -/
def skipLine? (count : Nat) (s : Scan) : Option Scan :=
  ((s.rest.skip count).skipRestOfLine?).map fun rest => { s with rest }

/-- A line that starts or ends a document, or a directive: no block goes on past it. -/
def topLevel? (token : Token) (rest : Glyphs) (s : Scan) : Option Scan := do
  let s ← (s.unroll (-1)).removeKey?
  some ({ s with rest }.allowKey false |>.push token)

/-- The line after which a document ends; nothing else stands on it. -/
def documentEnd? (s : Scan) : Option Scan := do
  let s ← s.topLevel? .documentEnd (s.rest.skip 3)
  let s ← s.skipLine? 0
  if isLineEnd s.here.char then some s else none

/-- Brackets nest at most this deep. -/
def bracketLimit : Nat := 255

def openBracket? (token : Token) (s : Scan) : Option Scan := do
  let s := s.saveKey.rollLoose
  if s.brackets.length = bracketLimit then none
  let s := { s with brackets := s.here.char :: s.brackets, keys := {} :: s.keys }.allowKey true
  (s.skipLine? 1).map (push token)

def closeBracket? (token : Token) (s : Scan) : Option Scan := do
  let s ← s.removeKey?
  let s := if s.inFlow then { s with brackets := s.brackets.tail, keys := s.keys.tail } else s
  let s ← (s.allowKey false).skipLine? 1
  some ({ s with adjacent := if s.inFlow then some s.here.index else s.adjacent }.push token)

def comma? (s : Scan) : Option Scan := do
  let s ← s.removeKey?
  ((s.allowKey true).skipLine? 1).map (push .comma)

def dash? (s : Scan) : Option Scan := do
  if s.inFlow ∨ !s.keyAllowed then none
  let column := s.here.column
  let blanks := (s.rest.skip 1).textWhile isBlank
  let s := s.roll column s.tokens.length .blockList
  let s ← s.skipLine? 1
  if blanks.contains '\t' ∧ s.rest.char = '-' ∧ isGap s.rest.next then none
  let s := if s.rest.char = '\n' ∨ isFlow s.rest.char then s.rollLoose else s
  let s ← s.removeKey?
  some ((s.allowKey true).push .dash)

def questionMark? (s : Scan) : Option Scan := do
  if !s.inFlow ∧ !s.keyAllowed then none
  let s := s.roll s.here.column s.tokens.length .blockMap
  let s ← s.removeKey?
  let s := (s.allowKey (!s.inFlow)).push .key
  let rest := s.rest.skip 1
  if (rest.skipWhile (· = ' ')).char = '\t' then none else some { s with rest }

/-- Drops the colon. After a tab alone no word may follow. -/
def skipColon? (s : Scan) : Option Scan :=
  let rest := s.rest.skip 1
  if rest.char ≠ '\t' then some { s with rest }
  else
    (rest.skipRestOfLine?).bind fun after =>
      if !(rest.textWhile isBlank).contains ' ' ∧ (after.char = '-' ∨ after.char.isAlphanum) then none
      else some { s with rest := after }

def colon? (s : Scan) : Option Scan := do
  let key := s.keys.headD {}
  let g := s.here
  let s ← s.skipColon?
  if key.possible then
    if s.brackets.head? = some '[' ∧ key.line < g.line then none
    let s := (s.insert key.token .key).roll key.column key.token .blockMap
    let s := { s.rollLoose with keys := { key with possible := false } :: s.keys.tail }
    some ((s.allowKey false).push .value)
  else
    if !s.inFlow ∧ !s.keyAllowed then none
    let s := s.roll g.column s.tokens.length .blockMap
    some ((s.rollLoose.allowKey (!s.inFlow)).push .value)

/-- A token that may be a key, from what was read of it. -/
def keyToken? (read? : Scan → Option (Token × Glyphs)) (s : Scan) : Option Scan :=
  (read? s).map fun (token, rest) => { s.saveKey with rest }.allowKey false |>.push token

/-- An alias or an anchor. -/
def anchor? (make : Text → Token) : Scan → Option Scan :=
  keyToken? fun s => (anchorName? (s.rest.skip 1)).map fun (name, rest) => (make name, rest)

/-- A quoted text. Nothing but what ends an item may follow on its line. -/
def quotedText? (quote : Char) (s : Scan) : Option Scan := do
  let start := s.here
  let s ← s.keyToken? fun s =>
    (quoted? quote s.indent (s.rest.skip 1)).map fun (t, rest) => (.scalar false t, rest)
  let s ← s.skipLine? 0
  let c := s.here.char
  let fits := isLineEnd c || (if s.inFlow then c = ',' || c = '\x7d' || c = ']' || c = ':'
    else c = ':' && start.line = s.here.line)
  if !fits then none
  let s ← s.toNext?
  some { s with adjacent := some s.here.index }

/-- A plain text. If it ends with its line, a key may start next. -/
def plainText? (s : Scan) : Option Scan := do
  let s := { s.saveKey with keyAllowed := false }.unrollLoose
  let (t, rest) ← plain? s.inFlow (s.indent + 1) s.rest
  some ({ s with rest, keyAllowed := rest.here.leads }.push (.scalar true t))

def blockText? (folded : Bool) (s : Scan) : Option Scan := do
  let s := { s.saveKey with keyAllowed := true }.unrollLoose
  let (t, rest) ← block? folded s.indent (s.rest.skip 1)
  some ({ s with rest }.push (.scalar false t))

def token? (s : Scan) : Option Scan :=
  let gs := s.rest
  let c := gs.char
  if s.here.column = 0 ∧ c = '%' then
    (directive? (gs.skip 1)).bind fun (token, rest) => s.topLevel? token rest
  else if gs.isMark '-' then s.topLevel? .documentStart (gs.skip 3)
  else if gs.isMark '.' then s.documentEnd?
  else if (s.here.column : Int) < s.indent then none
  else if c = '[' then s.openBracket? .openList
  else if c = '\x7b' then s.openBracket? .openMap
  else if c = ']' then s.closeBracket? .closeList
  else if c = '\x7d' then s.closeBracket? .closeMap
  else if c = ',' then s.comma?
  else if c = '-' ∧ isGap gs.next then s.dash?
  else if c = '?' ∧ isGap gs.next then s.questionMark?
  else if c = ':' ∧ isGap gs.next then s.colon?
  else if c = ':' ∧ s.inFlow ∧ s.adjacent = some s.here.index then s.colon?
  else if c = ':' ∧ s.inFlow ∧ isFlow gs.next then
    if gs.next = '[' ∨ gs.next = '\x7b' then none else s.colon?
  else if c = '*' then s.anchor? .alias
  else if c = '&' then s.anchor? .anchor
  else if c = '!' then s.keyToken? fun s => tag? s.inFlow s.rest
  else if c = '|' ∧ !s.inFlow then s.blockText? false
  else if c = '>' ∧ !s.inFlow then s.blockText? true
  else if c = '\x27' ∨ c = '\x22' then s.quotedText? c
  else if c = '%' ∨ c = '@' ∨ c = '\x60' then none
  else s.plainText?

def finish? (s : Scan) : Option (List Token) :=
  if s.keys.any fun key => key.possible && key.required then none
  else some (s.unroll (-1)).tokens.reverse

/-- All tokens from here on, at most `steps` of them. -/
def run? : (steps : Nat) → Scan → Option (List Token)
  | 0, _ => none
  | steps + 1, s => do
    let s ← s.toNext?
    let s ← s.dropStale?
    let s := s.unroll s.here.column
    if s.here.char = endChar then s.finish? else run? steps (← s.token?)

end Scan

/-- The tokens of a text; each but the last takes at least one character. -/
def tokens? (t : Text) : Option (List Token) := Scan.run? (t.length + 1) { rest := Glyphs.ofText t }

end LiteralFolding.Datum.Yaml
