-- Characters with their places. Where something stands on its line decides what it means in a
-- YAML document.
import LiteralFolding.Literal.Escape

namespace LiteralFolding.Datum.Yaml

/-! ## Kinds of characters -/

/-- Stands for the end of the text. -/
def endChar : Char := '\x00'

def isBlank (c : Char) : Bool := c = ' ' || c = '\t'

/-- The end of a line or of the text. -/
def isLineEnd (c : Char) : Bool := c = '\n' || c = endChar

def isGap (c : Char) : Bool := isBlank c || isLineEnd c

/-- The brackets of lists and maps, and the comma between their items. -/
def isFlow (c : Char) : Bool := c = ',' || c = '[' || c = ']' || c = '\x7b' || c = '\x7d'

def isNameChar (c : Char) : Bool := c.isAlphanum || c = '_' || c = '-'

/-! ## Glyphs -/

/-- A character at its place. -/
structure Glyph where
  char : Char
  line : Nat
  column : Nat
  /-- How many characters of the text stand before it. -/
  index : Nat
  /-- Only blanks stand before it on its line. -/
  leads : Bool
  deriving DecidableEq, Repr

/-- A text from some place on. -/
abbrev Glyphs := List Glyph

namespace Glyphs

/-- The characters of a text from the place of its first one on. The end of the text is a
character of its own. -/
def placed (line column index : Nat) (leads : Bool) : Text → Glyphs
  | [] => [⟨endChar, line, column, index, leads⟩]
  | c :: t =>
    if c = endChar then [⟨endChar, line, column, index, leads⟩]
    else
      ⟨c, line, column, index, leads⟩ ::
        (if c = '\n' then placed (line + 1) 0 (index + 1) true t
         else placed line (column + 1) (index + 1) (leads && isBlank c) t)

/-- The characters of a text. All line ends are alike. -/
def ofText (t : Text) : Glyphs := placed 0 0 0 true (Literal.unifyLineEnds t)

def here : Glyphs → Glyph
  | g :: _ => g
  | [] => ⟨endChar, 0, 0, 0, true⟩

def skip (count : Nat) (gs : Glyphs) : Glyphs := gs.drop count

def char (gs : Glyphs) : Char := gs.here.char

/-- The second character. -/
def next (gs : Glyphs) : Char := (gs.skip 1).char

def text (gs : Glyphs) : Text := gs.map (·.char)

def textWhile (test : Char → Bool) (gs : Glyphs) : Text := text (gs.takeWhile fun g => test g.char)

def skipWhile (test : Char → Bool) (gs : Glyphs) : Glyphs := gs.dropWhile fun g => test g.char

/-- Does a line start here with three times the same character and nothing right behind? -/
def isMark (c : Char) (gs : Glyphs) : Bool :=
  gs.here.column = 0 && text (gs.take 3) = [c, c, c] && isGap (gs.skip 3).char

/-- Does a line start here that begins or ends a document? -/
def isDocumentMark (gs : Glyphs) : Bool := isMark '-' gs || isMark '.' gs

/-- Drops blanks and a comment behind them. A comment right here is refused. -/
def skipRestOfLine? (gs : Glyphs) : Option Glyphs :=
  let rest := skipWhile isBlank gs
  if rest.char ≠ '#' then some rest
  else if rest.length < gs.length then some (skipWhile (fun c => !isLineEnd c) rest)
  else none

/-- Is there nothing but blanks and a comment on the rest of the line? -/
def isLineRest (gs : Glyphs) : Bool :=
  let rest := skipWhile isBlank gs
  isLineEnd rest.char || rest.char = '#'

/-- Drops blanks, line ends and comments; tells whether a line ended. A tab left of the indent
`indent` of a block may only stand on an empty line. -/
def skipFiller? (indent : Option Int) (comment broke : Bool) : Glyphs → Option (Bool × Glyphs)
  | [] => some (broke, [])
  | g :: rest =>
    if g.char = '\n' then skipFiller? indent false true rest
    else if comment && g.char != endChar then skipFiller? indent true broke rest
    else if g.char = '#' then skipFiller? indent true broke rest
    else if isBlank g.char then
      if g.char = '\t' && g.leads && indent.any (fun i => (g.column : Int) < i) && !isLineRest rest then none
      else skipFiller? indent false broke rest
    else some (broke, g :: rest)

end Glyphs

end LiteralFolding.Datum.Yaml
