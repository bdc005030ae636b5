-- Texts of a YAML document: plain ones, quoted ones, and blocks of lines.
import LiteralFolding.Datum.Yaml.Glyph

namespace LiteralFolding.Datum.Yaml

/-- What joins two lines: one line end becomes a space, and of more than one the first is dropped.
Blanks inside a line stay. -/
def joint (breaks : Nat) (blanks : Text) : Text :=
  if breaks = 0 then blanks
  else if breaks = 1 then [' ']
  else List.replicate (breaks - 1) '\n'

/-! ## Plain texts -/

/-- Does a plain text go on with the character here? A colon ends it before a gap. Inside brackets
brackets and commas end it too. -/
def continuesPlain (flow : Bool) (gs : Glyphs) : Bool :=
  if gs.char = ':' then !(isGap gs.next || (flow && isFlow gs.next))
  else !(flow && isFlow gs.char)

/-- A part of a plain text without gaps. -/
def plainWord (flow : Bool) : Glyphs → Text × Glyphs
  | [] => ([], [])
  | g :: rest =>
    if isGap g.char || !continuesPlain flow (g :: rest) then ([], g :: rest)
    else
      let (word, rest) := plainWord flow rest
      (g.char :: word, rest)

/-- The gap after a part of a plain text: what it joins the parts with, and what follows it. A tab
left of the indent may only stand on an empty line. -/
def plainGap? (indent : Int) (breaks : Nat) (blanks : Text) : Glyphs → Option (Text × Glyphs)
  | [] => some (joint breaks blanks.reverse, [])
  | g :: rest =>
    if g.char = '\n' then plainGap? indent (breaks + 1) [] rest
    else if !isBlank g.char then some (joint breaks blanks.reverse, g :: rest)
    else if breaks = 0 then plainGap? indent 0 (g.char :: blanks) rest
    else if g.char = '\t' && (g.column : Int) < indent && !Glyphs.isLineRest rest then none
    else plainGap? indent breaks blanks rest

/-- A plain text from one of its parts on; `before` joins that part with the one before it. Outside
of brackets the text ends at a line left of the indent. -/
def plainParts? (flow : Bool) (indent : Int) (before : Text) (gs : Glyphs) : Option (Text × Glyphs) :=
  if gs.isDocumentMark || gs.char = '#' then some ([], gs)
  else if flow && gs.char = '-' && isFlow gs.next then none
  else
    let (word, rest) := plainWord flow gs
    let part := if word.isEmpty then [] else before ++ word
    if !(isBlank rest.char || rest.char = '\n') then some (part, rest)
    else
      match plainGap? indent 0 [] rest with
      | none => none
      | some (after, rest) =>
        if !flow && (rest.here.column : Int) < indent then some (part, rest)
        else if rest.length < gs.length then
          (plainParts? flow indent after rest).map fun (more, rest) => (part ++ more, rest)
        else none
termination_by gs.length

/-- A plain text; there is something of it. -/
def plain? (flow : Bool) (indent : Int) (gs : Glyphs) : Option (Text × Glyphs) :=
  if flow && (gs.here.column : Int) < indent then none
  else (plainParts? flow indent [] gs).filter fun (t, _) => !t.isEmpty

/-! ## Quoted texts -/

/-- The letters that stand for a character after a backslash. -/
def escapeLetters : List (Char × Char) :=
  [('0', '\x00'), ('a', '\x07'), ('b', '\x08'), ('t', '\t'), ('\t', '\t'), ('n', '\n'), ('v', '\x0b'),
    ('f', '\x0c'), ('r', '\r'), ('e', '\x1b'), (' ', ' '), ('\x22', '\x22'), ('/', '/'), ('\\', '\\'),
    ('N', '\x85'), ('_', '\xa0'), ('L', '\u2028'), ('P', '\u2029')]

/-- The letters before a character's code, with the number of its digits. -/
def escapeCodes : List (Char × Nat) := [('x', 2), ('u', 4), ('U', 8)]

def escape? (gs : Glyphs) : Option (Char × Glyphs) :=
  match escapeLetters.find? fun e => e.1 = gs.char with
  | some (_, c) => some (c, gs.tail)
  | none =>
    match escapeCodes.find? fun e => e.1 = gs.char with
    | none => none
    | some (_, count) => do
      let (code, _) ← Text.fixedValue? 16 count (Glyphs.text (gs.tail.take count))
      (Text.scalar? code).map (·, gs.tail.drop count)

/-- A part of a quoted text without gaps, and whether a backslash before a line end closes it. -/
def quotedWord? (quote : Char) : Glyphs → Option (Text × Bool × Glyphs)
  | [] => none
  | g :: rest =>
    if isGap g.char then some ([], false, g :: rest)
    else if g.char = quote then
      if quote = '\x27' ∧ Glyphs.char rest = quote then
        (quotedWord? quote rest.tail).map fun (word, rest) => (quote :: word, rest)
      else some ([], false, g :: rest)
    else if quote = '\x22' ∧ g.char = '\\' then
      if Glyphs.char rest = '\n' then some ([], true, rest.tail)
      else
        match escape? rest with
        | none => none
        | some (c, after) =>
          if after.length ≤ rest.length then (quotedWord? quote after).map fun (word, rest) => (c :: word, rest)
          else none
    else (quotedWord? quote rest).map fun (word, rest) => (g.char :: word, rest)
termination_by gs => gs.length
decreasing_by all_goals simp_all; try omega

/-- The gap after a part of a quoted text. After an escaped line end every further one stays. A tab
left of the indent is refused. -/
def quotedGap? (indent : Int) (escaped : Bool) (breaks : Nat) (blanks : Text) : Glyphs → Option (Text × Glyphs)
  | [] => none
  | g :: rest =>
    if g.char = '\n' then quotedGap? indent escaped (breaks + 1) [] rest
    else if !isBlank g.char then
      some (if escaped then List.replicate breaks '\n' else joint breaks blanks.reverse, g :: rest)
    else if !escaped && breaks = 0 then quotedGap? indent escaped 0 (g.char :: blanks) rest
    else if g.char = '\t' && (g.column : Int) < indent then none
    else quotedGap? indent escaped breaks blanks rest

/-- A quoted text after its opening quote. No line of it is left of the indent. -/
def quoted? (quote : Char) (indent : Int) (gs : Glyphs) : Option (Text × Glyphs) :=
  if gs.isDocumentMark || gs.char = endChar || (gs.here.column : Int) < indent then none
  else
    match quotedWord? quote gs with
    | none => none
    | some (word, escaped, rest) =>
      if rest.char = quote then some (word, rest.tail)
      else
        match quotedGap? indent escaped 0 [] rest with
        | none => none
        | some (gap, rest) =>
          if rest.length < gs.length then
            (quoted? quote indent rest).map fun (more, rest) => (word ++ gap ++ more, rest)
          else none
termination_by gs.length

/-! ## Blocks of lines -/

/-- What becomes of the line ends at the end of a block. -/
inductive Chomping where
  | clip
  | strip
  | keep
  deriving DecidableEq, Repr

/-- The sign for the line ends at the end. -/
def chomping? (gs : Glyphs) : Option (Chomping × Glyphs) :=
  if gs.char = '+' then some (.keep, gs.tail)
  else if gs.char = '-' then some (.strip, gs.tail)
  else none

/-- The digit for the indent of a block, if there is one; it is not zero. -/
def indentDigit? (gs : Glyphs) : Option (Nat × Glyphs) :=
  if !gs.char.isDigit then some (0, gs)
  else if gs.char = '0' then none
  else some (gs.char.toNat - '0'.toNat, gs.tail)

/-- The signs of a block, in either order. -/
def blockSigns? (gs : Glyphs) : Option (Chomping × Nat × Glyphs) :=
  match chomping? gs with
  | some (chomping, rest) => (indentDigit? rest).map fun (digit, rest) => (chomping, digit, rest)
  | none =>
    (indentDigit? gs).map fun (digit, rest) =>
      match if digit = 0 then none else chomping? rest with
      | some (chomping, rest) => (chomping, digit, rest)
      | none => (.clip, digit, rest)

/-- The widest indent of the empty lines at the start of a block and its first line; how many
lines are empty; and what follows. -/
def firstIndent (widest breaks : Nat) : Glyphs → Nat × Nat × Glyphs
  | [] => (widest, breaks, [])
  | g :: rest =>
    if g.char = ' ' then firstIndent widest breaks rest
    else if g.char = '\n' then firstIndent (max widest g.column) (breaks + 1) rest
    else (max widest g.column, breaks, g :: rest)

/-- Drops the indent of a line, and empty lines before it. -/
def skipIndent (indent breaks : Nat) : Glyphs → Nat × Glyphs
  | [] => (breaks, [])
  | g :: rest =>
    if g.char = ' ' ∧ g.column < indent then skipIndent indent breaks rest
    else if g.char = '\n' then skipIndent indent (breaks + 1) rest
    else (breaks, g :: rest)

/-- Where a block stands after some of its lines. -/
structure BlockEnd where
  /-- The last line ended. -/
  ended : Bool := false
  /-- The empty lines after it. -/
  breaks : Nat := 0
  /-- The last line started with a blank. -/
  blank : Bool := false
  rest : Glyphs

/-- What stands between the last line of a block and the next one. Where lines are folded, two
lines that both start without a blank are joined. -/
def BlockEnd.joint (folded : Bool) (e : BlockEnd) (blank : Bool) : Text :=
  let empty := List.replicate e.breaks '\n'
  if folded && e.ended && !e.blank && !blank then (if e.breaks = 0 then [' '] else empty)
  else (if e.ended then ['\n'] else []) ++ empty

/-- The lines of a block with its indent, and where it ends. -/
def blockLines (folded : Bool) (indent : Nat) (e : BlockEnd) : Text × BlockEnd :=
  let gs := e.rest
  if gs.here.column ≠ indent ∨ gs.char = endChar ∨ (indent = 0 ∧ gs.isMark '.') then ([], e)
  else
    let blank := isBlank gs.char
    let line := e.joint folded blank ++ gs.textWhile fun c => !isLineEnd c
    let after := gs.skipWhile fun c => !isLineEnd c
    if after.char = endChar then (line, { rest := after })
    else
      let (breaks, rest) := skipIndent indent 0 after.tail
      if rest.length < gs.length then
        let (more, e) := blockLines folded indent { ended := true, breaks, blank, rest }
        (line ++ more, e)
      else (line, e)
termination_by e.rest.length

def emptyBlock (chomping : Chomping) (ended : Bool) (breaks : Nat) : Text :=
  if chomping = .strip ∨ !ended then []
  else if chomping = .keep ∧ breaks ≠ 0 then List.replicate breaks '\n'
  else ['\n']

/-- What the sign keeps of the line ends at the end. A last line without an end gets one. -/
def blockTail (chomping : Chomping) (indent : Nat) (e : BlockEnd) : Text :=
  if chomping = .strip then []
  else
    (if e.ended then ['\n'] else []) ++
      (if e.rest.char = endChar ∧ max indent 1 ≤ e.rest.here.column then ['\n'] else []) ++
      (if chomping = .keep then List.replicate e.breaks '\n' else [])

/-- A block after its sign, inside the indent `outer`. -/
def block? (folded : Bool) (outer : Int) (gs : Glyphs) : Option (Text × Glyphs) := do
  let (chomping, digit, gs) ← blockSigns? gs
  let gs ← gs.skipRestOfLine?
  if !isLineEnd gs.char then none
  let ended := gs.char = '\n'
  let gs : Glyphs := if ended then gs.tail else gs
  if gs.char = '\t' then none
  let given : Nat := if digit = 0 then 0 else (max outer 0).toNat + digit
  let (indent, breaks, gs) : Nat × Nat × Glyphs :=
    if given = 0 then
      let (widest, breaks, gs) := firstIndent 0 0 gs
      let indent := max widest (outer + 1).toNat
      (if 0 < outer then max indent 1 else indent, breaks, gs)
    else
      let (breaks, gs) := skipIndent given 0 gs
      (given, breaks, gs)
  if gs.char = endChar then some (emptyBlock chomping ended breaks, gs)
  else if gs.here.column < indent ∧ outer < (gs.here.column : Int) then none
  else
    let (lines, e) := blockLines folded indent { breaks, rest := gs }
    some (lines ++ blockTail chomping indent e, e.rest)

end LiteralFolding.Datum.Yaml
