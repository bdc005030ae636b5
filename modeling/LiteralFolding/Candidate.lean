-- Candidates: one value on its way to a literal. It is visited for its text, then
-- transformed, and each step happens once.
import LiteralFolding.Fragment
import LiteralFolding.Transform
import LiteralFolding.Literal.Quoted

namespace LiteralFolding

/-- Why a value stays as it is written. -/
inductive Skip where
  /-- Folding does not start at an expression of this kind. -/
  | notEntry (kind : Kind)
  | traversal (error : FragmentError)
  /-- The value, its property or its object failed to parse. -/
  | syntaxError
  /-- There was no fragment at all. -/
  | empty
  | transform (error : TransformError)
  deriving DecidableEq, Repr

def Skip.message : Skip → Text
  | .notEntry kind => "value is a ".toList ++ kind.name.toList ++ ", not a foldable expression".toList
  | .traversal error => "failed to visit: ".toList ++ error.message
  | .syntaxError => "value is next to a syntax error".toList
  | .empty => "template produced no text".toList
  | .transform error => "failed to transform: ".toList ++ error.message

/-- How far a candidate has come, with its text if it has one. -/
inductive Progress where
  | created
  | visited (text : Option Text)
  | transformed (text : Option Text)
  deriving DecidableEq, Repr

/-- A value on its way to a literal. -/
structure Candidate where
  position : Position
  progress : Progress := .created
  skip : Option Skip := none

namespace Candidate

/-- Is the value, or the property and object around it, broken? -/
def nearSyntaxError (p : Position) : Bool := (p.node :: p.above).take 3 |>.any (·.broken)

def evaluate (s : Source) (resolver : Resolver) (p : Position) : Except Skip Text :=
  if !p.kind.isEntry then .error (.notEntry p.kind)
  else if nearSyntaxError p then .error .syntaxError
  else
    match Fragment.ofPosition s resolver p with
    | (_, some e) => .error (.traversal e)
    | ([], none) => .error .empty
    | (texts, none) => .ok texts.flatten

/-- Moves on to `progress`; the first reason to skip is the one that is kept. -/
def proceed (c : Candidate) (step : Option Text → Progress) : Except Skip Text → Candidate
  | .ok text => { c with progress := step (some text) }
  | .error reason => { c with progress := step none, skip := c.skip.or (some reason) }

/-- Gathers the text of a new candidate. -/
def visit (s : Source) (resolver : Resolver) (c : Candidate) : Candidate :=
  match c.progress with
  | .created => c.proceed .visited (evaluate s resolver c.position)
  | _ => c

/-- Transforms the text of a candidate that has not been transformed. -/
def transform (f : Transform) (c : Candidate) : Candidate :=
  match c.progress with
  | .transformed _ => c
  | .visited (some text) =>
    match Transform.run f text with
    | .ok text => c.proceed .transformed (.ok text)
    | .error e => c.proceed .transformed (.error (.transform e))
  | _ => { c with progress := .transformed none }

/-- The literal for the candidate's text, once that is transformed. -/
def literal? (quote : Quote) (c : Candidate) : Option Text :=
  match c.progress with
  | .transformed (some text) => some (Literal.encode quote text)
  | _ => none

end Candidate

end LiteralFolding
