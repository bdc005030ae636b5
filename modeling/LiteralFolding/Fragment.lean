-- Fragments: the pieces of text that an expression is made of, one at a time and in order.
-- The first failure ends them.
import LiteralFolding.Expression
import LiteralFolding.Text.Blank

namespace LiteralFolding

/-- Why an expression is not made of literal text. -/
inductive FragmentError where
  | unsupportedOperator (operator : Kind) (location : Location)
  | unresolvedReference (path : Text) (location : Location)
  | unsupportedNode (kind : Kind) (text : Text) (location : Location)
  deriving DecidableEq, Repr

def FragmentError.message : FragmentError → Text
  | .unsupportedOperator operator location =>
    "can only join template parts with the \"+\" operator, saw \"".toList ++ operator.name.toList ++
      "\" at ".toList ++ location.text
  | .unresolvedReference path location =>
    "could not get a literal value for \"".toList ++ path ++ "\" at ".toList ++ location.text
  | .unsupportedNode kind text location =>
    "non-traversable ".toList ++ kind.name.toList ++ " found at ".toList ++ location.text ++
      ": ".toList ++ text

/-- Gives the text that a reference stands for, if it stands for one. -/
abbrev Resolver := Source → Position → Option Text

/-- A part of an expression that is still to come. -/
inductive Part where
  | expression (position : Position)
  | text (text : Text)

namespace Part

/-- The parts of a template after its first segment. -/
def ofSpans (spans : List (Position × Text)) : List Part :=
  spans.flatMap fun (p, t) => [.expression p, .text t]

/-- The number of nodes that the parts still hold. -/
def weight : List Part → Nat
  | [] => 0
  | .expression p :: rest => p.tree.size + weight rest
  | .text _ :: rest => weight rest

theorem weight_append (a b : List Part) : weight (a ++ b) = weight a + weight b := by
  induction a with
  | nil => simp [weight]
  | cons part a ih =>
    cases part with
    | expression p =>
      simp only [List.cons_append, weight, ih]
      omega
    | text t => simp only [List.cons_append, weight, ih]

theorem weight_ofSpans (spans : List (Position × Text)) :
    weight (ofSpans spans) = Position.sizeAll (spans.map (·.1)) := by
  induction spans with
  | nil => rfl
  | cons span spans ih =>
    simpa [ofSpans, weight, Position.sizeAll_cons] using ih

end Part

namespace Fragment

/-- The dotted path of a reference: its text without white space. -/
def referencePath (t : Text) : Text := t.filter (!Text.isBlank ·)

/-- The first fragment of an expression and the parts that come after it. -/
def first (s : Source) (resolver : Resolver) (p : Position) : Except FragmentError (Text × List Part) :=
  match h : Expression.ofPosition s p with
  | .literal text => .ok (text, [])
  | .template head spans => .ok (head, Part.ofSpans spans)
  | .concatenation left operator right =>
    if operator = .plus then
      have := Expression.size_concatenation_lt h
      match first s resolver left with
      | .ok (text, rest) => .ok (text, rest ++ [.expression right])
      | .error e => .error e
    else .error (.unsupportedOperator operator (s.locationOf p.node))
  | .parenthesized inner =>
    have := Expression.size_parenthesized_lt h
    first s resolver inner
  | .reference =>
    match resolver s p with
    | some text => .ok (text, [])
    | none =>
      .error (.unresolvedReference (referencePath (s.textOf p.node)) (s.locationOf p.node))
  | .unsupported =>
    .error (.unsupportedNode p.kind (s.textOf p.node) (s.locationOf p.node))
termination_by p.tree.size

/-- The first fragment by the form of the expression. -/
theorem first_eq (s : Source) (resolver : Resolver) (p : Position) :
    first s resolver p =
      match Expression.ofPosition s p with
      | .literal text => .ok (text, [])
      | .template head spans => .ok (head, Part.ofSpans spans)
      | .concatenation left operator right =>
        if operator = .plus then
          match first s resolver left with
          | .ok (text, rest) => .ok (text, rest ++ [.expression right])
          | .error e => .error e
        else .error (.unsupportedOperator operator (s.locationOf p.node))
      | .parenthesized inner => first s resolver inner
      | .reference =>
        match resolver s p with
        | some text => .ok (text, [])
        | none =>
          .error (.unresolvedReference (referencePath (s.textOf p.node)) (s.locationOf p.node))
      | .unsupported => .error (.unsupportedNode p.kind (s.textOf p.node) (s.locationOf p.node)) := by
  rw [first]
  split <;> simp only [*]

/-- The next fragment of what is to come, and what comes after it. Nothing comes after a
failure. -/
def next (s : Source) (resolver : Resolver) :
    List Part → Option (Except FragmentError Text × List Part)
  | [] => none
  | .text text :: rest => some (.ok text, rest)
  | .expression p :: rest =>
    match first s resolver p with
    | .ok (text, parts) => some (.ok text, parts ++ rest)
    | .error e => some (.error e, [])

theorem weight_first_lt {s : Source} {resolver : Resolver} {p : Position} {text : Text}
    {parts : List Part} (h : first s resolver p = .ok (text, parts)) :
    Part.weight parts < p.tree.size := by
  fun_induction first s resolver p generalizing text parts with
  | case1 | case7 =>
    cases h
    exact Tree.size_pos _
  | case2 p head spans hp =>
    cases h
    rw [Part.weight_ofSpans]
    exact Expression.sizeAll_template_lt hp
  | case3 =>
    rename_i hleft _ hlt ih
    cases h
    have := ih hleft
    simp only [Part.weight_append, Part.weight]
    omega
  | case6 p inner hp hlt ih => exact Nat.lt_trans (ih h) hlt
  | case4 | case5 | case8 | case9 => cases h

/-- All fragments of what is to come, up to the first failure, and that failure. -/
def collect (s : Source) (resolver : Resolver) : List Part → List Text × Option FragmentError
  | [] => ([], none)
  | .text text :: rest =>
    let (texts, failure) := collect s resolver rest
    (text :: texts, failure)
  | .expression p :: rest =>
    match h : first s resolver p with
    | .ok (text, parts) =>
      have := weight_first_lt h
      let (texts, failure) := collect s resolver (parts ++ rest)
      (text :: texts, failure)
    | .error e => ([], some e)
termination_by parts => (Part.weight parts, parts.length)
decreasing_by
  · simp only [Part.weight, List.length_cons]
    exact Prod.Lex.right _ (Nat.lt_succ_self _)
  · refine Prod.Lex.left _ _ ?_
    simp only [Part.weight_append, Part.weight]
    omega

def ofPosition (s : Source) (resolver : Resolver) (p : Position) : List Text × Option FragmentError :=
  collect s resolver [.expression p]

end Fragment

end LiteralFolding
