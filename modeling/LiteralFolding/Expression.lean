-- Expressions as folding sees them: literals, templates, concatenations, parentheses,
-- references, and all the rest.
import LiteralFolding.Source
import LiteralFolding.Literal.Escape
import LiteralFolding.Literal.Numeric

namespace LiteralFolding

/-- May folding start at an expression of this kind? -/
def Kind.isEntry : Kind → Bool
  | .string | .templateString | .binaryExpression => true
  | _ => false

namespace Tree

/-- Does the tree itself carry literal text? A template does when nothing is substituted. -/
def isLiteralLike (t : Tree) : Bool :=
  match t.kind with
  | .string | .number => true
  | .templateString => !t.namedChildren.any (·.kind = .templateSubstitution)
  | _ => false

end Tree

/-- A text without its first and last character. -/
def Literal.inside (t : Text) : Text := (t.drop 1).dropLast

namespace Source

/-- The text of a literal; none when the tree is no literal or stands for no text. -/
def literalText? (s : Source) (t : Tree) : Option Text :=
  if t.isLiteralLike then
    let raw := s.textOf t.node
    match t.kind with
    | .number => Literal.canonicalNumber? raw
    | .string => Literal.decode? (Literal.inside raw)
    | _ => Literal.decodeSegment? (Literal.inside raw)
  else none

end Source

/-- What an expression is for folding, one level deep. -/
inductive Expression where
  | literal (text : Text)
  /-- A template: its first segment, then each substituted expression with the segment
  after it. -/
  | template (head : Text) (spans : List (Position × Text))
  | concatenation (left : Position) (operator : Kind) (right : Position)
  | parenthesized (inner : Position)
  | reference
  | unsupported

namespace Expression

def substitutions (p : Position) : List Position :=
  p.namedChildren.filter (·.kind = .templateSubstitution)

/-- The expression that a substitution holds, or the substitution itself if it holds none. -/
def substituted (p : Position) : Position := p.firstExpression?.getD p

/-- The decoded segment of a template between two bytes. -/
def segment? (s : Source) (start stop : Nat) : Option Text :=
  Literal.decodeSegment? ((Text.slice s.text start stop).getD [])

/-- The segments from byte `cursor` to byte `stop`, split at the substitutions. -/
def segments? (s : Source) (cursor stop : Nat) :
    List Position → Option (Text × List (Position × Text))
  | [] => (segment? s cursor stop).map (·, [])
  | p :: rest =>
    match segment? s cursor p.node.span.start, segments? s p.node.span.stop stop rest with
    | some head, some (next, spans) => some (head, (substituted p, next) :: spans)
    | _, _ => none

/-- A template split into its segments and expressions, inside its backticks. -/
def ofTemplate (s : Source) (p : Position) : Expression :=
  let start := p.node.span.start + 1
  match segments? s start (max (p.node.span.stop - 1) start) (substitutions p) with
  | some (head, spans) => .template head spans
  | none => .unsupported

def ofPosition (s : Source) (p : Position) : Expression :=
  match s.literalText? p.tree with
  | some text => .literal text
  | none =>
    match p.kind with
    | .templateString => ofTemplate s p
    | .binaryExpression =>
      match p.child? .left, p.child? .operator, p.child? .right with
      | some left, some operator, some right => .concatenation left operator.kind right
      | _, _, _ => .unsupported
    | .parenthesizedExpression =>
      match p.firstExpression? with
      | some inner => .parenthesized inner
      | none => .unsupported
    | .identifier | .memberExpression | .undefined => .reference
    | _ => .unsupported

/-! ## Parts are smaller than the whole -/

theorem mem_children_of_mem_substitutions {p q : Position} (h : q ∈ substitutions p) :
    q ∈ p.children :=
  Position.mem_children_of_mem_namedChildren (List.mem_filter.mp h).1

theorem size_concatenation_lt {s : Source} {p left right : Position} {operator : Kind}
    (h : ofPosition s p = .concatenation left operator right) :
    left.tree.size + right.tree.size < p.tree.size := by
  unfold ofPosition ofTemplate at h
  split at h
  · cases h
  · split at h
    · dsimp only at h
      split at h <;> cases h
    · split at h
      · rename_i l o r hl ho hr
        cases h
        have hle := Position.size_add_size_le
          (f := fun x => decide (x.node.field = some .left))
          (g := fun x => decide (x.node.field = some .right))
          (by intro x hx; simp at hx; simp [hx]) hl hr
        exact Nat.lt_of_le_of_lt hle (Position.sizeAll_children_lt p)
      · cases h
    · split at h <;> cases h
    all_goals cases h

theorem size_parenthesized_lt {s : Source} {p inner : Position}
    (h : ofPosition s p = .parenthesized inner) : inner.tree.size < p.tree.size := by
  unfold ofPosition ofTemplate at h
  split at h
  · cases h
  · split at h
    · dsimp only at h
      split at h <;> cases h
    · split at h <;> cases h
    · split at h
      · rename_i hinner
        cases h
        exact Position.size_lt_of_mem_children (Position.mem_children_of_firstExpression? hinner)
      · cases h
    all_goals cases h

theorem size_substituted_le (p : Position) : (substituted p).tree.size ≤ p.tree.size := by
  unfold substituted
  cases h : p.firstExpression? with
  | none => exact Nat.le_refl _
  | some q =>
    have hmem := Position.mem_children_of_firstExpression? h
    exact Nat.le_of_lt (Position.size_lt_of_mem_children hmem)

theorem sizeAll_segments_le {s : Source} {cursor stop : Nat} {ps : List Position} {head : Text}
    {spans : List (Position × Text)} (h : segments? s cursor stop ps = some (head, spans)) :
    Position.sizeAll (spans.map (·.1)) ≤ Position.sizeAll ps := by
  induction ps generalizing cursor head spans with
  | nil =>
    rw [segments?] at h
    obtain ⟨_, _, heq⟩ := Option.map_eq_some_iff.mp h
    obtain ⟨_, rfl⟩ := Prod.mk.inj heq
    simp
  | cons p ps ih =>
    rw [segments?] at h
    split at h
    · rename_i hrest
      obtain ⟨_, rfl⟩ := Prod.mk.inj (Option.some.inj h)
      have := ih hrest
      have := size_substituted_le p
      simp only [List.map_cons, Position.sizeAll_cons]
      omega
    · cases h

theorem sizeAll_template_lt {s : Source} {p : Position} {head : Text}
    {spans : List (Position × Text)} (h : ofPosition s p = .template head spans) :
    Position.sizeAll (spans.map (·.1)) < p.tree.size := by
  unfold ofPosition ofTemplate at h
  split at h
  · cases h
  · split at h
    · dsimp only at h
      split at h
      · rename_i hseg
        cases h
        calc Position.sizeAll (spans.map (·.1))
            ≤ Position.sizeAll (substitutions p) := sizeAll_segments_le hseg
          _ ≤ Position.sizeAll p.namedChildren := Position.sizeAll_le_of_sublist List.filter_sublist
          _ < p.tree.size := Position.sizeAll_namedChildren_lt p
      · cases h
    · split at h <;> cases h
    · split at h <;> cases h
    all_goals cases h

end Expression

end LiteralFolding
