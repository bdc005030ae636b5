-- The fragments one call after another. A recursive reading of an expression gives its pieces,
-- failures among them; the calls give these pieces in order, up to the first failure and with it,
-- and nothing ever after.
import LiteralFolding.Proofs.Fragments

namespace LiteralFolding.Fragment

variable {s : Source} {resolver : Resolver} {p : Position}

/-! ## The recursive reading -/

/-- The pieces of an expression by its form. Nothing is cut off at a failure yet. -/
def pieces (s : Source) (resolver : Resolver) (p : Position) : List (Except FragmentError Text) :=
  match h : Expression.ofPosition s p with
  | .literal text => [.ok text]
  | .template head spans =>
    .ok head :: spans.attach.flatMap fun ⟨(q, text), hmem⟩ =>
      have : q.tree.size < p.tree.size :=
        Nat.lt_of_le_of_lt (Position.size_le_sizeAll (List.mem_map_of_mem hmem))
          (Expression.sizeAll_template_lt h)
      pieces s resolver q ++ [.ok text]
  | .concatenation left operator right =>
    if operator = .plus then
      have := Expression.size_concatenation_lt h
      pieces s resolver left ++ pieces s resolver right
    else [.error (.unsupportedOperator operator (s.locationOf p.node))]
  | .parenthesized inner =>
    have := Expression.size_parenthesized_lt h
    pieces s resolver inner
  | .reference =>
    match resolver s p with
    | some text => [.ok text]
    | none =>
      [.error (.unresolvedReference (referencePath (s.textOf p.node)) (s.locationOf p.node))]
  | .unsupported => [.error (.unsupportedNode p.kind (s.textOf p.node) (s.locationOf p.node))]
termination_by p.tree.size
decreasing_by all_goals omega

/-- The pieces up to the first failure, and that failure. -/
def upToFailure : List (Except FragmentError Text) → List (Except FragmentError Text)
  | [] => []
  | .ok text :: rest => .ok text :: upToFailure rest
  | .error e :: _ => [.error e]

/-- The pieces of what is to come. -/
def piecesOf (s : Source) (resolver : Resolver) (parts : List Part) :
    List (Except FragmentError Text) :=
  parts.flatMap fun
    | .expression p => pieces s resolver p
    | .text text => [.ok text]

@[simp] theorem piecesOf_nil : piecesOf s resolver [] = [] := rfl

@[simp] theorem piecesOf_text_cons (text : Text) (rest : List Part) :
    piecesOf s resolver (.text text :: rest) = .ok text :: piecesOf s resolver rest := rfl

@[simp] theorem piecesOf_expression_cons (p : Position) (rest : List Part) :
    piecesOf s resolver (.expression p :: rest) =
      pieces s resolver p ++ piecesOf s resolver rest := rfl

@[simp] theorem piecesOf_append (a b : List Part) :
    piecesOf s resolver (a ++ b) = piecesOf s resolver a ++ piecesOf s resolver b :=
  List.flatMap_append

theorem piecesOf_ofSpans (spans : List (Position × Text)) :
    piecesOf s resolver (Part.ofSpans spans) =
      spans.flatMap fun (q, text) => pieces s resolver q ++ [.ok text] := by
  induction spans with
  | nil => rfl
  | cons span spans ih =>
    obtain ⟨q, text⟩ := span
    rw [List.flatMap_cons, ← ih]
    simp [Part.ofSpans, piecesOf]

/-! ## One call -/

/-- The pieces by the form of the expression. -/
theorem pieces_eq (s : Source) (resolver : Resolver) (p : Position) :
    pieces s resolver p =
      match Expression.ofPosition s p with
      | .literal text => [.ok text]
      | .template head spans => .ok head :: piecesOf s resolver (Part.ofSpans spans)
      | .concatenation left operator right =>
        if operator = .plus then pieces s resolver left ++ pieces s resolver right
        else [.error (.unsupportedOperator operator (s.locationOf p.node))]
      | .parenthesized inner => pieces s resolver inner
      | .reference =>
        match resolver s p with
        | some text => [.ok text]
        | none =>
          [.error (.unresolvedReference (referencePath (s.textOf p.node)) (s.locationOf p.node))]
      | .unsupported =>
        [.error (.unsupportedNode p.kind (s.textOf p.node) (s.locationOf p.node))] := by
  rw [pieces]
  split <;> rename_i h <;> simp only [h, piecesOf_ofSpans, List.flatMap_subtype,
    List.unattach_attach]

/-- The first fragment is the first piece, and the parts after it hold the other pieces. A
failure is the first piece too; what the pieces after it would be does not matter. -/
theorem pieces_of_first (s : Source) (resolver : Resolver) (p : Position) :
    match first s resolver p with
    | .ok (text, parts) => pieces s resolver p = .ok text :: piecesOf s resolver parts
    | .error e => ∃ rest, pieces s resolver p = .error e :: rest := by
  fun_induction first s resolver p with
  | case1 p text h => simp [pieces_eq, h]
  | case2 p head spans h => simp [pieces_eq, h]
  | case3 p left right text parts hleft h _ ih =>
    rw [hleft] at ih
    rw [pieces_eq, h]
    simp only [if_true] at ih ⊢
    rw [ih]
    simp
  | case4 p left right e hleft h _ ih =>
    rw [hleft] at ih
    obtain ⟨rest, hrest⟩ := ih
    rw [pieces_eq, h]
    simp [hrest]
  | case5 p left operator right h hop => simp [pieces_eq, h, hop]
  | case6 p inner h _ ih =>
    rw [pieces_eq, h]
    exact ih
  | case7 p h text hr => simp [pieces_eq, h, hr]
  | case8 p h hr => simp [pieces_eq, h, hr]
  | case9 p h => simp [pieces_eq, h]

theorem pieces_of_next (s : Source) (resolver : Resolver) (parts : List Part) :
    match next s resolver parts with
    | none => piecesOf s resolver parts = []
    | some (.ok text, rest) =>
      piecesOf s resolver parts = .ok text :: piecesOf s resolver rest
    | some (.error e, rest) =>
      rest = [] ∧ ∃ tail, piecesOf s resolver parts = .error e :: tail := by
  cases parts with
  | nil => rfl
  | cons part rest =>
    cases part with
    | text text => rfl
    | expression p =>
      have hfirst := pieces_of_first s resolver p
      unfold next
      split at hfirst <;> rename_i heq
      · simp [heq, hfirst]
      · obtain ⟨tail, htail⟩ := hfirst
        simp [heq, htail]

/-! ## Call after call -/

/-- What is still to come after a call. -/
def afterCall (s : Source) (resolver : Resolver) (parts : List Part) : List Part :=
  match next s resolver parts with
  | some (_, rest) => rest
  | none => parts

/-- The answer to call number `i`, from zero, when `parts` are to come at the start. -/
def answer (s : Source) (resolver : Resolver) : Nat → List Part → Option (Except FragmentError Text)
  | 0, parts => (next s resolver parts).map (·.1)
  | i + 1, parts => answer s resolver i (afterCall s resolver parts)

theorem answer_nil (i : Nat) : answer s resolver i [] = none := by
  induction i with
  | zero => rfl
  | succ i ih => exact ih

/-- Every call gives the piece that is due, up to the first failure. -/
theorem answer_eq (i : Nat) (parts : List Part) :
    answer s resolver i parts = (upToFailure (piecesOf s resolver parts))[i]? := by
  induction i generalizing parts with
  | zero =>
    have hnext := pieces_of_next s resolver parts
    unfold answer
    split at hnext <;> rename_i heq
    · simp [heq, hnext, upToFailure]
    · simp [heq, hnext, upToFailure]
    · obtain ⟨_, tail, htail⟩ := hnext
      simp [heq, htail, upToFailure]
  | succ i ih =>
    have hnext := pieces_of_next s resolver parts
    unfold answer afterCall
    split at hnext <;> rename_i heq
    · simp [heq, ih, hnext, upToFailure]
    · simp [heq, ih, hnext, upToFailure]
    · -- a failure leaves nothing to come, so all further calls come back empty
      obtain ⟨rfl, tail, htail⟩ := hnext
      simp [heq, htail, upToFailure, answer_nil]

/-! ## All fragments at once -/

/-- A run of fragments as the answers it gives. -/
def answersOf (run : List Text × Option FragmentError) : List (Except FragmentError Text) :=
  run.1.map .ok ++ run.2.toList.map .error

/-- Gathering what is to come gives the same answers as one call after another. -/
theorem answersOf_collect (parts : List Part) :
    answersOf (collect s resolver parts) = upToFailure (piecesOf s resolver parts) := by
  fun_induction collect s resolver parts with
  | case1 => rfl
  | case2 text rest texts failure hrest ih =>
    rw [hrest] at ih
    simp only [answersOf, piecesOf_text_cons, upToFailure, ← ih, List.map_cons, List.cons_append]
  | case3 p rest text parts hfirst _ texts failure hrest ih =>
    rw [hrest] at ih
    have hpieces := pieces_of_first s resolver p
    rw [hfirst] at hpieces
    simp only [piecesOf_expression_cons, hpieces, List.cons_append, upToFailure,
      ← piecesOf_append, ← ih]
    rfl
  | case4 p rest e hfirst =>
    have hpieces := pieces_of_first s resolver p
    rw [hfirst] at hpieces
    obtain ⟨tail, htail⟩ := hpieces
    simp [answersOf, htail, upToFailure]

/-- The calls on an expression give its recursive pieces in order, up to the first failure and
with it. They come to an end, and every call past the end comes back empty. Gathering the
fragments gives the same. -/
theorem calls_give_pieces_up_to_failure (s : Source) (resolver : Resolver) (p : Position) :
    (∀ i, answer s resolver i [.expression p] = (upToFailure (pieces s resolver p))[i]?) ∧
      answersOf (ofPosition s resolver p) = upToFailure (pieces s resolver p) := by
  have hone : piecesOf s resolver [.expression p] = pieces s resolver p := by simp
  constructor
  · intro i
    rw [answer_eq, hone]
  · rw [ofPosition, answersOf_collect, hone]

end LiteralFolding.Fragment
