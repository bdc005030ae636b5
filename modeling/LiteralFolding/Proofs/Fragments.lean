-- The laws of fragments, one for each form of expression: the fragments of a whole are those
-- of its parts in order, and a failure of a part ends them.
import LiteralFolding.Fragment
import LiteralFolding.Proofs.Positions

namespace LiteralFolding

/-! ## Literals -/

theorem Source.isLiteralLike_of_literalText? {s : Source} {t : Tree} {u : Text}
    (h : s.literalText? t = some u) : t.isLiteralLike := by
  rw [literalText?] at h
  split at h
  · assumption
  · cases h

theorem Expression.ofPosition_of_literalText? {s : Source} {p : Position} {u : Text}
    (h : s.literalText? p.tree = some u) : ofPosition s p = .literal u := by
  rw [ofPosition, h]

/-- A template is a literal when nothing is substituted in it. -/
theorem Expression.isLiteralLike_template {p : Position} (hkind : p.kind = .templateString) :
    p.tree.isLiteralLike = (substitutions p).isEmpty := by
  have hkind' : p.tree.kind = .templateString := hkind
  rw [Tree.isLiteralLike, hkind', substitutions, ← Position.map_tree_namedChildren,
    Bool.eq_iff_iff, List.isEmpty_iff, List.filter_eq_nil_iff]
  simp only [List.any_map, Bool.not_eq_true', List.any_eq_false, Function.comp_apply]
  exact Iff.rfl

namespace Fragment

variable {s : Source} {resolver : Resolver} {p : Position}

/-! ## Runs after each other -/

/-- Two runs of fragments after each other. The second is not started when the first fails. -/
def andThen (a b : List Text × Option FragmentError) : List Text × Option FragmentError :=
  match a.2 with
  | some e => (a.1, some e)
  | none => (a.1 ++ b.1, b.2)

@[simp] theorem andThen_of_failure (texts : List Text) (e : FragmentError)
    (b : List Text × Option FragmentError) : andThen (texts, some e) b = (texts, some e) := rfl

@[simp] theorem andThen_of_success (texts : List Text) (b : List Text × Option FragmentError) :
    andThen (texts, none) b = (texts ++ b.1, b.2) := rfl

theorem andThen_assoc (a b c : List Text × Option FragmentError) :
    andThen (andThen a b) c = andThen a (andThen b c) := by
  obtain ⟨ta, _ | ea⟩ := a
  · obtain ⟨tb, _ | eb⟩ := b <;> simp
  · rfl

theorem collect_text_cons (text : Text) (rest : List Part) :
    collect s resolver (.text text :: rest) = andThen ([text], none) (collect s resolver rest) := by
  rw [collect]
  rfl

theorem collect_expression_cons_of_ok {text : Text} {parts : List Part}
    (h : first s resolver p = .ok (text, parts)) (rest : List Part) :
    collect s resolver (.expression p :: rest) =
      andThen ([text], none) (collect s resolver (parts ++ rest)) := by
  rw [collect]
  split
  · rename_i h'
    rw [h] at h'
    cases h'
    rfl
  · rename_i h'
    rw [h] at h'
    cases h'

theorem collect_expression_cons_of_error {e : FragmentError} (h : first s resolver p = .error e)
    (rest : List Part) : collect s resolver (.expression p :: rest) = ([], some e) := by
  rw [collect]
  split
  · rename_i h'
    rw [h] at h'
    cases h'
  · rename_i h'
    rw [h] at h'
    cases h'
    rfl

/-- What is to come can be taken in two goes. -/
theorem collect_append (xs ys : List Part) :
    collect s resolver (xs ++ ys) = andThen (collect s resolver xs) (collect s resolver ys) := by
  fun_induction collect s resolver xs with
  | case1 => simp
  | case2 text rest texts failure hrest ih =>
    rw [List.cons_append, collect_text_cons, ih, hrest]
    simp only [← andThen_assoc]
    rfl
  | case3 p rest text parts hfirst _ texts failure hrest ih =>
    rw [List.cons_append, collect_expression_cons_of_ok hfirst, ← List.append_assoc, ih, hrest,
      ← andThen_assoc]
    rfl
  | case4 p rest e hfirst =>
    rw [List.cons_append, collect_expression_cons_of_error hfirst]
    rfl

/-! ## The fragments of each form -/

theorem collect_expression_cons (rest : List Part) :
    collect s resolver (.expression p :: rest) =
      andThen (ofPosition s resolver p) (collect s resolver rest) :=
  collect_append [.expression p] rest

theorem ofPosition_of_first_ok {text : Text} {parts : List Part}
    (h : first s resolver p = .ok (text, parts)) :
    ofPosition s resolver p = andThen ([text], none) (collect s resolver parts) := by
  rw [ofPosition, collect_expression_cons_of_ok h, List.append_nil]

theorem ofPosition_of_first_error {e : FragmentError} (h : first s resolver p = .error e) :
    ofPosition s resolver p = ([], some e) :=
  collect_expression_cons_of_error h []

/-- An expression gives a fragment or fails, so there is always something to tell. -/
theorem ofPosition_ne_nothing : ofPosition s resolver p ≠ ([], none) := by
  intro h
  rcases hfirst : first s resolver p with e | ⟨text, parts⟩
  · rw [ofPosition_of_first_error hfirst] at h
    cases h
  · rw [ofPosition_of_first_ok hfirst] at h
    cases h

theorem ofPosition_literal {text : Text} (h : Expression.ofPosition s p = .literal text) :
    ofPosition s resolver p = ([text], none) := by
  have hfirst : first s resolver p = .ok (text, []) := by
    rw [first_eq, h]
  rw [ofPosition_of_first_ok hfirst, collect]
  rfl

theorem ofPosition_template {head : Text} {spans : List (Position × Text)}
    (h : Expression.ofPosition s p = .template head spans) :
    ofPosition s resolver p = andThen ([head], none) (collect s resolver (Part.ofSpans spans)) := by
  have hfirst : first s resolver p = .ok (head, Part.ofSpans spans) := by
    rw [first_eq, h]
  exact ofPosition_of_first_ok hfirst

theorem collect_ofSpans_cons (q : Position) (text : Text) (spans : List (Position × Text)) :
    collect s resolver (Part.ofSpans ((q, text) :: spans)) =
      andThen (ofPosition s resolver q)
        (andThen ([text], none) (collect s resolver (Part.ofSpans spans))) := by
  rw [← collect_text_cons, ← collect_expression_cons]
  rfl

theorem ofPosition_plus {left right : Position}
    (h : Expression.ofPosition s p = .concatenation left .plus right) :
    ofPosition s resolver p =
      andThen (ofPosition s resolver left) (ofPosition s resolver right) := by
  rcases hleft : first s resolver left with e | ⟨text, parts⟩
  · have hfirst : first s resolver p = .error e := by
      rw [first_eq, h]
      simp [hleft]
    rw [ofPosition_of_first_error hfirst, ofPosition_of_first_error hleft, andThen_of_failure]
  · have hfirst : first s resolver p = .ok (text, parts ++ [.expression right]) := by
      rw [first_eq, h]
      simp [hleft]
    rw [ofPosition_of_first_ok hfirst, ofPosition_of_first_ok hleft, collect_append, andThen_assoc]
    rfl

theorem ofPosition_other_operator {left right : Position} {operator : Kind}
    (h : Expression.ofPosition s p = .concatenation left operator right) (hop : operator ≠ .plus) :
    ofPosition s resolver p =
      ([], some (.unsupportedOperator operator (s.locationOf p.node))) := by
  have hfirst : first s resolver p =
      .error (.unsupportedOperator operator (s.locationOf p.node)) := by
    rw [first_eq, h]
    exact if_neg hop
  exact ofPosition_of_first_error hfirst

theorem ofPosition_parenthesized {inner : Position}
    (h : Expression.ofPosition s p = .parenthesized inner) :
    ofPosition s resolver p = ofPosition s resolver inner := by
  have hfirst : first s resolver p = first s resolver inner := by
    rw [first_eq, h]
  rcases hinner : first s resolver inner with e | ⟨text, parts⟩
  · rw [ofPosition_of_first_error hinner, ofPosition_of_first_error (hfirst.trans hinner)]
  · rw [ofPosition_of_first_ok hinner, ofPosition_of_first_ok (hfirst.trans hinner)]

theorem ofPosition_reference (h : Expression.ofPosition s p = .reference) :
    ofPosition s resolver p =
      match resolver s p with
      | some text => ([text], none)
      | none =>
        ([], some (.unresolvedReference (referencePath (s.textOf p.node))
          (s.locationOf p.node))) := by
  cases hr : resolver s p with
  | some text =>
    have hfirst : first s resolver p = .ok (text, []) := by
      rw [first_eq, h]
      simp [hr]
    rw [ofPosition_of_first_ok hfirst, collect]
    rfl
  | none =>
    have hfirst : first s resolver p =
        .error (.unresolvedReference (referencePath (s.textOf p.node)) (s.locationOf p.node)) := by
      rw [first_eq, h]
      simp [hr]
    exact ofPosition_of_first_error hfirst

theorem ofPosition_unsupported (h : Expression.ofPosition s p = .unsupported) :
    ofPosition s resolver p =
      ([], some (.unsupportedNode p.kind (s.textOf p.node) (s.locationOf p.node))) := by
  have hfirst : first s resolver p =
      .error (.unsupportedNode p.kind (s.textOf p.node) (s.locationOf p.node)) := by
    rw [first_eq, h]
  exact ofPosition_of_first_error hfirst

end Fragment

end LiteralFolding
