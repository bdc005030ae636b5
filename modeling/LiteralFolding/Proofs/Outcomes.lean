-- The laws of a pass over one source. The recursive outcomes of a tree say what must become of
-- each property with the wanted name; the walk with its list of pending places gives them all,
-- each once and in the order of the text.
import LiteralFolding.Folding
import LiteralFolding.Proofs.Fragments
import LiteralFolding.Proofs.Positions

namespace LiteralFolding

/-! ## What must become of a property -/

/-- What becomes of a property, with the place of its value. -/
inductive Outcome where
  | folded (value : Position) (literal : Text)
  | skipped (value : Position) (reason : Skip)

namespace Outcome

/-- The place of the property's value. -/
def value : Outcome → Position
  | .folded value _ => value
  | .skipped value _ => value

/-- The replacement that writes a literal over a value. -/
def writing (s : Source) (value : Position) (literal : Text) : Replacement where
  span := value.node.span
  literal := literal
  location := s.locationOf value.node
  replaced := s.textOf value.node

/-- The replacement to record: none where the value is its own literal already. -/
def replacement? (s : Source) : Outcome → Option Replacement
  | .folded value literal =>
    if literal = s.textOf value.node then none else some (writing s value literal)
  | .skipped _ _ => none

/-- What is told of the property. -/
def occurrence (s : Source) : Outcome → Occurrence
  | .folded value literal =>
    if literal = s.textOf value.node then .unchanged else .replaced (writing s value literal)
  | .skipped value reason => .skipped { location := s.locationOf value.node, reason }

theorem isFolded_occurrence_folded (s : Source) (value : Position) (literal : Text) :
    ((Outcome.folded value literal).occurrence s).isFolded = true := by
  unfold occurrence
  dsimp only
  split <;> rfl

/-- Is the value folded and its own literal already? -/
def isUnchanged (s : Source) : Outcome → Bool
  | .folded value literal => literal = s.textOf value.node
  | .skipped _ _ => false

/-- The skip to record. -/
def skipped? (s : Source) : Outcome → Option Skipped
  | .folded _ _ => none
  | .skipped value reason => some { location := s.locationOf value.node, reason }

end Outcome

namespace FoldContext

/-- `value` is the value of a property with the wanted name at `p`. -/
def Occurs (cx : FoldContext) (p value : Position) : Prop :=
  p.kind = .pair ∧
    (∃ key, p.child? .key = some key ∧ key.kind = .propertyIdentifier ∧
      cx.source.textOf key.node = cx.options.property) ∧
    p.child? .value = some value

/-- A value passes: folding may start at its kind, nothing at it or the two nodes above it is
broken, all its fragments are there, and the transform makes `text` of them. -/
def Passes (cx : FoldContext) (value : Position) (text : Text) : Prop :=
  value.kind.isEntry = true ∧
    (∀ n ∈ (value.node :: value.above).take 3, n.broken = false) ∧
    ∃ texts, Fragment.ofPosition cx.source cx.resolver value = (texts, none) ∧
      cx.transform texts.flatten = .done text

/-- The text of a value that passes, or the first step that fails it. -/
def verdict (cx : FoldContext) (value : Position) : Except Skip Text :=
  if !value.kind.isEntry then .error (.notEntry value.kind)
  else if (value.node :: value.above).take 3 |>.any (·.broken) then .error .syntaxError
  else
    match Fragment.ofPosition cx.source cx.resolver value with
    | (_, some e) => .error (.traversal e)
    | (texts, none) =>
      match Transform.run cx.transform texts.flatten with
      | .ok text => .ok text
      | .error e => .error (.transform e)

/-- The outcomes at a place and below it. Nothing below a folded property is looked at. -/
def outcomesAt (cx : FoldContext) (p : Position) : List Outcome :=
  match cx.value? p with
  | none => p.namedChildren.attach.flatMap fun ⟨q, _⟩ => cx.outcomesAt q
  | some value =>
    match cx.verdict value with
    | .ok text => [.folded value (Literal.encode cx.options.quote text)]
    | .error reason =>
      .skipped value reason :: p.namedChildren.attach.flatMap fun ⟨q, _⟩ => cx.outcomesAt q
termination_by p.tree.size
decreasing_by
  all_goals exact Position.size_lt_of_mem_children (Position.mem_children_of_mem_namedChildren ‹_›)

/-- The outcomes of the whole source. -/
def outcomes (cx : FoldContext) : List Outcome := cx.outcomesAt (Position.top cx.source.tree)

variable {cx : FoldContext} {p value : Position}

/-! ## One property -/

theorem value?_eq_some_iff : cx.value? p = some value ↔ cx.Occurs p value := by
  unfold value? Occurs
  by_cases hkind : p.kind = .pair
  · rw [if_pos hkind]
    cases hkey : p.child? .key with
    | none => simp
    | some key =>
      by_cases hname :
          key.kind = .propertyIdentifier ∧ cx.source.textOf key.node = cx.options.property
      · simp [hkind, hname]
      · simp only [if_neg hname, reduceCtorEq, false_iff, not_and]
        rintro - ⟨_, heq, hname'⟩
        cases heq
        exact absurd hname' hname
  · simp [hkind]

theorem transform_run_eq_ok_iff {f : Transform} {t text : Text} :
    Transform.run f t = .ok text ↔ f t = .done text := by
  unfold Transform.run
  cases f t <;> simp

/-- A literal where folding may start passes when the transform takes its text. -/
theorem passes_of_literalText? {text out : Text} (hentry : value.kind.isEntry = true)
    (hsound : ∀ n ∈ (value.node :: value.above).take 3, n.broken = false)
    (hliteral : cx.source.literalText? value.tree = some text)
    (hdone : cx.transform text = .done out) : cx.Passes value out := by
  refine ⟨hentry, hsound, [text], ?_, by simpa using hdone⟩
  exact Fragment.ofPosition_literal (Expression.ofPosition_of_literalText? hliteral)

theorem verdict_eq_ok_iff {text : Text} : cx.verdict value = .ok text ↔ cx.Passes value text := by
  unfold verdict Passes
  by_cases hentry : value.kind.isEntry = true
  · by_cases hbroken : ((value.node :: value.above).take 3).any (·.broken) = true
    · have hnot : ¬ ∀ n ∈ (value.node :: value.above).take 3, n.broken = false := by
        intro h
        obtain ⟨n, hn, hb⟩ := List.any_eq_true.mp hbroken
        simp [h n hn] at hb
      simp only [hentry, hbroken, hnot, Bool.not_true, Bool.false_eq_true, if_true, if_false,
        reduceCtorEq, false_and, and_false]
    · have hall : ∀ n ∈ (value.node :: value.above).take 3, n.broken = false := by
        simpa only [List.any_eq_true, not_exists, not_and, Bool.not_eq_true] using hbroken
      simp only [hentry, Bool.not_true, Bool.false_eq_true, if_false, if_neg hbroken, true_and]
      rw [and_iff_right hall]
      rcases hf : Fragment.ofPosition cx.source cx.resolver value with ⟨texts, _ | e⟩
      · have hrun : Transform.run cx.transform texts.flatten = .ok text ↔
            cx.transform texts.flatten = .done text := transform_run_eq_ok_iff
        rcases hr : Transform.run cx.transform texts.flatten with e | t
        · rw [hr] at hrun
          simpa [hr] using hrun
        · rw [hr] at hrun
          simpa [hr] using hrun
      · simp
  · simp [hentry]

/-- The verdict is what a candidate's two steps decide: gathering fragments that are there is
never an empty success. -/
theorem verdict_eq (cx : FoldContext) (value : Position) :
    cx.verdict value =
      match Candidate.evaluate cx.source cx.resolver value with
      | .error reason => .error reason
      | .ok text =>
        match Transform.run cx.transform text with
        | .ok text => .ok text
        | .error e => .error (.transform e) := by
  unfold verdict Candidate.evaluate Candidate.nearSyntaxError
  by_cases hentry : (!value.kind.isEntry) = true
  · rw [if_pos hentry, if_pos hentry]
  · rw [if_neg hentry, if_neg hentry]
    by_cases hbroken : ((value.node :: value.above).take 3).any (·.broken) = true
    · rw [if_pos hbroken, if_pos hbroken]
    · rw [if_neg hbroken, if_neg hbroken]
      rcases hf : Fragment.ofPosition cx.source cx.resolver value with ⟨_ | ⟨t, ts⟩, _ | e⟩
      · exact absurd hf Fragment.ofPosition_ne_nothing
      all_goals rfl

theorem candidate_eq_of_ok {text : Text} (h : cx.verdict value = .ok text) :
    cx.candidate value = { position := value, progress := .transformed (some text) } := by
  rw [verdict_eq] at h
  unfold candidate Candidate.visit
  dsimp only
  rcases he : Candidate.evaluate cx.source cx.resolver value with reason | visited
  · rw [he] at h
    cases h
  · rw [he] at h
    rcases hr : Transform.run cx.transform visited with e | text'
    · simp [hr] at h
    · simp only [hr, Except.ok.injEq] at h
      subst h
      simp [Candidate.transform, Candidate.proceed, hr]

/-- A candidate that gives no literal has a reason, so no property is lost. -/
theorem candidate_eq_of_error {reason : Skip} (h : cx.verdict value = .error reason) :
    cx.candidate value =
      { position := value, progress := .transformed none, skip := some reason } := by
  rw [verdict_eq] at h
  unfold candidate Candidate.visit
  dsimp only
  rcases he : Candidate.evaluate cx.source cx.resolver value with reason' | visited
  · rw [he] at h
    cases h
    rfl
  · rw [he] at h
    rcases hr : Transform.run cx.transform visited with e | text
    · simp only [hr, Except.error.injEq] at h
      subst h
      simp [Candidate.transform, Candidate.proceed, hr]
    · simp [hr] at h

/-! ## The walk -/

/-- The outcomes below a place. -/
theorem outcomesAt_eq (cx : FoldContext) (p : Position) :
    cx.outcomesAt p =
      match cx.value? p with
      | none => p.namedChildren.flatMap cx.outcomesAt
      | some value =>
        match cx.verdict value with
        | .ok text => [.folded value (Literal.encode cx.options.quote text)]
        | .error reason => .skipped value reason :: p.namedChildren.flatMap cx.outcomesAt := by
  rw [outcomesAt]
  simp only [List.flatMap_subtype, List.unattach_attach]

theorem outcomesAt_of_none (h : cx.value? p = none) :
    cx.outcomesAt p = p.namedChildren.flatMap cx.outcomesAt := by
  rw [outcomesAt_eq, h]

theorem outcomesAt_of_ok {text : Text} (h : cx.value? p = some value)
    (hv : cx.verdict value = .ok text) :
    cx.outcomesAt p = [.folded value (Literal.encode cx.options.quote text)] := by
  rw [outcomesAt_eq, h]
  dsimp only
  rw [hv]

theorem outcomesAt_of_error {reason : Skip} (h : cx.value? p = some value)
    (hv : cx.verdict value = .error reason) :
    cx.outcomesAt p = .skipped value reason :: p.namedChildren.flatMap cx.outcomesAt := by
  rw [outcomesAt_eq, h]
  dsimp only
  rw [hv]

theorem occurrence?_of_ok {text : Text} (h : cx.verdict value = .ok text) :
    cx.occurrence? value =
      some ((Outcome.folded value (Literal.encode cx.options.quote text)).occurrence
        cx.source) := by
  unfold occurrence?
  rw [candidate_eq_of_ok h]
  simp only [Candidate.literal?, Outcome.occurrence]
  split <;> rfl

theorem occurrence?_of_error {reason : Skip} (h : cx.verdict value = .error reason) :
    cx.occurrence? value = some ((Outcome.skipped value reason).occurrence cx.source) := by
  unfold occurrence?
  rw [candidate_eq_of_error h]
  rfl

theorem walk_cons_of_none (h : cx.value? p = none) (rest : List Position) :
    cx.walk (p :: rest) = cx.walk (p.namedChildren ++ rest) := by
  rw [walk, h]
  rfl

theorem walk_cons_of_ok {text : Text} (h : cx.value? p = some value)
    (hv : cx.verdict value = .ok text) (rest : List Position) :
    cx.walk (p :: rest) =
      (Outcome.folded value (Literal.encode cx.options.quote text)).occurrence cx.source ::
        cx.walk rest := by
  rw [walk, h, Option.bind_some, occurrence?_of_ok hv]
  dsimp only
  rw [if_pos (Outcome.isFolded_occurrence_folded ..)]

theorem walk_cons_of_error {reason : Skip} (h : cx.value? p = some value)
    (hv : cx.verdict value = .error reason) (rest : List Position) :
    cx.walk (p :: rest) =
      (Outcome.skipped value reason).occurrence cx.source :: cx.walk (p.namedChildren ++ rest) := by
  rw [walk, h, Option.bind_some, occurrence?_of_error hv]
  rfl

/-- The walk tells the outcomes at its pending places, one place after the other. -/
theorem walk_eq (cx : FoldContext) (pending : List Position) :
    cx.walk pending = (pending.flatMap cx.outcomesAt).map (·.occurrence cx.source) := by
  -- every step takes one node off the places still to visit
  induction hn : Position.sizeAll pending using Nat.strongRecOn generalizing pending with
  | _ n ih =>
    cases pending with
    | nil =>
      rw [walk]
      rfl
    | cons p rest =>
      have hpos := p.tree.size_pos
      have hlt := Position.sizeAll_namedChildren_lt p
      simp only [Position.sizeAll_cons] at hn
      have hbelow := ih _ (by rw [Position.sizeAll_append]; omega) (p.namedChildren ++ rest) rfl
      rw [List.flatMap_append] at hbelow
      cases h : cx.value? p with
      | none =>
        rw [walk_cons_of_none h, hbelow, List.flatMap_cons, outcomesAt_of_none h]
      | some value =>
        cases hv : cx.verdict value with
        | ok text =>
          rw [walk_cons_of_ok h hv, ih _ (by omega) rest rfl, List.flatMap_cons,
            outcomesAt_of_ok h hv]
          rfl
        | error reason =>
          rw [walk_cons_of_error h hv, hbelow, List.flatMap_cons, outcomesAt_of_error h hv]
          rfl

theorem occurrences_eq (cx : FoldContext) :
    cx.occurrences = cx.outcomes.map (·.occurrence cx.source) := by
  rw [occurrences, walk_eq, List.flatMap_singleton]
  rfl

theorem fold_replacements (cx : FoldContext) :
    cx.fold.replacements = cx.outcomes.filterMap (·.replacement? cx.source) := by
  simp only [fold, occurrences_eq, List.filterMap_map]
  congr 1
  funext o
  cases o with
  | folded value literal =>
    by_cases h : literal = cx.source.textOf value.node <;>
      simp [Outcome.occurrence, Outcome.replacement?, h]
  | skipped value reason => rfl

theorem fold_skipped (cx : FoldContext) :
    cx.fold.skipped = cx.outcomes.filterMap (·.skipped? cx.source) := by
  simp only [fold, occurrences_eq, List.filterMap_map]
  congr 1
  funext o
  cases o with
  | folded value literal =>
    by_cases h : literal = cx.source.textOf value.node <;>
      simp [Outcome.occurrence, Outcome.skipped?, h]
  | skipped value reason => rfl

theorem fold_unchanged (cx : FoldContext) :
    cx.fold.unchanged = cx.outcomes.countP (·.isUnchanged cx.source) := by
  simp only [fold, occurrences_eq, List.countP_map]
  congr 1
  funext o
  cases o with
  | folded value literal =>
    by_cases h : literal = cx.source.textOf value.node <;>
      simp [Outcome.occurrence, Outcome.isUnchanged, h]
  | skipped value reason => rfl

/-! ## Each property once -/

/-- Nothing is looked at below a folded property, everything below any other place. -/
theorem mem_outcomesAt_iff {o : Outcome} :
    o ∈ cx.outcomesAt p ↔
      (∃ value text, cx.value? p = some value ∧ cx.verdict value = .ok text ∧
        o = .folded value (Literal.encode cx.options.quote text)) ∨
      (∃ value reason, cx.value? p = some value ∧ cx.verdict value = .error reason ∧
        o = .skipped value reason) ∨
      ((∀ value text, cx.value? p = some value → cx.verdict value ≠ .ok text) ∧
        ∃ q ∈ p.namedChildren, o ∈ cx.outcomesAt q) := by
  cases h : cx.value? p with
  | none => simp [outcomesAt_of_none h]
  | some value =>
    cases hv : cx.verdict value with
    | ok text =>
      have hfolded : ¬ ∀ v t, some value = some v → cx.verdict v ≠ .ok t :=
        fun hall => hall value text rfl hv
      simp only [outcomesAt_of_ok h hv, List.mem_singleton, hfolded, false_and, or_false]
      simp [hv]
    | error reason =>
      have hopen : ∀ v t, some value = some v → cx.verdict v ≠ .ok t := by
        rintro v t ⟨rfl⟩ hok
        rw [hv] at hok
        cases hok
      simp only [outcomesAt_of_error h hv, List.mem_cons, List.mem_flatMap, and_iff_right hopen]
      simp [hv]

/-- Every outcome is of a property that is reached. -/
theorem exists_reaches_of_mem_outcomesAt {o : Outcome} (h : o ∈ cx.outcomesAt p) :
    ∃ q, p.Reaches q ∧ cx.value? q = some o.value := by
  induction p using Position.induction_on_children with
  | step p ih =>
    rcases mem_outcomesAt_iff.mp h with ⟨value, text, hv, _, rfl⟩ | ⟨value, reason, hv, _, rfl⟩ |
      ⟨_, q, hq, ho⟩
    · exact ⟨p, .refl p, hv⟩
    · exact ⟨p, .refl p, hv⟩
    · obtain ⟨r, hr, hv⟩ := ih q (Position.mem_children_of_mem_namedChildren hq) ho
      exact ⟨r, .step hq hr, hv⟩

theorem mem_children_of_value? (h : cx.value? p = some value) : value ∈ p.children :=
  Position.mem_children_of_child? (value?_eq_some_iff.mp h).2.2

/-- The value of the outcome lies strictly below the place. -/
def Below (p : Position) (o : Outcome) : Prop := ∃ i r, o.value.route = i :: r ∧ p.route <:+ r

theorem Below.length_lt {o : Outcome} (h : Below p o) : p.route.length < o.value.route.length := by
  obtain ⟨i, r, hroute, hsuffix⟩ := h
  have := hsuffix.length_le
  rw [hroute, List.length_cons]
  omega

/-- The value of an outcome lies strictly below the place where the outcome was found. -/
theorem below_of_mem_outcomesAt {o : Outcome} (h : o ∈ cx.outcomesAt p) : Below p o := by
  obtain ⟨q, hq, hv⟩ := exists_reaches_of_mem_outcomesAt h
  obtain ⟨i, hi⟩ := Position.exists_route_of_mem_children (mem_children_of_value? hv)
  exact ⟨i, q.route, hi, hq.suffix⟩

theorem route_ne_of_siblings {a b : Position} {o o' : Outcome} (ha : a ∈ p.children)
    (hb : b ∈ p.children) (hab : a.route ≠ b.route) (ho : o ∈ cx.outcomesAt a)
    (ho' : o' ∈ cx.outcomesAt b) : o.value.route ≠ o'.value.route := by
  intro heq
  obtain ⟨i, r, hr, hs⟩ := below_of_mem_outcomesAt ho
  obtain ⟨i', r', hr', hs'⟩ := below_of_mem_outcomesAt ho'
  have hrr : r = r' := by
    rw [hr, hr'] at heq
    exact (List.cons.inj heq).2
  obtain ⟨j, hj⟩ := Position.exists_route_of_mem_children ha
  obtain ⟨j', hj'⟩ := Position.exists_route_of_mem_children hb
  exact Position.route_ne_of_suffix (by rw [hj, hj']; rfl) hab hs (hrr ▸ hs')

/-- No property has two outcomes. -/
theorem outcomesAt_pairwise (cx : FoldContext) (p : Position) :
    (cx.outcomesAt p).Pairwise (·.value.route ≠ ·.value.route) := by
  induction p using Position.induction_on_children with
  | step p ih =>
    have hbelow : (p.namedChildren.flatMap cx.outcomesAt).Pairwise
        (·.value.route ≠ ·.value.route) := by
      rw [List.pairwise_flatMap]
      refine ⟨fun q hq => ih q (Position.mem_children_of_mem_namedChildren hq), ?_⟩
      refine List.Pairwise.imp_of_mem ?_ (p.children_pairwise.filter _)
      intro a b ha hb hab o ho o' ho'
      exact route_ne_of_siblings (Position.mem_children_of_mem_namedChildren ha)
        (Position.mem_children_of_mem_namedChildren hb) hab ho ho'
    cases h : cx.value? p with
    | none => rwa [outcomesAt_of_none h]
    | some value =>
      cases hv : cx.verdict value with
      | ok text =>
        rw [outcomesAt_of_ok h hv]
        exact List.pairwise_singleton _ _
      | error reason =>
        rw [outcomesAt_of_error h hv, List.pairwise_cons]
        refine ⟨?_, hbelow⟩
        intro o ho heq
        -- the value is right below `p`, the values of the other outcomes are deeper
        obtain ⟨q, hq, ho⟩ := List.mem_flatMap.mp ho
        have hq := Position.length_route_of_mem_children
          (Position.mem_children_of_mem_namedChildren hq)
        have hvalue := Position.length_route_of_mem_children (mem_children_of_value? h)
        have hdeep := (below_of_mem_outcomesAt ho).length_lt
        rw [← heq] at hdeep
        simp only [Outcome.value] at hdeep
        omega

/-- Every property that is reached has its outcome, unless a property around it was folded. -/
theorem exists_outcome_of_reaches {q : Position} (h : p.Reaches q) (hv : cx.value? q = some value) :
    (∃ o ∈ cx.outcomesAt p, o.value = value) ∨
      ∃ r outer literal, .folded outer literal ∈ cx.outcomesAt p ∧ cx.value? r = some outer ∧
        r.Reaches q ∧ r.route ≠ q.route := by
  induction h with
  | refl p =>
    left
    cases hd : cx.verdict value with
    | ok text => exact ⟨_, mem_outcomesAt_iff.mpr (.inl ⟨value, text, hv, hd, rfl⟩), rfl⟩
    | error reason =>
      exact ⟨_, mem_outcomesAt_iff.mpr (.inr (.inl ⟨value, reason, hv, hd, rfl⟩)), rfl⟩
  | @step p q' q hmem hreach ih =>
    by_cases hfold : ∃ outer text, cx.value? p = some outer ∧ cx.verdict outer = .ok text
    · obtain ⟨outer, text, ho, hd⟩ := hfold
      right
      refine ⟨p, outer, _, mem_outcomesAt_iff.mpr (.inl ⟨outer, text, ho, hd, rfl⟩), ho,
        .step hmem hreach, ?_⟩
      intro heq
      have hlen := Position.length_route_of_mem_children
        (Position.mem_children_of_mem_namedChildren hmem)
      have hle := hreach.suffix.length_le
      rw [← heq] at hle
      omega
    · have hopen : ∀ outer text, cx.value? p = some outer → cx.verdict outer ≠ .ok text :=
        fun outer text ho hd => hfold ⟨outer, text, ho, hd⟩
      have hup : ∀ o ∈ cx.outcomesAt q', o ∈ cx.outcomesAt p := fun o ho =>
        mem_outcomesAt_iff.mpr (.inr (.inr ⟨hopen, q', hmem, ho⟩))
      rcases ih hv with ⟨o, ho, hvalue⟩ | ⟨r, outer, literal, ho, hrest⟩
      · exact .inl ⟨o, hup o ho, hvalue⟩
      · exact .inr ⟨r, outer, literal, hup _ ho, hrest⟩

/-! ## The law of a pass -/

/-- An outcome is as it must be: a folded value passes and its literal is that of its text, and
a skipped one does not pass. -/
def Right (cx : FoldContext) : Outcome → Prop
  | .folded value literal =>
    ∃ text, cx.Passes value text ∧ literal = Literal.encode cx.options.quote text
  | .skipped value reason => cx.verdict value = .error reason ∧ ∀ text, ¬ cx.Passes value text

theorem right_of_mem_outcomesAt {o : Outcome} (h : o ∈ cx.outcomesAt p) : cx.Right o := by
  induction p using Position.induction_on_children with
  | step p ih =>
    rcases mem_outcomesAt_iff.mp h with ⟨value, text, _, hd, rfl⟩ | ⟨value, reason, _, hd, rfl⟩ |
      ⟨_, q, hq, ho⟩
    · exact ⟨text, verdict_eq_ok_iff.mp hd, rfl⟩
    · refine ⟨hd, fun text hpass => ?_⟩
      rw [verdict_eq_ok_iff.mpr hpass] at hd
      cases hd
    · exact ih q (Position.mem_children_of_mem_namedChildren hq) ho

theorem length_outcomes (s : Source) (os : List Outcome) :
    (os.filterMap (Outcome.replacement? s)).length + (os.filterMap (Outcome.skipped? s)).length +
      os.countP (Outcome.isUnchanged s) = os.length := by
  induction os with
  | nil => rfl
  | cons o os ih =>
    rw [List.length_cons, ← ih]
    cases o with
    | folded value literal =>
      have hskipped : (Outcome.folded value literal).skipped? s = none := rfl
      by_cases h : literal = s.textOf value.node
      · have hsame : (Outcome.folded value literal).replacement? s = none := if_pos h
        have hcount : (Outcome.folded value literal).isUnchanged s = true := decide_eq_true h
        rw [List.filterMap_cons_none hsame, List.filterMap_cons_none hskipped,
          List.countP_cons_of_pos hcount]
        omega
      · have hnew : (Outcome.folded value literal).replacement? s =
            some (Outcome.writing s value literal) := if_neg h
        have hcount : ¬ (Outcome.folded value literal).isUnchanged s = true := by
          simpa [Outcome.isUnchanged] using h
        rw [List.filterMap_cons_some hnew, List.filterMap_cons_none hskipped,
          List.countP_cons_of_neg hcount, List.length_cons]
        omega
    | skipped value reason =>
      have hnone : (Outcome.skipped value reason).replacement? s = none := rfl
      have hsome : (Outcome.skipped value reason).skipped? s =
          some { location := s.locationOf value.node, reason } := rfl
      rw [List.filterMap_cons_none hnone, List.filterMap_cons_some hsome,
        List.countP_cons_of_neg Bool.false_ne_true, List.length_cons]
      omega

/-- A pass records exactly the recursive outcomes, in the order of the text: the replacements
and the count of unchanged values are those of the folded ones, the skips those of the others.
Each outcome is right and belongs to a property with the wanted name, no property has two, and
each has one unless a property around it was folded. -/
theorem fold_accounts_for_every_property (cx : FoldContext) :
    cx.fold.replacements = cx.outcomes.filterMap (·.replacement? cx.source) ∧
    cx.fold.unchanged = cx.outcomes.countP (·.isUnchanged cx.source) ∧
    cx.fold.skipped = cx.outcomes.filterMap (·.skipped? cx.source) ∧
    cx.fold.occurrences = cx.outcomes.length ∧
    (∀ o ∈ cx.outcomes, cx.Right o ∧
      ∃ p, (Position.top cx.source.tree).Reaches p ∧ cx.Occurs p o.value) ∧
    cx.outcomes.Pairwise (·.value.route ≠ ·.value.route) ∧
    (∀ p value, (Position.top cx.source.tree).Reaches p → cx.Occurs p value →
      (∃ o ∈ cx.outcomes, o.value = value) ∨
        ∃ outer value' literal, .folded value' literal ∈ cx.outcomes ∧ cx.Occurs outer value' ∧
          outer.Reaches p ∧ outer.route ≠ p.route) := by
  refine ⟨fold_replacements cx, fold_unchanged cx, fold_skipped cx, ?_, ?_,
    outcomesAt_pairwise cx _, ?_⟩
  · rw [FoldedSource.occurrences, fold_replacements, fold_skipped, fold_unchanged]
    exact length_outcomes cx.source cx.outcomes
  · intro o ho
    obtain ⟨p, hp, hv⟩ := exists_reaches_of_mem_outcomesAt ho
    exact ⟨right_of_mem_outcomesAt ho, p, hp, value?_eq_some_iff.mp hv⟩
  · intro p value hp hv
    rcases exists_outcome_of_reaches hp (value?_eq_some_iff.mpr hv) with h |
      ⟨outer, value', literal, ho, hv', hreach, hne⟩
    · exact .inl h
    · exact .inr ⟨outer, value', literal, ho, value?_eq_some_iff.mp hv', hreach, hne⟩

end FoldContext

end LiteralFolding
