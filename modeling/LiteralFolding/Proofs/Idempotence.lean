-- A second pass over the rewritten source finds nothing to do: every value that was folded is its
-- own literal now, and every value that was skipped is skipped again.
import LiteralFolding.Proofs.Rereading
import LiteralFolding.Proofs.RoundTrip

namespace LiteralFolding

/-- Two reasons of the same kind to skip a value. -/
def Skip.Alike : Skip → Skip → Prop
  | .notEntry kind, .notEntry kind' => kind' = kind
  | .traversal error, .traversal error' => error.Alike error'
  | .syntaxError, .syntaxError => True
  | .empty, .empty => True
  | .transform error, .transform error' => error' = error
  | _, _ => False

/-- The second outcome settles the first: a folded value is its own literal now, a skipped one is
skipped for the same kind of reason. -/
def Outcome.Settles (s : Source) : Outcome → Outcome → Prop
  | .folded _ _, .folded value literal => literal = s.textOf value.node
  | .skipped _ reason, .skipped _ reason' => reason.Alike reason'
  | _, _ => False

namespace FoldContext

variable {cx : FoldContext} {resolver : Resolver} {p p' value value' : Position}

/-- The second pass, over the rewritten source and with its own resolver. -/
def again (cx : FoldContext) (resolver : Resolver) : FoldContext :=
  { cx with source := cx.reparsed, resolver }

/-! ## One property -/

/-- The image of a property is a property with the image of its value. -/
theorem Image.value? (hparsed : cx.source.Parsed) (him : cx.Image p p')
    (hl : cx.literalAt p.route = none) :
    (cx.value? p = none ∧ (cx.again resolver).value? p' = none) ∨
      ∃ value value', cx.value? p = some value ∧ (cx.again resolver).value? p' = some value' ∧
        cx.Image value value' := by
  have hkind := him.kind_eq hl
  by_cases hpair : p.kind = .pair
  · rw [FoldContext.value?, FoldContext.value?, if_pos hpair, if_pos (hkind.trans hpair)]
    rcases him.child? hparsed hl .key with ⟨hkey, hkey'⟩ | ⟨key, key', hkey, hkey', hkeys⟩
    · rw [hkey, hkey']
      exact .inl ⟨rfl, rfl⟩
    · have hmem := Position.mem_children_of_child? hkey
      have hkeynone : cx.literalAt key.route = none := by
        cases hlit : cx.literalAt key.route with
        | none => rfl
        | some literal =>
          -- a child with a literal is held as the value, not as the key
          obtain ⟨_, hv, _⟩ := of_literalAt_child him.settled hmem hlit
          have hfield := List.find?_some (value?_eq_some_iff.mp hv).2.2
          have hfield' := List.find?_some hkey
          simp only [decide_eq_true_eq] at hfield hfield'
          cases hfield.symm.trans hfield'
      rw [hkey, hkey']
      dsimp only
      rw [hkeys.kind_eq hkeynone]
      by_cases hname : key.kind = .propertyIdentifier
      · have htext : (cx.again resolver).source.textOf key'.node = cx.source.textOf key.node :=
          hkeys.textOf_eq (edits_of_no_pair hkeys.settled hkeynone
            (hparsed.plain key hkeys.mem (by simp [hname])))
        rw [htext]
        by_cases hwanted : cx.source.textOf key.node = cx.options.property
        · rw [if_pos ⟨hname, hwanted⟩, if_pos ⟨hname, hwanted⟩]
          exact him.child? hparsed hl .value
        · rw [if_neg fun h => hwanted h.2, if_neg fun h => hwanted h.2]
          exact .inl ⟨rfl, rfl⟩
      · rw [if_neg fun h => hname h.1, if_neg fun h => hname h.1]
        exact .inl ⟨rfl, rfl⟩
  · rw [FoldContext.value?, FoldContext.value?, if_neg hpair, if_neg fun h => hpair (hkind ▸ h)]
    exact .inl ⟨rfl, rfl⟩

/-- The same text, or two reasons of the same kind for none. -/
inductive Agreeing : Except Skip Text → Except Skip Text → Prop
  | ok (text : Text) : Agreeing (.ok text) (.ok text)
  | error {reason reason' : Skip} : reason.Alike reason' → Agreeing (.error reason) (.error reason')

theorem any_broken_eq (n : Nat) (nodes : List Node) :
    (nodes.take n).any (·.broken) = ((nodes.map (·.broken)).take n).any id := by
  rw [← List.map_take, List.any_map]
  rfl

/-- A value that was not replaced has the same verdict again. -/
theorem Image.verdict_agreeing (hparsed : cx.source.Parsed) (hanswers : cx.Answers resolver)
    (him : cx.Image value value') (hl : cx.literalAt value.route = none) :
    Agreeing (cx.verdict value) ((cx.again resolver).verdict value') := by
  have hflags : (value'.node :: value'.above).map (·.broken) =
      (value.node :: value.above).map (·.broken) := by
    rw [List.map_cons, List.map_cons, him.flags, him.broken_eq hl]
  rw [verdict, verdict, him.kind_eq hl, any_broken_eq, any_broken_eq, hflags]
  by_cases hentry : (!value.kind.isEntry) = true
  · rw [if_pos hentry, if_pos hentry]
    exact .error rfl
  · rw [if_neg hentry, if_neg hentry, ← any_broken_eq]
    by_cases hbroken : ((value.node :: value.above).take 3).any (·.broken) = true
    · rw [if_pos hbroken, if_pos hbroken]
      exact .error trivial
    · rw [if_neg hbroken, if_neg hbroken]
      have hsound : value.node.broken = false := by
        simp only [List.take_succ_cons, List.any_cons, Bool.or_eq_true, not_or] at hbroken
        simpa using hbroken.1
      have halike : Fragment.Alike (Fragment.ofPosition cx.source cx.resolver value)
          (Fragment.ofPosition (cx.again resolver).source (cx.again resolver).resolver value') :=
        Kept.fragments_alike hparsed hanswers ⟨him, hl, hsound⟩
      generalize Fragment.ofPosition cx.source cx.resolver value = run at halike
      generalize Fragment.ofPosition (cx.again resolver).source _ value' = run' at halike
      cases halike with
      | failure he => exact .error he
      | success texts =>
        have htransform : (cx.again resolver).transform = cx.transform := rfl
        dsimp only
        rw [htransform]
        cases Transform.run cx.transform texts.flatten with
        | ok text => exact .ok text
        | error e => exact .error rfl

/-- A value that was replaced passes again, with the text that its literal stands for. -/
theorem Image.verdict_of_literalAt {text : Text} (him : cx.Image value value')
    (hidem : cx.transform text = .done text) (hok : cx.verdict value = .ok text)
    (hl : cx.literalAt value.route = some (Literal.encode cx.options.quote text)) :
    (cx.again resolver).verdict value' = .ok text := by
  obtain ⟨hkind, hbroken, htext⟩ := him.of_literalAt hl
  obtain ⟨_, hsound, _⟩ := verdict_eq_ok_iff.mp hok
  rw [verdict_eq_ok_iff]
  have hentry : value'.kind.isEntry = true := by rw [hkind]; rfl
  have hliteral : (cx.again resolver).source.literalText? value'.tree = some text := by
    have hkind' : value'.tree.kind = .string := hkind
    have hlike : value'.tree.isLiteralLike = true := by rw [Tree.isLiteralLike, hkind']
    have htext' : (cx.again resolver).source.textOf value'.tree.node =
        Literal.encode cx.options.quote text := htext
    rw [Source.literalText?, if_pos hlike, hkind', htext']
    dsimp only
    rw [Literal.inside_encode, Literal.decode?_encodeBody]
  have hexpr : Expression.ofPosition (cx.again resolver).source value' = .literal text := by
    rw [Expression.ofPosition, hliteral]
  have hdone : (cx.again resolver).transform [text].flatten = .done text := by
    rw [List.flatten_singleton]
    exact hidem
  refine ⟨hentry, ?_, [text], Fragment.ofPosition_literal hexpr, hdone⟩
  -- the value is a sound string now, and what is above it was sound before
  intro n hn
  rw [List.take_succ_cons, List.mem_cons] at hn
  rcases hn with rfl | hn
  · exact hbroken
  · have hmem : n.broken ∈ (value'.above.map (·.broken)).take 2 := by
      rw [← List.map_take]
      exact List.mem_map_of_mem hn
    rw [him.flags, ← List.map_take, List.mem_map] at hmem
    obtain ⟨m, hm, heq⟩ := hmem
    rw [← heq]
    exact hsound m (by rw [List.take_succ_cons]; exact List.mem_cons_of_mem _ hm)

/-! ## The whole pass -/

theorem Aligned.forall₂_flatMap {a a' b b' : Nat} {ps ps' : List Position}
    {R : Outcome → Outcome → Prop} {f g : Position → List Outcome}
    (h : cx.Aligned a a' b b' ps ps')
    (hfg : ∀ q ∈ ps, ∀ q', cx.Image q q' → List.Forall₂ R (f q) (g q')) :
    List.Forall₂ R (ps.flatMap f) (ps'.flatMap g) := by
  induction h with
  | nil => exact .nil
  | @cons a a' b b' p p' ps ps' gap _ _ him _ ih =>
    rw [List.flatMap_cons, List.flatMap_cons]
    refine List.rel_append (hfg p (List.mem_cons_self ..) p' him) (ih ?_)
    exact fun q hq => hfg q (List.mem_cons_of_mem _ hq)

/-- A folded property is folded again, to the literal that now is its value. -/
theorem Image.settles_of_folds (hparsed : cx.source.Parsed) (hanswers : cx.Answers resolver)
    (hidem : ∀ x y, cx.transform x = .done y → cx.transform y = .done y) (hseen : cx.Seen p)
    (him : cx.Image value value') {text : Text} (hv : cx.value? p = some value)
    (hok : cx.verdict value = .ok text) :
    (cx.again resolver).verdict value' = .ok text ∧
      Literal.encode cx.options.quote text = cx.reparsed.textOf value'.node := by
  have hlit := literalAt_value hseen hv hok
  split at hlit
  · -- the value was its own literal, and nothing in it has changed
    rename_i hsame
    have hunseen := hseen.unseen_of_folds ⟨value, text, hv, hok⟩ (mem_children_of_value? hv)
    have hedits : value.edits cx.literalAt = [] := by
      rw [Position.edits_of_none hlit]
      exact editsBelow_of_unseen hunseen
    have hagree := him.verdict_agreeing hparsed hanswers hlit
    rw [hok] at hagree
    generalize hd : (cx.again resolver).verdict value' = verdict at hagree
    cases hagree with
    | ok => exact ⟨rfl, hsame.trans (him.textOf_eq hedits).symm⟩
  · obtain ⟨_, _, texts, _, hdone⟩ := verdict_eq_ok_iff.mp hok
    exact ⟨him.verdict_of_literalAt (hidem _ _ hdone) hok hlit, (him.of_literalAt hlit).2.2.symm⟩

/-- The second pass settles every outcome of the first, in the same order. -/
theorem Image.outcomesAt_settle (hparsed : cx.source.Parsed) (hanswers : cx.Answers resolver)
    (hidem : ∀ x y, cx.transform x = .done y → cx.transform y = .done y) (hseen : cx.Seen p)
    (him : cx.Image p p') (hl : cx.literalAt p.route = none) :
    List.Forall₂ (Outcome.Settles cx.reparsed) (cx.outcomesAt p)
      ((cx.again resolver).outcomesAt p') := by
  induction p using Position.induction_on_children generalizing p' with
  | step p ih =>
    have hbelow (hfold : ¬ cx.Folds p) : List.Forall₂ (Outcome.Settles cx.reparsed)
        (p.namedChildren.flatMap cx.outcomesAt)
        (p'.namedChildren.flatMap (cx.again resolver).outcomesAt) := by
      refine (him.aligned_namedChildren hparsed hl hfold).forall₂_flatMap ?_
      intro q hq q' hqq'
      have hq' := Position.mem_children_of_mem_namedChildren hq
      exact ih q hq' (hseen.child hfold hq) hqq'
        (literalAt_of_not_folds him.settled hfold hq')
    rcases him.value? hparsed hl with ⟨hv, hv'⟩ | ⟨value, value', hv, hv', hvalue⟩
    · rw [outcomesAt_of_none hv, outcomesAt_of_none hv']
      exact hbelow fun ⟨_, _, hsome, _⟩ => by simp [hv] at hsome
    · cases hok : cx.verdict value with
      | ok text =>
        obtain ⟨hok', hsame⟩ := hvalue.settles_of_folds hparsed hanswers hidem hseen hv hok
        rw [outcomesAt_of_ok hv hok, outcomesAt_of_ok hv' hok']
        exact .cons hsame .nil
      | error reason =>
        have hfold : ¬ cx.Folds p := by
          rintro ⟨_, text, hv'', hok'⟩
          cases hv.symm.trans hv''
          cases hok.symm.trans hok'
        have hagree := hvalue.verdict_agreeing hparsed hanswers
          (literalAt_of_not_folds him.settled hfold (mem_children_of_value? hv))
        rw [hok] at hagree
        generalize hd : (cx.again resolver).verdict value' = verdict at hagree
        cases hagree with
        | error halike =>
          rw [outcomesAt_of_error hv hok, outcomesAt_of_error hv' hd]
          exact .cons halike (hbelow hfold)

theorem replacements_of_settles {s s' : Source} {os os' : List Outcome}
    (h : List.Forall₂ (Outcome.Settles s') os os') :
    os'.filterMap (Outcome.replacement? s') = [] ∧
      List.Forall₂ (fun a b => a.reason.Alike b.reason) (os.filterMap (Outcome.skipped? s))
        (os'.filterMap (Outcome.skipped? s')) := by
  induction h with
  | nil => exact ⟨rfl, .nil⟩
  | @cons o o' os os' ho _ ih =>
    cases o with
    | folded value literal =>
      cases o' with
      | folded value' literal' =>
        have hnone : (Outcome.folded value' literal').replacement? s' = none := if_pos ho
        rw [List.filterMap_cons_none hnone]
        exact ih
      | skipped => exact ho.elim
    | skipped value reason =>
      cases o' with
      | folded => exact ho.elim
      | skipped value' reason' => exact ⟨ih.1, .cons ho ih.2⟩

/-- Folding is done after one pass. When the rewritten source is parsed again, references are
resolved as before and the transform leaves its own results alone, then a second pass replaces
nothing and gives the text back, all that was replaced counts as unchanged, and what was skipped
is skipped again for the same kinds of reasons. -/
theorem fold_again_changes_nothing (hparsed : cx.source.Parsed) (hanswers : cx.Answers resolver)
    (hidem : ∀ x y, cx.transform x = .done y → cx.transform y = .done y) :
    (cx.again resolver).fold.replacements = [] ∧
      (cx.again resolver).fold.text = cx.reparsed.text ∧
      (cx.again resolver).fold.unchanged = cx.fold.unchanged + cx.fold.replacements.length ∧
      List.Forall₂ (fun a b => a.reason.Alike b.reason) cx.fold.skipped
        (cx.again resolver).fold.skipped := by
  have hsettle : List.Forall₂ (Outcome.Settles cx.reparsed) cx.outcomes
      (cx.again resolver).outcomes :=
    (image_top hparsed).outcomesAt_settle hparsed hanswers hidem (seen_top cx) (literalAt_top cx)
  obtain ⟨hnone, hskipped⟩ := replacements_of_settles (s := cx.source) hsettle
  have hnew : (cx.again resolver).fold.replacements = [] := by
    rw [fold_replacements]
    exact hnone
  have hskips : List.Forall₂ (fun a b => a.reason.Alike b.reason) cx.fold.skipped
      (cx.again resolver).fold.skipped := by
    rw [fold_skipped, fold_skipped]
    exact hskipped
  refine ⟨hnew, ?_, ?_, hskips⟩
  · have htext : (cx.again resolver).fold.text =
        Edit.splice cx.reparsed.text ((cx.again resolver).fold.replacements.map (·.toEdit)) := rfl
    rw [htext, hnew]
    exact (Spliced.nil (Text.slice_all cx.reparsed.text)).splice_eq
  · -- both passes count the same properties, and the replaced ones are the only difference
    have hcount := length_outcomes cx.source cx.outcomes
    have hcount' := length_outcomes (cx.again resolver).source (cx.again resolver).outcomes
    rw [← fold_replacements, ← fold_skipped, ← fold_unchanged] at hcount hcount'
    rw [hnew] at hcount'
    have := hsettle.length_eq
    have := hskips.length_eq
    simp only [List.length_nil] at hcount'
    omega

/-- A property in a property: the outer value is an object, the inner one is folded. -/
def nested : FoldContext where
  source :=
    { index := 0
      path := []
      dialect := .typeScript
      text := ['t', ':', '\x7b', 't', ':', '\'', 'a', '\'', '+', '\'', 'b', '\'', '\x7d']
      tree := .piece .pair none 0 13 [.piece .propertyIdentifier (some .key) 0 1 [],
        .piece (.other "object") (some .value) 2 13 [.piece .pair none 3 12
          [.piece .propertyIdentifier (some .key) 3 4 [],
            .piece .binaryExpression (some .value) 5 12 [.piece .string (some .left) 5 8 [],
              .piece .plus (some .operator) 8 9 [], .piece .string (some .right) 9 12 []]]]] }
  resolver := fun _ _ => none
  transform := .done
  options := { property := ['t'], quote := .double }

theorem parsed_nested : nested.source.Parsed where
  ordered := by decide
  bounded := by decide
  flagged := by decide
  plain := by decide
  segments := by decide
  quoted := by decide

theorem replacements_nested :
    nested.fold.replacements.map (·.literal) = [['"', 'a', 'b', '"']] := by
  obtain ⟨key, outer, houter, hchildren, hkey, hskip, hnone, pair, hpair, inner, hinner, htext,
      hentry, hsound, left, right, hsum, hleft, hright⟩ :
      ∃ key outer, nested.value? (.top nested.source.tree) = some outer ∧
        (Position.top nested.source.tree).namedChildren = [key, outer] ∧
        nested.outcomesAt key = [] ∧ nested.verdict outer = .error (.notEntry (.other "object")) ∧
        nested.value? outer = none ∧
        ∃ pair, outer.namedChildren = [pair] ∧
        ∃ inner, nested.value? pair = some inner ∧
          nested.source.textOf inner.node = ['\'', 'a', '\'', '+', '\'', 'b', '\''] ∧
          inner.kind.isEntry = true ∧
          (∀ n ∈ (inner.node :: inner.above).take 3, n.broken = false) ∧
        ∃ left right, Expression.ofPosition nested.source inner = .concatenation left .plus right ∧
          nested.source.literalText? left.tree = some ['a'] ∧
          nested.source.literalText? right.tree = some ['b'] := by
    refine ⟨_, _, rfl, rfl, outcomesAt_of_none rfl, rfl, rfl, _, rfl, _, rfl, rfl, rfl, ?_, _, _,
      rfl, ?_, ?_⟩
    · decide
    · decide +kernel
    · decide +kernel
  have hok : nested.verdict inner = .ok ['a', 'b'] := by
    refine verdict_eq_ok_iff.mpr ⟨hentry, hsound, [['a'], ['b']], ?_, rfl⟩
    rw [Fragment.ofPosition_plus hsum,
      Fragment.ofPosition_literal (Expression.ofPosition_of_literalText? hleft),
      Fragment.ofPosition_literal (Expression.ofPosition_of_literalText? hright)]
    rfl
  have hliteral : Literal.encode nested.options.quote ['a', 'b'] = ['"', 'a', 'b', '"'] := by decide
  have houtcomes : nested.outcomes =
      [.skipped outer (.notEntry (.other "object")), .folded inner ['"', 'a', 'b', '"']] := by
    rw [outcomes, outcomesAt_of_error houter hskip, hchildren]
    simp [hkey, outcomesAt_of_none hnone, hpair, outcomesAt_of_ok hinner hok, hliteral]
  simp [fold_replacements, houtcomes, Outcome.replacement?, htext, Outcome.writing]

/-- The inner value is replaced, the outer one skipped, and the second pass leaves both alone. -/
theorem fold_again_nested :
    nested.source.Parsed ∧ nested.Answers (fun _ _ => none) ∧
      nested.fold.replacements.map (·.literal) = [['"', 'a', 'b', '"']] ∧
      (nested.again fun _ _ => none).fold.replacements = [] ∧
      (nested.again fun _ _ => none).fold.text = nested.reparsed.text ∧
      (nested.again fun _ _ => none).fold.unchanged =
        nested.fold.unchanged + nested.fold.replacements.length ∧
      List.Forall₂ (fun a b => a.reason.Alike b.reason) nested.fold.skipped
        (nested.again fun _ _ => none).fold.skipped := by
  have hanswers : nested.Answers (fun _ _ => none) := fun _ _ _ _ _ _ => rfl
  refine ⟨parsed_nested, hanswers, replacements_nested, ?_⟩
  exact fold_again_changes_nothing parsed_nested hanswers fun _ _ h => by cases h; rfl

end FoldContext

end LiteralFolding
