-- The symbol table of a program is the ledger of its acts: walking a tree with the open scopes in
-- hand declares what the acts of the tree declare, one after the other.
import LiteralFolding.Proofs.Declaring

namespace LiteralFolding

namespace Ledger

variable {l : Ledger} {a : Act} {acts more : List Act} {i : Nat}

/-! ## Performing the acts of one kind -/

theorem performAll_append (l : Ledger) (acts more : List Act) :
    l.performAll (acts ++ more) = (l.performAll acts).performAll more :=
  List.foldl_append

theorem ofActs_append (acts more : List Act) :
    ofActs (acts ++ more) = (ofActs acts).performAll more :=
  performAll_append _ _ _

theorem length_numbers_perform (l : Ledger) (a : Act) :
    (l.perform a).numbers.length = l.numbers.length + 1 := by
  simp [perform]

theorem length_numbers_performAll (l : Ledger) (acts : List Act) :
    (l.performAll acts).numbers.length = l.numbers.length + acts.length := by
  induction acts generalizing l with
  | nil => rfl
  | cons a acts ih =>
    rw [performAll, List.foldl_cons, ← performAll, ih, length_numbers_perform, List.length_cons]
    omega

theorem number_performAll (acts : List Act) (h : i < l.numbers.length) :
    (l.performAll acts).number i = l.number i := by
  induction acts generalizing l with
  | nil => rfl
  | cons a acts ih =>
    have hlt : i < (l.perform a).numbers.length := by
      simp only [perform, List.length_append]
      omega
    rw [performAll, List.foldl_cons, ← performAll, ih hlt, number_perform_of_lt h]

theorem map_number_performAll {owner : Option Nat} (acts : List Act)
    (h : ∀ c ∈ owner, c < l.numbers.length) :
    owner.map (l.performAll acts).number = owner.map l.number := by
  cases owner with
  | none => rfl
  | some c => simp [number_performAll acts (h c rfl)]

/-- Declares a name, and makes it a member of a namespace too. -/
def addAsMember (table : SymbolTable) (scope : Scope) (container : Option Nat) (d : Declaration) :
    SymbolTable :=
  match container with
  | some c => (table.add scope d).1.bind (.members c) d.name (table.add scope d).2
  | none => (table.add scope d).1

theorem table_perform_inScope (l : Ledger) (scope : Scope) (d : Declaration)
    (owner : Option Nat) :
    (l.perform (.inScope scope d owner)).table =
      addAsMember l.table scope (owner.map l.number) d := by
  cases owner <;> rfl

theorem performAll_inScope {owner : Option Nat} (scope : Scope) (ds : List Declaration)
    (h : ∀ c ∈ owner, c < l.numbers.length) :
    (l.performAll (ds.map fun d => .inScope scope d owner)).table =
      ds.foldl (fun table d => addAsMember table scope (owner.map l.number) d) l.table := by
  induction ds generalizing l with
  | nil => rfl
  | cons d ds ih =>
    have hlt : ∀ c ∈ owner, c < (l.perform (.inScope scope d owner)).numbers.length := by
      intro c hc
      simp only [perform, List.length_append]
      have := h c hc
      omega
    have hnumber := map_number_performAll [.inScope scope d owner] h
    rw [List.map_cons, performAll, List.foldl_cons, ← performAll, ih hlt, List.foldl_cons,
      table_perform_inScope]
    exact congrArg
      (fun container => ds.foldl (fun table d => addAsMember table scope container d) _) hnumber

/-- An act inside a container needs no second entry. -/
theorem table_perform_inside (l : Ledger) (c : Nat) (d : Declaration) :
    (l.perform (.inside c d)).table = (l.table.add (.members (l.number c)) d).1 := by
  refine SymbolTable.bind_eq_self _ _ ?_
  rw [SymbolTable.find?_add, if_pos ⟨rfl, rfl⟩]
  simp

theorem performAll_inside (ds : List Declaration) (h : i < l.numbers.length) :
    (l.performAll (ds.map (.inside i ·))).table =
      ds.foldl (fun table d => (table.add (.members (l.number i)) d).1) l.table := by
  induction ds generalizing l with
  | nil => rfl
  | cons d ds ih =>
    have hlt : i < (l.perform (.inside i d)).numbers.length := by
      simp only [perform, List.length_append]
      omega
    rw [List.map_cons, performAll, List.foldl_cons, ← performAll, ih hlt, List.foldl_cons,
      number_perform_of_lt h, table_perform_inside]

/-- Namespaces inside one another, each act inside the one before it. -/
theorem performAll_zipIdx (ds : List Declaration) (h : l.numbers.length = i + 1) :
    ((l.performAll ((ds.zipIdx i).map fun (d, i) => .inside i d)).table,
      (l.performAll ((ds.zipIdx i).map fun (d, i) => .inside i d)).number (i + ds.length)) =
      ds.foldl (fun (table, id) d => table.add (.members id) d) (l.table, l.number i) := by
  induction ds generalizing l i with
  | nil => rfl
  | cons d ds ih =>
    have hlength : (l.perform (.inside i d)).numbers.length = i + 1 + 1 := by
      simp [perform, h]
    have hnext : (l.perform (.inside i d)).number (i + 1) =
        (l.table.add (.members (l.number i)) d).2 := by
      rw [← h, number_perform_length]
      rfl
    have hih := ih hlength
    rw [table_perform_inside, hnext] at hih
    rw [List.zipIdx_cons, List.map_cons, performAll, List.foldl_cons, ← performAll,
      List.foldl_cons, List.length_cons, ← Nat.add_assoc, Nat.add_right_comm]
    exact hih

end Ledger

namespace SymbolTable

open Ledger

variable {s : Source} {l : Ledger} {owner : Option Nat} {p : Position}

/-! ## One routine at a time -/

theorem addNames_eq (table : SymbolTable) (s : Source) (scope : Scope) (kind : DeclarationKind)
    (names : List Node) :
    table.addNames s scope kind names =
      (s.plainDeclarations kind names).foldl (fun table d => addAsMember table scope none d)
        table := by
  simp [addNames, Source.plainDeclarations, List.foldl_map, addAsMember]

theorem addExported_eq (table : SymbolTable) (frame : Frame) (exported : Bool) (scope : Scope)
    (d : Declaration) :
    table.addExported frame exported scope d =
      (addAsMember table scope (if exported then frame.container else none) d,
        (table.add scope d).2) := by
  unfold addExported
  cases exported <;> cases frame.container <;> rfl

theorem addVariables_eq (table : SymbolTable) (s : Source) (frame : Frame) (exported : Bool)
    (kind : DeclarationKind) (scope : Scope) (t : Tree) :
    table.addVariables s frame exported kind scope t =
      (s.variableDeclarations kind t).foldl
        (fun table d => addAsMember table scope (if exported then frame.container else none) d)
        table := by
  simp [addVariables, Source.variableDeclarations, List.foldl_map, addExported_eq]

theorem addNamed_eq (table : SymbolTable) (s : Source) (frame : Frame) (exported : Bool)
    (kind : DeclarationKind) (t : Tree) :
    table.addNamed s frame exported kind t =
      (s.ownDeclaration kind t).foldl
        (fun table d =>
          addAsMember table frame.block (if exported then frame.container else none) d)
        table := by
  unfold addNamed Source.ownDeclaration
  cases t.child? .name <;> simp [addExported_eq]

theorem addParameters_eq (table : SymbolTable) (s : Source) (scope : Scope) (t : Tree) :
    table.addParameters s scope t =
      (s.plainDeclarations .parameter (parameterNames t) ++
        if namesItself t.kind then s.ownDeclaration .function t else []).foldl
        (fun table d => addAsMember table scope none d) table := by
  unfold addParameters Source.ownDeclaration
  rw [List.foldl_append, ← addNames_eq]
  cases namesItself t.kind <;> cases t.child? .name <;> simp [addAsMember]

/-! ## One node -/

/-- The frame that the walk has in hand at a place. -/
def frameAt (s : Source) (p : Position) (owner : Option Nat) (l : Ledger) : Frame where
  block := s.blockScope p
  function := s.functionScope p
  container := owner.map l.number

theorem performAll_innerNames (s : Source) (l : Ledger) (p : Position) :
    (l.performAll ((s.innerNames p).map fun (scope, d) => .inScope scope d none)).table =
      if p.kind.isFunctionLike then l.table.addParameters s (.place s.index p.route) p.tree
      else l.table := by
  unfold Source.innerNames
  split
  · rw [List.map_map]
    exact (performAll_inScope (.place s.index p.route) _ (by simp)).trans
      (addParameters_eq _ _ _ _).symm
  · rfl

/-- The acts of names that all go to one scope. -/
theorem performAll_outerNames {scope : Scope} {ds : List Declaration}
    (hnames : s.outerNames p = ds.map (scope, ·)) (h : ∀ c ∈ owner, c < l.numbers.length) :
    (l.performAll ((s.outerNames p).map fun (scope, d) =>
        .inScope scope d (if Source.exports p then owner else none))).table =
      ds.foldl (fun table d =>
        addAsMember table scope (if Source.exports p then owner.map l.number else none) d)
        l.table := by
  have hexports : (if Source.exports p then owner.map l.number else none) =
      (if Source.exports p then owner else none).map l.number := by
    split <;> rfl
  rw [hnames, List.map_map, hexports]
  refine performAll_inScope scope ds ?_
  intro c hc
  split at hc
  · exact h c hc
  · cases hc

/-- The acts of a node whose names all go to one scope and hold nothing inside. -/
theorem performAll_actsAt {scope : Scope} {ds : List Declaration} (n : Nat)
    (hnames : s.outerNames p = ds.map (scope, ·)) (hmembers : s.memberActs p n = [])
    (hopened : s.openedAt p n = none) (h : ∀ c ∈ owner, c < l.numbers.length) :
    (ds.foldl (fun table d =>
        addAsMember table scope (if Source.exports p then owner.map l.number else none) d)
        (if p.kind.isFunctionLike then l.table.addParameters s (.place s.index p.route) p.tree
          else l.table), none) =
      ((l.performAll (s.actsAt owner p n)).table,
        (s.openedAt p n).map (l.performAll (s.actsAt owner p n)).number) := by
  have hlength : ∀ c ∈ owner, c < (l.performAll ((s.innerNames p).map fun (scope, d) =>
      .inScope scope d none)).numbers.length := by
    intro c hc
    rw [length_numbers_performAll]
    have := h c hc
    omega
  rw [hopened, Source.actsAt, hmembers, List.append_nil, performAll_append,
    performAll_outerNames hnames hlength, performAll_innerNames, map_number_performAll _ h]
  rfl

/-- The only name of an enumeration or namespace takes the next number. -/
theorem performAll_container {scope : Scope} {d : Declaration} {first : Ledger}
    (houter : s.outerNames p = [(scope, d)]) (h : ∀ c ∈ owner, c < l.numbers.length)
    (hfirst : l.performAll ((s.outerNames p).map fun (scope, d) =>
      .inScope scope d (if Source.exports p then owner else none)) = first) :
    first.table =
        addAsMember l.table scope (if Source.exports p then owner.map l.number else none) d ∧
      first.numbers.length = l.numbers.length + 1 ∧
      first.number l.numbers.length = (l.table.add scope d).2 := by
  subst hfirst
  have hnames : s.outerNames p = [d].map (scope, ·) := houter
  refine ⟨performAll_outerNames hnames h, ?_, ?_⟩
  · rw [length_numbers_performAll, houter]
    rfl
  · rw [houter]
    exact number_perform_length

theorem addEnumeration_eq (h : ∀ c ∈ owner, c < l.numbers.length)
    (hkind : p.kind = .enumDeclaration) :
    l.table.addEnumeration s (frameAt s p owner l) (Source.exports p) p.tree =
      (l.performAll (s.actsAt owner p l.numbers.length)).table := by
  have hinner : s.innerNames p = [] := by simp [Source.innerNames, hkind, Kind.isFunctionLike]
  unfold addEnumeration
  simp only [Source.actsAt, hinner, List.map_nil, List.nil_append, performAll_append,
    Source.memberActs, hkind]
  cases hname : p.tree.child? .name with
  | none => simp [Source.outerNames, hkind, Source.ownDeclaration, hname, performAll]
  | some name =>
    have houter : s.outerNames p = [(s.blockScope p,
        declarationAt s name.node .enumeration (.expression p.tree.kind))] := by
      simp [Source.outerNames, hkind, Source.ownDeclaration, hname]
    obtain ⟨htable, hlength, hnumber⟩ := performAll_container houter h rfl
    have hlt := Nat.lt_of_lt_of_eq (Nat.lt_succ_self l.numbers.length) hlength.symm
    simp only [Option.isSome_some, if_true]
    rw [performAll_inside _ hlt, hnumber, htable, addExported_eq]
    rfl

theorem addNamespace_eq (h : ∀ c ∈ owner, c < l.numbers.length) (hkind : p.kind.isNamespace) :
    l.table.addNamespace s (frameAt s p owner l) (Source.exports p) p.tree =
      ((l.performAll (s.actsAt owner p l.numbers.length)).table,
        (s.openedAt p l.numbers.length).map
          (l.performAll (s.actsAt owner p l.numbers.length)).number) := by
  have houter := Source.outerNames_of_isNamespace (s := s) hkind
  unfold addNamespace
  simp only [Source.actsAt, Source.innerNames_of_isNamespace hkind, List.map_nil,
    List.nil_append, performAll_append, Source.memberActs_of_isNamespace hkind, Source.openedAt,
    hkind, if_true]
  rcases hparts : (p.tree.child? .name).bind (·.namespaceParts?) with _ | _ | ⟨first, rest⟩
  · simp [houter, Source.namespaceDeclarations, hparts, performAll]
  · simp [houter, Source.namespaceDeclarations, hparts, performAll]
  · have hdeclarations : s.namespaceDeclarations p.tree =
        declarationAt s first .namespaceBlock (.expression p.tree.kind) ::
          rest.map (declarationAt s · .namespaceBlock (.expression p.tree.kind)) := by
      simp [Source.namespaceDeclarations, hparts]
    rw [hdeclarations] at houter ⊢
    obtain ⟨htable, hlength, hnumber⟩ := performAll_container houter h rfl
    have hchain := performAll_zipIdx
      (rest.map (declarationAt s · .namespaceBlock (.expression p.tree.kind))) hlength
    rw [htable, hnumber, List.foldl_map] at hchain
    obtain ⟨htable', hopened⟩ := Prod.mk.inj hchain
    simp only [addExported_eq, Option.map_some]
    exact Prod.ext htable'.symm (congrArg some hopened.symm)

/-- At a node the walk declares what the acts of the node declare, and opens the namespace of
the act that they open. -/
theorem declareAt_eq (h : ∀ c ∈ owner, c < l.numbers.length) :
    l.table.declareAt s (frameAt s p owner l) p =
      ((l.performAll (s.actsAt owner p l.numbers.length)).table,
        (s.openedAt p l.numbers.length).map
          (l.performAll (s.actsAt owner p l.numbers.length)).number) := by
  simp only [declareAt]
  generalize hparameters : (if p.kind.isFunctionLike then _ else l.table) = table
  -- Most nodes give all their names to one scope and hold nothing inside.
  have hheld : ∀ (exported : Bool) (scope : Scope) (ds : List Declaration),
      s.outerNames p = ds.map (scope, ·) → Source.exports p = exported →
      s.memberActs p l.numbers.length = [] → s.openedAt p l.numbers.length = none →
      (ds.foldl (fun table d =>
        addAsMember table scope (if exported then owner.map l.number else none) d) table, none) =
      ((l.performAll (s.actsAt owner p l.numbers.length)).table,
        (s.openedAt p l.numbers.length).map
          (l.performAll (s.actsAt owner p l.numbers.length)).number) := by
    rintro exported scope ds hnames rfl hmembers hopened
    rw [← hparameters]
    exact performAll_actsAt _ hnames hmembers hopened h
  split <;> rename_i hkind
  case h_1 | h_2 =>
    rw [addVariables_eq]
    exact hheld _ _ _ (by simp [Source.outerNames, hkind, frameAt])
      (by simp [Source.exports, hkind]) (by simp [Source.memberActs, hkind])
      (by simp [Source.openedAt, hkind, Kind.isNamespace])
  case h_3 | h_4 | h_5 | h_6 | h_7 =>
    rw [addNamed_eq]
    exact hheld _ _ _ (by simp [Source.outerNames, hkind, frameAt])
      (by simp [Source.exports, hkind]) (by simp [Source.memberActs, hkind])
      (by simp [Source.openedAt, hkind, Kind.isNamespace])
  case h_8 =>
    obtain rfl : l.table = table := by simpa [hkind, Kind.isFunctionLike] using hparameters
    have hexports : decide (p.parentKind? = some .exportStatement) = Source.exports p := by
      simp [Source.exports, hkind]
    rw [hexports, addEnumeration_eq h hkind]
    simp [Source.openedAt, hkind, Kind.isNamespace]
  case h_9 | h_10 =>
    obtain rfl : l.table = table := by simpa [hkind, Kind.isFunctionLike] using hparameters
    have hexports : decide (p.parentKind? = some .exportStatement) = Source.exports p := by
      simp [Source.exports, hkind]
    rw [hexports]
    exact addNamespace_eq h (by simp [hkind, Kind.isNamespace])
  case h_11 | h_12 =>
    rw [addNames_eq]
    exact hheld false _ _ (by simp [Source.outerNames, hkind, frameAt])
      (by simp [Source.exports, hkind]) (by simp [Source.memberActs, hkind])
      (by simp [Source.openedAt, hkind, Kind.isNamespace])
  case h_13 =>
    have hloop := fun scope ds hnames => hheld false scope ds hnames
      (by simp [Source.exports, hkind]) (by simp [Source.memberActs, hkind])
      (by simp [Source.openedAt, hkind, Kind.isNamespace])
    unfold addLoopNames
    split
    · rename_i keyword left hkeyword hleft
      split <;> rename_i hbinder
      all_goals
        rw [addNames_eq]
        exact hloop _ _ (by simp [Source.outerNames, hkind, hkeyword, hleft, hbinder, frameAt])
    · exact hloop .shared [] (by simp [Source.outerNames, hkind])
  case h_14 =>
    refine hheld _ .shared [] ?_ rfl ?_ ?_
    · simp only [Source.outerNames, List.map_nil]
    · simp only [Source.memberActs]
    · simp only [Source.openedAt, Kind.isNamespace, Bool.false_eq_true, if_false]

/-! ## The walk -/

theorem frameAt_congr {l' : Ledger} (s : Source) (p : Position)
    (h : owner.map l'.number = owner.map l.number) :
    frameAt s p owner l' = frameAt s p owner l := by
  unfold frameAt
  rw [h]

/-- Below a node the walk has the frame of the places there in hand. -/
theorem frameBelow_eq {l' : Ledger} (n : Nat) (t : Tree) (i : Nat)
    (h : owner.map l'.number = owner.map l.number) :
    frameBelow s (frameAt s p owner l) p ((s.openedAt p n).map l'.number) =
      frameAt s { tree := t, above := p.node :: p.above, route := i :: p.route }
        (s.ownerBelow owner p n) l' := by
  unfold frameBelow frameAt
  rw [s.blockScope_below p t i, s.functionScope_below p t i]
  by_cases hlike : p.kind.isFunctionLike
  · have hblock : p.kind.opensBlock := by
      unfold Kind.opensBlock
      split
      all_goals first | rfl | exact hlike
    have howner : s.ownerBelow owner p n = none := by
      unfold Source.ownerBelow
      split <;> simp_all [Kind.isFunctionLike]
    simp [hlike, hblock, howner]
  · rw [if_neg hlike]
    unfold Source.ownerBelow
    split <;> rename_i hkind
    case h_3 =>
      by_cases hbody : p.parentKind?.any (·.isNamespace)
      · simp [hkind, hbody, h, Kind.opensBlock]
      · simp [hkind, hbody, Kind.opensBlock, Kind.isFunctionLike]
    case h_11 =>
      have hblock : p.kind.opensBlock = false := by
        unfold Kind.opensBlock
        split <;> simp_all
      simp_all
    all_goals simp [hkind, h, Kind.opensBlock, Kind.isFunctionLike]

mutual

/-- The walk over a tree declares what the acts of the tree declare. -/
theorem collectTree_eq {l : Ledger} {owner : Option Nat} (h : ∀ c ∈ owner, c < l.numbers.length)
    (above : List Node) (route : Route) : (t : Tree) →
    collectTree s (frameAt s { tree := t, above, route } owner l) above route t l.table =
      (l.performAll (s.actsTree owner above route t l.numbers.length)).table
  | .mk node children => by
    rw [collectTree, Source.actsTree, declareAt_eq h, performAll_append]
    have hbelow := Source.ownerBelow_lt (s := s)
      (p := { tree := .mk node children, above, route }) h
    rw [← length_numbers_performAll] at hbelow ⊢
    exact collectAll_eq hbelow
      (fun t i => frameBelow_eq _ t i (map_number_performAll _ h)) children

theorem collectAll_eq {l : Ledger} {owner : Option Nat} {frame : Frame} {above : List Node}
    {route : Route} {i : Nat} (h : ∀ c ∈ owner, c < l.numbers.length)
    (hframe : ∀ t i, frame = frameAt s { tree := t, above, route := i :: route } owner l) :
    (ts : List Tree) → collectAll s frame above route i ts l.table =
      (l.performAll (s.actsAll owner above route i ts l.numbers.length)).table
  | [] => rfl
  | t :: ts => by
    rw [collectAll, Source.actsAll, performAll_append]
    generalize hacts : (if t.node.named then _ else []) = acts
    have htable : (if t.node.named then collectTree s frame above (i :: route) t l.table
        else l.table) = (l.performAll acts).table := by
      subst hacts
      split
      · rw [hframe t i]
        exact collectTree_eq h above (i :: route) t
      · rfl
    have hlt : ∀ c ∈ owner, c < (l.performAll acts).numbers.length := by
      intro c hc
      rw [length_numbers_performAll]
      have := h c hc
      omega
    -- The frame is that of all siblings: what the first one declares leaves the numbers of its
    -- owner alone.
    rw [htable, ← length_numbers_performAll]
    refine collectAll_eq hlt (fun t i => ?_) ts
    rw [hframe t i, frameAt_congr s _ (map_number_performAll acts h)]

end

theorem collect_eq (l : Ledger) (s : Source) :
    l.table.collect s = (l.performAll (s.actsTree none [] [] s.tree l.numbers.length)).table := by
  have hnone : ∀ c ∈ (none : Option Nat), c < l.numbers.length := by simp
  exact collectTree_eq hnone [] [] s.tree

/-- The symbol table of a program is the ledger of its acts. -/
theorem ofSources_eq (sources : List Source) :
    ofSources sources = (Ledger.ofActs (Source.acts sources)).table := by
  induction sources using List.reverseRecOn with
  | nil => rfl
  | append_singleton sources s ih =>
    have hsources : ofSources (sources ++ [s]) = (ofSources sources).collect s := by
      simp [ofSources, List.foldl_append]
    rw [hsources, ih, Source.acts_snoc, ofActs_append, collect_eq, length_numbers]

end SymbolTable

end LiteralFolding
