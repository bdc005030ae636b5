-- Shadowing. The closest scope that declares a name decides what the name means, and what a scope
-- further out declares is not seen. The body of a namespace counts by what it declares itself: what
-- other bodies of the namespace export is no closer than what stands around them all.
import Mathlib.Data.List.Infix
import LiteralFolding.Proofs.Scoping

namespace LiteralFolding

/-! ## Declared names -/

/-- The names of all places of the program. -/
def Program.lexicalNames (program : Program) : List (Scope × Declaration) :=
  (Source.places program.sources).flatMap fun (s, p) => s.lexicalNames p

/-- Some place of the program declares the name in the scope. -/
def Program.Declares (program : Program) (scope : Scope) (name : Text) : Prop :=
  ∃ x ∈ program.lexicalNames, x.1 = scope ∧ x.2.name = name

instance (program : Program) (scope : Scope) (name : Text) :
    Decidable (program.Declares scope name) :=
  inferInstanceAs (Decidable (∃ x ∈ _, _))

theorem Program.declares_of_mem {program : Program} {s : Source} {p : Position} {scope : Scope}
    {d : Declaration} (hplace : (s, p) ∈ Source.places program.sources)
    (h : (scope, d) ∈ s.lexicalNames p) : program.Declares scope d.name :=
  ⟨(scope, d), List.mem_flatMap.mpr ⟨(s, p), hplace, h⟩, rfl, rfl⟩

theorem firstIn_isSome_iff {listing : List (Scope × Declaration)} {scope : Scope} {name : Text} :
    (firstIn listing name scope).isSome ↔ ∃ x ∈ listing, x.1 = scope ∧ x.2.name = name := by
  unfold firstIn
  rw [Option.isSome_map, List.find?_isSome]
  simp

namespace Ledger

open Act

variable {acts : List Act} {i j : Nat} {scope scope' : Scope} {name name' : Text}

/-- The first act of a name in a scope of the text goes there, with a number that is new. -/
theorem new_of_first (h : Orderly acts) (hscope : ∀ c, scope ≠ .members c)
    (hfirst : First acts (Declares (ofActs acts).number scope name) i) :
    ∃ d exportedTo, acts[i]? = some (.inScope scope d exportedTo) ∧
      ∀ j < i, (ofActs acts).number j ≠ (ofActs acts).number i := by
  obtain ⟨a, ha, hdeclares⟩ := hfirst.1
  obtain ⟨d, exportedTo, rfl, rfl⟩ := eq_inScope_of_declares hscope hdeclares
  refine ⟨d, exportedTo, ha, ?_⟩
  rcases number_cases h ha with ⟨hnew, _⟩ | ⟨_, ⟨k, hk, hfirst', _⟩, _⟩
  · exact hnew
  · have := hfirst.unique hfirst'
    omega

/-- A declaration has its name in one scope of the text only. -/
theorem scope_eq_of_find? {id : Nat} (h : Orderly acts) (hscope : ∀ c, scope ≠ .members c)
    (hscope' : ∀ c, scope' ≠ .members c)
    (hfind : (ofActs acts).table.find? scope name = some id)
    (hfind' : (ofActs acts).table.find? scope' name' = some id) : scope = scope' := by
  obtain ⟨i, hi, rfl⟩ := (find?_ofActs h).mp hfind
  obtain ⟨j, hj, hnumber⟩ := (find?_ofActs h).mp hfind'
  obtain ⟨_, _, ha, hnew⟩ := new_of_first h hscope hi
  obtain ⟨_, _, hb, hnew'⟩ := new_of_first h hscope' hj
  rcases Nat.lt_trichotomy i j with hlt | rfl | hgt
  · exact absurd hnumber.symm (hnew' i hlt)
  · cases ha.symm.trans hb
    rfl
  · exact absurd hnumber (hnew j hgt)

end Ledger

namespace Program

variable {sources : List Source} {source : Nat} {name : Text} {scope : Scope} {route : Route}

/-- A name of a scope stands for the first declaration of it there. -/
theorem find?_eq_firstIn (sources : List Source) (name : Text) (h : ∀ c, scope ≠ .members c) :
    ((ofSources sources).symbols.find? scope name).map (ofSources sources).symbols.declaration? =
      (firstIn (ofSources sources).lexicalNames name scope).map some := by
  unfold lexicalNames
  rw [← (Emits.acts_of_sources (ofSources sources).sources).filterMap_lexical?,
    ← Ledger.find?_eq_firstIn (Source.orderly_acts (ofSources sources).sources) h,
    ← SymbolTable.ofSources_eq]
  rfl

theorem find?_isSome_iff (h : ∀ c, scope ≠ .members c) :
    ((ofSources sources).symbols.find? scope name).isSome ↔
      (ofSources sources).Declares scope name := by
  have hsome := congrArg Option.isSome (find?_eq_firstIn sources name h)
  rw [Option.isSome_map, Option.isSome_map] at hsome
  unfold Declares
  rw [← firstIn_isSome_iff, ← hsome]

theorem find?_eq_none_iff (h : ∀ c, scope ≠ .members c) :
    (ofSources sources).symbols.find? scope name = none ↔
      ¬ (ofSources sources).Declares scope name := by
  rw [← find?_isSome_iff h, Option.not_isSome_iff_eq_none]

/-- What does not declare the name is passed over. -/
theorem lookup_of_between {inner : Route} (hsuffix : route <:+ inner)
    (h : ∀ r ∈ inner.tails, route.length < r.length →
      ¬ (ofSources sources).Declares (.place source r) name) :
    (ofSources sources).symbols.lookup source name inner =
      (ofSources sources).symbols.lookup source name route := by
  induction inner with
  | nil => rw [List.suffix_nil.mp hsuffix]
  | cons step inner ih =>
    rcases List.suffix_cons_iff.mp hsuffix with rfl | hsuffix
    · rfl
    · have hnone := (find?_eq_none_iff (by simp)).mpr
        (h _ (List.mem_cons_self ..) (Nat.lt_succ_of_le hsuffix.length_le))
      rw [SymbolTable.lookup, hnone, Option.none_or]
      exact ih hsuffix fun r hr => h r (List.mem_cons_of_mem _ hr)

end Program

/-! ## Bodies of namespaces -/

namespace Position

variable {p q : Position}

theorem above_of_mem_siblings {above : List Node} {route : Route} {i : Nat} {ts : List Tree}
    (h : q ∈ siblings above route i ts) : q.above = above := by
  induction ts generalizing i with
  | nil => simp [siblings] at h
  | cons t ts ih =>
    rw [siblings] at h
    rcases List.mem_cons.mp h with rfl | h
    · rfl
    · exact ih h

theorem above_of_mem_children (h : q ∈ p.children) : q.above = p.node :: p.above :=
  above_of_mem_siblings h

theorem mem_meaningfulFrom_self (above : List Node) (route : Route) (t : Tree) :
    { tree := t, above, route } ∈ meaningfulFrom above route t := by
  cases t with
  | mk node children =>
    rw [meaningfulFrom]
    exact List.mem_cons_self ..

theorem mem_meaningfulBelow_of_mem_siblings {above : List Node} {route : Route} {i : Nat}
    {ts : List Tree} (h : q ∈ siblings above route i ts) (hnamed : q.node.named) :
    q ∈ meaningfulBelow above route i ts := by
  induction ts generalizing i with
  | nil => simp [siblings] at h
  | cons t ts ih =>
    rw [siblings] at h
    rw [meaningfulBelow]
    rcases List.mem_cons.mp h with rfl | h
    · rw [if_pos (show t.node.named = true from hnamed)]
      exact List.mem_append_left _ (mem_meaningfulFrom_self ..)
    · exact List.mem_append_right _ (ih h)

mutual

theorem mem_meaningfulFrom_of_mem_namedChildren (above : List Node) (route : Route) :
    (t : Tree) → p ∈ meaningfulFrom above route t → q ∈ p.namedChildren →
      q ∈ meaningfulFrom above route t
  | .mk node children, hp, hq => by
    rw [meaningfulFrom] at hp ⊢
    rcases List.mem_cons.mp hp with rfl | hp
    · obtain ⟨hmem, hnamed⟩ := List.mem_filter.mp hq
      exact List.mem_cons_of_mem _ (mem_meaningfulBelow_of_mem_siblings hmem hnamed)
    · exact List.mem_cons_of_mem _ (mem_meaningfulBelow_of_mem_namedChildren _ _ _ children hp hq)

theorem mem_meaningfulBelow_of_mem_namedChildren (above : List Node) (route : Route) (i : Nat) :
    (ts : List Tree) → p ∈ meaningfulBelow above route i ts → q ∈ p.namedChildren →
      q ∈ meaningfulBelow above route i ts
  | [], hp, _ => by simp [meaningfulBelow] at hp
  | t :: ts, hp, hq => by
    rw [meaningfulBelow] at hp ⊢
    rcases List.mem_append.mp hp with hp | hp
    · split at hp
      · rename_i hnamed
        rw [if_pos hnamed]
        exact List.mem_append_left _ (mem_meaningfulFrom_of_mem_namedChildren _ _ t hp hq)
      · cases hp
    · exact List.mem_append_right _ (mem_meaningfulBelow_of_mem_namedChildren _ _ _ ts hp hq)

end

end Position

namespace Source

variable {sources : List Source} {s : Source} {p q ns body : Position} {name : Text}

theorem mem_places_of_mem_namedChildren (hp : (s, p) ∈ places sources) (hq : q ∈ p.namedChildren) :
    (s, q) ∈ places sources := by
  obtain ⟨t, ht, hmem⟩ := List.mem_flatMap.mp hp
  obtain ⟨p', hp', heq⟩ := List.mem_map.mp hmem
  cases heq
  refine List.mem_flatMap.mpr ⟨s, ht, List.mem_map.mpr ⟨q, ?_, rfl⟩⟩
  exact Position.mem_meaningfulFrom_of_mem_namedChildren [] [] s.tree hp' hq

theorem blockScope_of_mem_children (s : Source) (h : q ∈ p.children) :
    s.blockScope q = if p.kind.opensBlock then .place s.index p.route else s.blockScope p := by
  obtain ⟨i, hroute⟩ := Position.exists_route_of_mem_children h
  rw [← blockScope_below s p q.tree i]
  unfold blockScope scopeAbove
  rw [Position.above_of_mem_children h, hroute]

theorem functionScope_of_mem_children (s : Source) (h : q ∈ p.children) :
    s.functionScope q =
      if p.kind.isFunctionLike || p.kind = .statementBlock && p.parentKind?.any (·.isNamespace) then
        .place s.index p.route
      else s.functionScope p := by
  obtain ⟨i, hroute⟩ := Position.exists_route_of_mem_children h
  rw [← functionScope_below s p q.tree i]
  unfold functionScope scopeAbove
  rw [Position.above_of_mem_children h, hroute]

/-- What an export statement can hold goes to the scopes of the blocks and functions around. -/
theorem scope_of_mem_outerNames {x : Scope × Declaration} (hexports : exports p)
    (h : x ∈ s.outerNames p) : x.1 = s.blockScope p ∨ x.1 = s.functionScope p := by
  unfold outerNames at h
  split at h <;> rename_i hkind
  case h_2 =>
    obtain ⟨_, _, rfl⟩ := List.mem_map.mp h
    exact .inr rfl
  case h_11 | h_12 | h_13 => simp [exports, hkind] at hexports
  case h_14 => cases h
  all_goals
    obtain ⟨_, _, rfl⟩ := List.mem_map.mp h
    exact .inl rfl

/-- An export statement in a body declares the name. -/
def ExportsFrom (s : Source) (body : Position) (name : Text) : Prop :=
  ∃ statement ∈ body.namedChildren, statement.kind = .exportStatement ∧
    ∃ p ∈ statement.namedChildren, exports p ∧ ∃ x ∈ s.outerNames p, x.2.name = name

instance (s : Source) (body : Position) (name : Text) : Decidable (s.ExportsFrom body name) :=
  inferInstanceAs (Decidable (∃ statement ∈ _, _))

end Source

namespace Program

/-- A name is used in a body of a namespace, and nothing between the use and the body declares
it. -/
structure UsedInBody (program : Program) (s : Source) (ns body use : Position) (name : Text) :
    Prop where
  place : (s, ns) ∈ Source.places program.sources
  owner : ns.kind.isNamespace
  below : body ∈ ns.namedChildren
  block : body.kind = .statementBlock
  inside : body.Reaches use
  kind : use.kind = .identifier
  spelled : s.textOf use.node = name
  between : ∀ route ∈ use.route.tails, body.route.length < route.length →
    ¬ program.Declares (.place s.index route) name

variable {sources : List Source} {s : Source} {ns body use : Position} {name : Text}

/-- What a body exports it declares for itself. -/
theorem declares_of_exportsFrom {program : Program} (h : program.UsedInBody s ns body use name)
    (hexports : s.ExportsFrom body name) : program.Declares (.place s.index body.route) name := by
  obtain ⟨statement, hstatement, hkind, p, hp, hexported, ⟨scope, d⟩, hx, rfl⟩ := hexports
  have hbody := Position.mem_children_of_mem_namedChildren h.below
  have hparent : body.parentKind? = some ns.kind := by
    simp [Position.parentKind?, Position.above_of_mem_children hbody, Position.kind, Position.node,
      Tree.kind]
  have hstatement' := Position.mem_children_of_mem_namedChildren hstatement
  have hp' := Position.mem_children_of_mem_namedChildren hp
  have hblock : s.blockScope p = .place s.index body.route := by
    rw [Source.blockScope_of_mem_children s hp', Source.blockScope_of_mem_children s hstatement',
      hkind, h.block]
    rfl
  have hfunction : s.functionScope p = .place s.index body.route := by
    rw [Source.functionScope_of_mem_children s hp', Source.functionScope_of_mem_children s
      hstatement', hkind, h.block, hparent]
    simp [h.owner, Kind.isFunctionLike]
  have hscope : scope = .place s.index body.route := by
    rcases Source.scope_of_mem_outerNames hexported hx with rfl | rfl
    · exact hblock
    · exact hfunction
  rw [← hscope]
  refine declares_of_mem (p := p) ?_ (List.mem_append_right _ hx)
  exact Source.mem_places_of_mem_namedChildren (Source.mem_places_of_mem_namedChildren
    (Source.mem_places_of_mem_namedChildren h.place h.below) hstatement) hp

/-- A use in a body asks the body and then what is around the namespace. -/
theorem declarationOf?_of_usedInBody (h : (ofSources sources).UsedInBody s ns body use name) :
    (ofSources sources).symbols.declarationOf? s use =
      ((ofSources sources).symbols.find? (.place s.index body.route) name).or
        ((ofSources sources).symbols.lookup s.index name ns.route) := by
  obtain ⟨i, hroute⟩ := Position.exists_route_of_mem_children
    (Position.mem_children_of_mem_namedChildren h.below)
  have hbetween := lookup_of_between h.inside.suffix h.between
  rw [SymbolTable.declarationOf?]
  simp only [h.kind, h.spelled, hbetween]
  rw [hroute, SymbolTable.lookup]

theorem place_not_mem_scopesFrom {source step : Nat} {route : Route} :
    .place source (step :: route) ∉ scopesFrom source route := by
  intro h
  simp only [scopesFrom, List.mem_append, List.mem_map, List.mem_tails] at h
  rcases h with ⟨r, hsuffix, heq⟩ | h
  · cases heq
    exact Nat.not_succ_le_self _ hsuffix.length_le
  · simp at h

/-- A use in a body means something from around the namespace just if the body does not declare the
name itself and something around the namespace does. What a body exports it declares itself, but
what other bodies export does not count. -/
theorem outer_name_is_meant_iff (h : (ofSources sources).UsedInBody s ns body use name) :
    ((∃ id, (ofSources sources).symbols.declarationOf? s use = some id ∧
        ∃ scope ∈ scopesFrom s.index ns.route,
          (ofSources sources).symbols.find? scope name = some id) ↔
      ¬ (ofSources sources).Declares (.place s.index body.route) name ∧
        ∃ scope ∈ scopesFrom s.index ns.route, (ofSources sources).Declares scope name) ∧
    (s.ExportsFrom body name →
      (ofSources sources).Declares (.place s.index body.route) name) := by
  refine ⟨?_, declares_of_exportsFrom h⟩
  rw [declarationOf?_of_usedInBody h]
  constructor
  · rintro ⟨id, hid, scope, hscope, hfind⟩
    have hmembers := ne_members_of_mem_scopesFrom hscope
    refine ⟨?_, scope, hscope, (find?_isSome_iff hmembers).mp (by rw [hfind]; rfl)⟩
    intro hdeclares
    obtain ⟨own, hown⟩ := Option.isSome_iff_exists.mp
      ((find?_isSome_iff (by simp)).mpr hdeclares)
    rw [hown, Option.some_or] at hid
    cases hid
    have heq : scope = .place s.index body.route := by
      rw [ofSources, SymbolTable.ofSources_eq] at hown hfind
      exact Ledger.scope_eq_of_find? (Source.orderly_acts _) hmembers (by simp) hfind hown
    obtain ⟨i, hroute⟩ := Position.exists_route_of_mem_children
      (Position.mem_children_of_mem_namedChildren h.below)
    rw [heq, hroute] at hscope
    exact place_not_mem_scopesFrom hscope
  · rintro ⟨hown, scope, hscope, hdeclares⟩
    rw [(find?_eq_none_iff (by simp)).mpr hown, Option.none_or, SymbolTable.lookup_eq_findSome?]
    have hsome : ((scopesFrom s.index ns.route).findSome?
        ((ofSources sources).symbols.find? · name)).isSome := by
      rw [List.findSome?_isSome_iff]
      exact ⟨scope, hscope, (find?_isSome_iff (ne_members_of_mem_scopesFrom hscope)).mpr hdeclares⟩
    obtain ⟨id, hid⟩ := Option.isSome_iff_exists.mp hsome
    obtain ⟨scope', hscope', hfind⟩ := List.exists_of_findSome?_eq_some hid
    exact ⟨id, hid, scope', hscope', hfind⟩

/-- The script `var X='o';namespace N{export var X='i'}namespace N{X}`. -/
def splitBodies : Source where
  index := 0
  path := []
  dialect := .typeScript
  text := ['v', 'a', 'r', ' ', 'X', '=', '\'', 'o', '\'', ';', 'n', 'a', 'm', 'e', 's', 'p', 'a',
    'c', 'e', ' ', 'N', '{', 'e', 'x', 'p', 'o', 'r', 't', ' ', 'v', 'a', 'r', ' ', 'X', '=', '\'',
    'i', '\'', '}', 'n', 'a', 'm', 'e', 's', 'p', 'a', 'c', 'e', ' ', 'N', '{', 'X', '}']
  tree := .piece (.other "program") none 0 53 [
    .piece .variableDeclaration none 0 10 [.piece .variableDeclarator none 4 9 [
      .piece .identifier (some .name) 4 5 [], .piece .string (some .value) 6 9 []]],
    .piece .internalModule none 10 39 [.piece .identifier (some .name) 20 21 [],
      .piece .statementBlock (some .body) 21 39 [.piece .exportStatement none 22 38 [
        .piece .variableDeclaration none 29 38 [.piece .variableDeclarator none 33 38 [
          .piece .identifier (some .name) 33 34 [], .piece .string (some .value) 35 38 []]]]]],
    .piece (.other "expression_statement") none 39 53 [.piece .internalModule none 39 53 [
      .piece .identifier (some .name) 49 50 [],
      .piece .statementBlock (some .body) 50 53 [
        .piece (.other "expression_statement") none 51 52 [.piece .identifier none 51 52 []]]]]]

/-- The use in the second body, which means the variable in front. -/
theorem usedInBody_splitBodies :
    ∃ ns body use, (ofSources [splitBodies]).UsedInBody splitBodies ns body use ['X'] ∧
      splitBodies.outerNames ns =
        (splitBodies.namespaceDeclarations ns.tree).map (.shared, ·) ∧
      (splitBodies.namespaceDeclarations ns.tree).map (·.name) = [['N']] ∧
      (ofSources [splitBodies]).symbols.declarationOf? splitBodies use = some 0 := by
  obtain ⟨ns, hns, body, hbody, statement, hstatement, use, huse, howner, hblock, hkind, hname,
      hbetween, hrest⟩ :
      ∃ ns, (Position.meaningful splitBodies.tree)[14]? = some ns ∧
        ∃ body, ns.namedChildren[1]? = some body ∧
        ∃ statement, body.namedChildren[0]? = some statement ∧
        ∃ use, statement.namedChildren[0]? = some use ∧
          ns.kind.isNamespace ∧ body.kind = .statementBlock ∧ use.kind = .identifier ∧
          splitBodies.textOf use.node = ['X'] ∧
          (∀ route ∈ use.route.tails, body.route.length < route.length →
            ¬ (ofSources [splitBodies]).Declares (.place splitBodies.index route) ['X']) ∧
          splitBodies.outerNames ns =
            (splitBodies.namespaceDeclarations ns.tree).map (.shared, ·) ∧
          (splitBodies.namespaceDeclarations ns.tree).map (·.name) = [['N']] ∧
          (ofSources [splitBodies]).symbols.declarationOf? splitBodies use = some 0 := by
    refine ⟨_, rfl, _, rfl, _, rfl, _, rfl, ?_⟩
    decide +kernel
  have hplace : (splitBodies, ns) ∈ Source.places (ofSources [splitBodies]).sources :=
    List.mem_flatMap.mpr ⟨splitBodies, List.mem_singleton.mpr rfl,
      List.mem_map.mpr ⟨ns, List.mem_of_getElem? hns, rfl⟩⟩
  have hinside : body.Reaches use :=
    .step (List.mem_of_getElem? hstatement) (.step (List.mem_of_getElem? huse) (.refl _))
  exact ⟨ns, body, use, ⟨hplace, howner, List.mem_of_getElem? hbody, hblock, hinside, hkind, hname,
    hbetween⟩, hrest⟩

theorem outer_name_is_meant_in_splitBodies :
    ∃ ns body use, (ofSources [splitBodies]).UsedInBody splitBodies ns body use ['X'] ∧
      ((∃ id, (ofSources [splitBodies]).symbols.declarationOf? splitBodies use = some id ∧
          ∃ scope ∈ scopesFrom splitBodies.index ns.route,
            (ofSources [splitBodies]).symbols.find? scope ['X'] = some id) ↔
        ¬ (ofSources [splitBodies]).Declares (.place splitBodies.index body.route) ['X'] ∧
          ∃ scope ∈ scopesFrom splitBodies.index ns.route,
            (ofSources [splitBodies]).Declares scope ['X']) ∧
      (splitBodies.ExportsFrom body ['X'] →
        (ofSources [splitBodies]).Declares (.place splitBodies.index body.route) ['X']) := by
  obtain ⟨ns, body, use, hused, _⟩ := usedInBody_splitBodies
  exact ⟨ns, body, use, hused, outer_name_is_meant_iff hused⟩

/-- In the second body of `splitBodies` the name means the variable around the namespace, though the
first body exports a member of that name and both bodies are of one namespace. -/
theorem other_body_does_not_hide_outer_name :
    ∃ ns body use, (ofSources [splitBodies]).UsedInBody splitBodies ns body use ['X'] ∧
      splitBodies.outerNames ns =
        (splitBodies.namespaceDeclarations ns.tree).map (.shared, ·) ∧
      (splitBodies.namespaceDeclarations ns.tree).map (·.name) = [['N']] ∧
      (∃ other ∈ Position.meaningful splitBodies.tree, splitBodies.ExportsFrom other ['X'] ∧
        (ofSources [splitBodies]).symbols.find? .shared ['N'] = some 1 ∧
        (ofSources [splitBodies]).symbols.member 1 ['X'] = some 2) ∧
      (ofSources [splitBodies]).symbols.declarationOf? splitBodies use = some 0 ∧
      (ofSources [splitBodies]).symbols.find? .shared ['X'] = some 0 := by
  obtain ⟨ns, body, use, hused, hnames, hname, hmeant⟩ := usedInBody_splitBodies
  obtain ⟨other, hother, hexports, hnamespace, hmember, houter⟩ :
      ∃ other, (Position.meaningful splitBodies.tree)[7]? = some other ∧
        splitBodies.ExportsFrom other ['X'] ∧
        (ofSources [splitBodies]).symbols.find? .shared ['N'] = some 1 ∧
        (ofSources [splitBodies]).symbols.member 1 ['X'] = some 2 ∧
        (ofSources [splitBodies]).symbols.find? .shared ['X'] = some 0 := by
    refine ⟨_, rfl, ?_⟩
    decide +kernel
  exact ⟨ns, body, use, hused, hnames, hname,
    ⟨other, List.mem_of_getElem? hother, hexports, hnamespace, hmember⟩, hmeant, houter⟩

end Program

end LiteralFolding
