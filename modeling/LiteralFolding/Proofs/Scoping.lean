-- Lexical scoping. What a name means at a place is found by going outwards: the innermost scope
-- that some declaration of the name goes to decides, and in it the first such declaration.
-- Which scope a declaration goes to follows from the nodes above it alone.
import LiteralFolding.Program
import LiteralFolding.Proofs.Collecting
import LiteralFolding.Proofs.Patterns

namespace LiteralFolding

/-! ## The search -/

/-- The first declaration of a name that goes to a scope. -/
def firstIn (listing : List (Scope × Declaration)) (name : Text) (scope : Scope) :
    Option Declaration :=
  (listing.find? fun x => x.1 = scope ∧ x.2.name = name).map (·.2)

/-- The scopes that a place sees: its own, those of the places around it, and the shared one. -/
def scopesFrom (source : Nat) (route : Route) : List Scope :=
  route.tails.map (.place source) ++ [.shared]

/-- What a name means at a place, by the listed declarations. -/
def searchOutwards (listing : List (Scope × Declaration)) (source : Nat) (name : Text)
    (route : Route) : Option Declaration :=
  (scopesFrom source route).findSome? (firstIn listing name)

/-- The declarations of the places in their order, place after place. Nothing is said about the
order of the names in one import. -/
inductive Lists : List (Source × Position) → List (Scope × Declaration) → Prop
  | nil : Lists [] []
  | cons {s : Source} {p : Position} {names : List (Scope × Declaration)}
      {places : List (Source × Position)} {listing : List (Scope × Declaration)}
      (hsame : names.Perm (s.lexicalNames p))
      (horder : p.kind ≠ .importStatement → names = s.lexicalNames p)
      (hrest : Lists places listing) : Lists ((s, p) :: places) (names ++ listing)

theorem Lists.flatMap_lexicalNames (places : List (Source × Position)) :
    Lists places (places.flatMap fun (s, p) => s.lexicalNames p) := by
  induction places with
  | nil => exact .nil
  | cons place places ih => exact .cons (.refl _) (fun _ => rfl) ih

/-! ## One scope -/

/-- The act declares the name in a scope of the text. -/
def Act.goesTo (scope : Scope) (name : Text) (a : Act) : Bool :=
  a.lexical?.any fun x => x.1 = scope ∧ x.2.name = name

namespace Ledger

open Act

variable {acts : List Act} {a : Act} {i : Nat} {scope : Scope} {name : Text}

/-- In a scope of the text only acts that go there declare a name. -/
theorem declares_iff_goesTo {number : Nat → Nat} (h : ∀ c, scope ≠ .members c) :
    Declares number scope name a ↔ a.goesTo scope name = true := by
  have hmembers : ∀ c, .members c ≠ scope := fun c => (h c).symm
  unfold Declares Enters goesTo
  cases a with
  | inScope own d exportedTo => simp [home, container?, lexical?, declaration, hmembers]
  | inside container d => simp [home, container?, lexical?, hmembers]

theorem eq_inScope_of_declares {number : Nat → Nat} (hscope : ∀ c, scope ≠ .members c)
    (h : Declares number scope name a) :
    ∃ d exportedTo, a = .inScope scope d exportedTo ∧ d.name = name := by
  have hgoes := (declares_iff_goesTo hscope).mp h
  cases a with
  | inside container d => cases hgoes
  | inScope own d exportedTo =>
    obtain ⟨rfl, rfl⟩ : own = scope ∧ d.name = name := by simpa [goesTo, lexical?] using hgoes
    exact ⟨d, exportedTo, rfl, rfl⟩

/-- The first act of a name in its own scope stands on record itself. -/
theorem declaration?_of_first (h : Orderly acts) (ha : acts[i]? = some a)
    (hfirst : First acts
      (Declares (ofActs acts).number (a.home (ofActs acts).number) a.declaration.name) i) :
    (ofActs acts).table.declaration? ((ofActs acts).number i) = some a.declaration := by
  rcases number_cases h ha with ⟨_, hrecord⟩ | ⟨_, ⟨k, hk, hfirst', _⟩, _⟩
  · exact hrecord
  · have := hfirst.unique hfirst'
    omega

theorem find?_of_first {test : Act → Bool} (h : First acts (test · = true) i)
    (ha : acts[i]? = some a) : acts.find? test = some a := by
  obtain ⟨⟨b, hb, htest⟩, hbefore⟩ := h
  obtain rfl := Option.some.inj (hb.symm.trans ha)
  obtain ⟨hi, rfl⟩ := List.getElem?_eq_some_iff.mp ha
  rw [List.find?_eq_some_iff_getElem]
  refine ⟨htest, i, hi, rfl, ?_⟩
  intro j hj
  simpa using hbefore j hj acts[j] (List.getElem?_eq_getElem _)

theorem firstIn_filterMap (acts : List Act) (scope : Scope) (name : Text) :
    firstIn (acts.filterMap lexical?) name scope =
      (acts.find? (goesTo scope name)).bind fun a => a.lexical?.map (·.2) := by
  unfold firstIn
  rw [List.find?_filterMap]
  cases hfind : acts.find? (goesTo scope name) with
  | none => exact congrArg (fun x => (x.bind lexical?).map (·.2)) hfind
  | some a => exact congrArg (fun x => (x.bind lexical?).map (·.2)) hfind

/-- A name of a scope of the text stands for the first declaration of it that goes there. -/
theorem find?_eq_firstIn (h : Orderly acts) (hscope : ∀ c, scope ≠ .members c) :
    ((ofActs acts).table.find? scope name).map (ofActs acts).table.declaration? =
      (firstIn (acts.filterMap lexical?) name scope).map some := by
  have hgoes : ∀ a ∈ acts, Declares (ofActs acts).number scope name a ↔
      a.goesTo scope name = true := fun a _ => declares_iff_goesTo hscope
  rw [firstIn_filterMap]
  cases hfind : (ofActs acts).table.find? scope name with
  | none =>
    have hnone : acts.find? (goesTo scope name) = none := by
      rw [List.find?_eq_none]
      intro a ha hpass
      obtain ⟨i, hi⟩ := List.getElem?_of_mem ha
      obtain ⟨j, _, hj⟩ := exists_first hi ((hgoes a ha).mpr hpass)
      have hsome := (find?_ofActs h).mpr ⟨j, hj, rfl⟩
      cases hfind.symm.trans hsome
    simp [hnone]
  | some id =>
    obtain ⟨i, hfirst, rfl⟩ := (find?_ofActs h).mp hfind
    obtain ⟨a, ha, hdeclares⟩ := hfirst.1
    rw [find?_of_first ((first_congr hgoes).mp hfirst) ha]
    obtain ⟨d, exportedTo, rfl, rfl⟩ := eq_inScope_of_declares hscope hdeclares
    have hrecord := declaration?_of_first h ha hfirst
    simp [lexical?, hrecord, declaration]

end Ledger

/-! ## All scopes -/

theorem SymbolTable.lookup_eq_findSome? (table : SymbolTable) (source : Nat) (name : Text)
    (route : Route) :
    table.lookup source name route =
      (scopesFrom source route).findSome? (table.find? · name) := by
  unfold scopesFrom
  induction route with
  | nil =>
    simp only [lookup, List.tails, List.map_cons, List.map_nil, List.cons_append,
      List.nil_append, List.findSome?_cons, List.findSome?_nil]
    cases table.find? (.place source []) name <;> cases table.find? .shared name <;> rfl
  | cons step route ih =>
    simp only [lookup, List.tails, List.map_cons, List.cons_append, List.findSome?_cons, ih]
    cases table.find? (.place source (step :: route)) name <;> rfl

theorem ne_members_of_mem_scopesFrom {source : Nat} {route : Route} {scope : Scope}
    (h : scope ∈ scopesFrom source route) (c : Nat) : scope ≠ .members c := by
  unfold scopesFrom at h
  rcases List.mem_append.mp h with h | h
  · obtain ⟨_, _, rfl⟩ := List.mem_map.mp h
    simp
  · obtain rfl := List.mem_singleton.mp h
    simp

theorem findSome?_congr {α β : Type} {f g : α → Option β} {l : List α}
    (h : ∀ a ∈ l, f a = g a) : l.findSome? f = l.findSome? g := by
  induction l with
  | nil => rfl
  | cons a l ih =>
    rw [List.findSome?_cons, List.findSome?_cons, h a (List.mem_cons_self ..),
      ih fun b hb => h b (List.mem_cons_of_mem _ hb)]

theorem SymbolTable.lookup_ofSources (sources : List Source) (source : Nat) (name : Text)
    (route : Route) :
    ((ofSources sources).lookup source name route).map (ofSources sources).declaration? =
      (searchOutwards ((Source.places sources).flatMap fun (s, p) => s.lexicalNames p) source name
        route).map some := by
  rw [lookup_eq_findSome?, searchOutwards, List.map_findSome?, List.map_findSome?,
    ← (Emits.acts_of_sources sources).filterMap_lexical?, ofSources_eq]
  apply findSome?_congr
  intro scope hscope
  exact Ledger.find?_eq_firstIn (Source.orderly_acts sources) (ne_members_of_mem_scopesFrom hscope)

/-! ## The names of one place stand in the order of the text -/

namespace Tree

mutual

/-- The nodes of a tree, each before those below it. -/
def nodes : Tree → List Node
  | .mk node children => node :: nodesOfAll children

def nodesOfAll : List Tree → List Node
  | [] => []
  | t :: ts => nodes t ++ nodesOfAll ts

end

theorem nodes_eq (t : Tree) : t.nodes = t.node :: nodesOfAll t.children := by
  cases t with
  | mk node children => rw [nodes, Tree.node, Tree.children]

theorem node_sublist_nodes (t : Tree) : [t.node].Sublist t.nodes := by
  rw [nodes_eq]
  simp

theorem flatMap_sublist_nodesOfAll {f : Tree → List Node} {ts : List Tree}
    (h : ∀ t ∈ ts, (f t).Sublist t.nodes) : (ts.flatMap f).Sublist (nodesOfAll ts) := by
  induction ts with
  | nil => exact .refl _
  | cons t ts ih =>
    rw [List.flatMap_cons, nodesOfAll]
    exact (h t (List.mem_cons_self ..)).append (ih fun u hu => h u (List.mem_cons_of_mem _ hu))

theorem nodesOfAll_sublist {ts us : List Tree} (h : ts.Sublist us) :
    (nodesOfAll ts).Sublist (nodesOfAll us) := by
  induction h with
  | slnil => exact .refl _
  | cons u _ ih => exact ih.trans (List.sublist_append_right _ _)
  | cons_cons u _ ih => exact (List.Sublist.refl _).append ih

theorem nodesOfAll_children_sublist (t : Tree) : (nodesOfAll t.children).Sublist t.nodes := by
  rw [nodes_eq]
  exact List.sublist_cons_self _ _

theorem nodes_sublist_of_child? {t u : Tree} {field : Field} (h : t.child? field = some u) :
    u.nodes.Sublist t.nodes := by
  have hmem : [u].Sublist t.children := List.singleton_sublist.mpr (List.mem_of_find?_eq_some h)
  have hself : nodesOfAll [u] = u.nodes := by simp [nodesOfAll]
  rw [← hself]
  exact (nodesOfAll_sublist hmem).trans t.nodesOfAll_children_sublist

theorem nodesOfAll_namedChildren_sublist (t : Tree) :
    (nodesOfAll t.namedChildren).Sublist t.nodes :=
  (nodesOfAll_sublist List.filter_sublist).trans t.nodesOfAll_children_sublist

mutual

theorem namesByForm_sublist_nodes : (t : Tree) → t.namesByForm.Sublist t.nodes
  | .mk node children => by
    rw [namesByForm, nodes]
    split
    · simp
    · simp
    · exact (namesByFormIn_sublist_nodes _ children).cons _
    · exact (namesByFormIn_sublist_nodes _ children).cons _
    · exact (namesByFormIn_sublist_nodes _ children).cons _
    · exact (namesByFormOfAll_sublist_nodes children).cons _
    · exact (namesByFormOfAll_sublist_nodes children).cons _
    · exact (namesByFormOfAll_sublist_nodes children).cons _
    · exact List.nil_sublist _

theorem namesByFormIn_sublist_nodes (field : Field) :
    (ts : List Tree) → (namesByFormIn field ts).Sublist (nodesOfAll ts)
  | [] => .refl _
  | t :: ts => by
    rw [namesByFormIn, nodesOfAll]
    split
    · exact (namesByForm_sublist_nodes t).trans (List.sublist_append_left _ _)
    · exact (namesByFormIn_sublist_nodes field ts).trans (List.sublist_append_right _ _)

theorem namesByFormOfAll_sublist_nodes :
    (ts : List Tree) → (namesByFormOfAll ts).Sublist (nodesOfAll ts)
  | [] => .refl _
  | t :: ts => by
    rw [namesByFormOfAll, nodesOfAll]
    refine List.Sublist.append ?_ (namesByFormOfAll_sublist_nodes ts)
    split
    · exact namesByForm_sublist_nodes t
    · exact List.nil_sublist _

end

theorem boundNames_sublist_nodes (t : Tree) : t.boundNames.Sublist t.nodes := by
  rw [boundNames_eq_namesByForm]
  exact t.namesByForm_sublist_nodes

mutual

theorem nameParts_sublist_nodes : (t : Tree) → t.nameParts.Sublist t.nodes
  | .mk node children => by
    rw [nameParts, nodes]
    split
    · simp
    · simp
    · exact (namePartsOfAll_sublist_nodes children).cons _

theorem namePartsOfAll_sublist_nodes :
    (ts : List Tree) → (namePartsOfAll ts).Sublist (nodesOfAll ts)
  | [] => .refl _
  | t :: ts => by
    rw [namePartsOfAll, nodesOfAll]
    refine List.Sublist.append ?_ (namePartsOfAll_sublist_nodes ts)
    split
    · exact nameParts_sublist_nodes t
    · exact List.nil_sublist _

end

theorem namespaceParts_sublist_nodes (t : Tree) : (t.namespaceParts?.getD []).Sublist t.nodes := by
  unfold namespaceParts?
  split
  · exact t.node_sublist_nodes
  · exact t.nameParts_sublist_nodes
  · exact t.nameParts_sublist_nodes
  · exact List.nil_sublist _

/-- Names taken from one child stand in the order of the text if they do so in the child. -/
theorem flatMap_child?_sublist_nodes {f : Tree → List Node} (h : ∀ t, (f t).Sublist t.nodes)
    (t : Tree) (field : Field) : ((t.child? field).toList.flatMap f).Sublist t.nodes := by
  cases hchild : t.child? field with
  | none => exact List.nil_sublist _
  | some u => simpa using (h u).trans (nodes_sublist_of_child? hchild)

end Tree

namespace Source

open SymbolTable

/-- The declarations are of nodes of the tree, one after the other in the order of the text. -/
def InTextOrder (s : Source) (t : Tree) (ds : List Declaration) : Prop :=
  ∃ nodes : List Node, nodes.Sublist t.nodes ∧
    ds.map (fun d => (d.name, d.location)) = nodes.map fun n => (s.textOf n, s.locationOf n)

variable {s : Source} {t : Tree}

theorem InTextOrder.of_nodes {α : Type} {xs : List α} {declare : α → Declaration} (node : α → Node)
    (hname : ∀ x, (declare x).name = s.textOf (node x))
    (hlocation : ∀ x, (declare x).location = s.locationOf (node x))
    (h : (xs.map node).Sublist t.nodes) : s.InTextOrder t (xs.map declare) := by
  refine ⟨xs.map node, h, ?_⟩
  simp [hname, hlocation]

theorem InTextOrder.nil : s.InTextOrder t [] := ⟨[], List.nil_sublist _, rfl⟩

theorem inTextOrder_plain (kind : DeclarationKind) {names : List Node}
    (h : names.Sublist t.nodes) : s.InTextOrder t (s.plainDeclarations kind names) :=
  .of_nodes id (fun _ => rfl) (fun _ => rfl) (by simpa using h)

theorem inTextOrder_own (kind : DeclarationKind) : s.InTextOrder t (s.ownDeclaration kind t) := by
  refine .of_nodes Tree.node (fun _ => rfl) (fun _ => rfl) ?_
  cases hname : t.child? .name with
  | none => exact List.nil_sublist _
  | some name => exact name.node_sublist_nodes.trans (Tree.nodes_sublist_of_child? hname)

theorem declaratorNames_sublist_nodes (s : Source) (t : Tree) :
    ((declaratorNames s t).map (·.1)).Sublist t.nodes := by
  unfold declaratorNames
  cases hname : t.child? .name with
  | none => exact List.nil_sublist _
  | some name =>
    have hnodes := Tree.nodes_sublist_of_child? hname
    simp only
    split
    · exact name.node_sublist_nodes.trans hnodes
    · simpa [Function.comp_def] using name.boundNames_sublist_nodes.trans hnodes

theorem inTextOrder_variables (kind : DeclarationKind) :
    s.InTextOrder t (s.variableDeclarations kind t) := by
  refine .of_nodes Prod.fst (fun _ => rfl) (fun _ => rfl) ?_
  rw [List.map_flatMap]
  have hdeclarators := Tree.nodesOfAll_sublist
    (List.filter_sublist (p := fun u : Tree => u.kind = .variableDeclarator) (l := t.namedChildren))
  exact (Tree.flatMap_sublist_nodesOfAll fun u _ => declaratorNames_sublist_nodes s u).trans
    (hdeclarators.trans t.nodesOfAll_namedChildren_sublist)

theorem inTextOrder_namespace : s.InTextOrder t ((s.namespaceDeclarations t).take 1) := by
  unfold namespaceDeclarations
  rw [← List.map_take]
  refine .of_nodes id (fun _ => rfl) (fun _ => rfl) ?_
  rw [List.map_id]
  refine (List.take_sublist _ _).trans ?_
  cases hname : t.child? .name with
  | none => exact List.nil_sublist _
  | some name => exact name.namespaceParts_sublist_nodes.trans (Tree.nodes_sublist_of_child? hname)

/-- Outside of imports a place declares its names in the order of the text. -/
theorem inTextOrder_outerNames {p : Position} (h : p.kind ≠ .importStatement) :
    s.InTextOrder p.tree ((s.outerNames p).map (·.2)) := by
  obtain ⟨scope, ds, hnames, _, hlisted⟩ := s.exists_listed p
  have hds : (s.outerNames p).map (·.2) = ds := by
    rw [hnames, List.map_map]
    exact List.map_id ds
  rw [hds]
  cases hlisted with
  | declared => exact inTextOrder_variables _
  | own => exact inTextOrder_own _
  | outermost => exact inTextOrder_namespace
  | imported hkind => exact absurd hkind h
  | bound kind field =>
    exact inTextOrder_plain kind
      (Tree.flatMap_child?_sublist_nodes Tree.boundNames_sublist_nodes p.tree field)
  | nothing => exact .nil

/-- So does a function its parameters, whether it has one or a list of them. -/
theorem inTextOrder_parameters (h : t.child? .parameter = none ∨ t.child? .parameters = none) :
    s.InTextOrder t (s.plainDeclarations .parameter (parameterNames t)) := by
  have hlisted : ((t.child? .parameters).toList.flatMap fun u => u.namedChildren.flatMap fun v =>
      ((v.child? .pattern).getD v).boundNames).Sublist t.nodes := by
    refine Tree.flatMap_child?_sublist_nodes (fun u => ?_) t .parameters
    refine (Tree.flatMap_sublist_nodesOfAll fun v _ => ?_).trans u.nodesOfAll_namedChildren_sublist
    refine (Tree.boundNames_sublist_nodes _).trans ?_
    cases hpattern : v.child? .pattern with
    | none => exact .refl _
    | some w => exact Tree.nodes_sublist_of_child? hpattern
  have hsingle := Tree.flatMap_child?_sublist_nodes Tree.boundNames_sublist_nodes t .parameter
  apply inTextOrder_plain
  unfold parameterNames
  rcases h with h | h
  · simpa [h, List.flatMap_assoc] using hlisted
  · simpa [h] using hsingle

end Source

/-! ## Lexical scoping -/

namespace Program

/-- A name means what the search outwards finds among the declarations in the order of their
places. The names of one place stand in the order of the text, but for those of an import, and
the parameters of a function come before its own name. -/
theorem lookup_searches_outwards (sources : List Source) :
    (∃ listing, Lists (Source.places (ofSources sources).sources) listing ∧
      ∀ (source : Nat) (name : Text) (route : Route),
        ((ofSources sources).symbols.lookup source name route).map
            (ofSources sources).symbols.declaration? =
          (searchOutwards listing source name route).map some) ∧
      (∀ (s : Source) (p : Position), p.kind ≠ .importStatement →
        s.InTextOrder p.tree ((s.outerNames p).map (·.2))) ∧
      ∀ (s : Source) (t : Tree), t.child? .parameter = none ∨ t.child? .parameters = none →
        s.InTextOrder t (s.plainDeclarations .parameter (SymbolTable.parameterNames t)) := by
  refine ⟨⟨_, Lists.flatMap_lexicalNames _, ?_⟩, ?_, ?_⟩
  · intro source name route
    exact SymbolTable.lookup_ofSources (Source.number sources) source name route
  · intro s p h
    exact Source.inTextOrder_outerNames h
  · intro s t h
    exact Source.inTextOrder_parameters h

/-- The script `f=function*g(g){}`. -/
def generator : Source where
  index := 0
  path := []
  dialect := .javaScript
  text := ['f', '=', 'f', 'u', 'n', 'c', 't', 'i', 'o', 'n', '*', 'g', '(', 'g', ')', '{', '}']
  tree := .piece (.other "program") none 0 17 [.piece (.other "expression_statement") none 0 17 [
    .piece (.other "assignment_expression") none 0 17 [.piece .identifier (some .left) 0 1 [],
      .piece .generatorFunction (some .right) 2 17 [.piece .identifier (some .name) 11 12 [],
        .piece (.other "formal_parameters") (some .parameters) 12 15 [
          .piece .identifier none 13 14 []],
        .piece .statementBlock (some .body) 15 17 []]]]]

/-- Inside `function*g(g){}` the name means the parameter, and the function's own name, which
goes to the same scope, stands before it in the text. -/
theorem parameter_hides_own_name :
    ∃ own parameter : Declaration,
      (Source.places (ofSources [generator]).sources).flatMap (fun (s, p) => s.lexicalNames p) =
        [(.place 0 [1, 0, 0], parameter), (.place 0 [1, 0, 0], own)] ∧
      own.name = parameter.name ∧ own.location.startColumn < parameter.location.startColumn ∧
      ((ofSources [generator]).symbols.lookup 0 own.name [2, 1, 0, 0]).bind
        (ofSources [generator]).symbols.declaration? = some parameter ∧ own ≠ parameter := by
  refine ⟨SymbolTable.declarationAt generator
      { kind := .identifier, field := some .name, span := ⟨11, 12⟩, named := true, broken := false }
      .function (.expression .generatorFunction),
    SymbolTable.declarationAt generator
      { kind := .identifier, field := none, span := ⟨13, 14⟩, named := true, broken := false }
      .parameter .missing, ?_⟩
  decide +kernel

end Program

end LiteralFolding
