-- What a program declares, act by act. The scope of a name follows from the nodes above the
-- declaring node alone, and whose member an exported name becomes from the namespace around it.
-- The symbol table of a program is the ledger of its acts.
import LiteralFolding.Proofs.Ledger
import LiteralFolding.Symbol.Collect

namespace LiteralFolding

/-! ## Scopes by the nodes above -/

/-- Kinds that keep the names of the blocks below them. -/
def Kind.opensBlock : Kind → Bool
  | .statementBlock | .forStatement | .forInStatement | .switchBody | .catchClause
  | .classBody => true
  | kind => kind.isFunctionLike

/-- The nearest node above a place that passes a test, as the way down to it. The test sees the
kind of the node and that of its parent. -/
def Position.nearestAbove (test : Kind → Option Kind → Bool) : List Node → Route → Option Route
  | n :: above, _ :: route =>
    if test n.kind (above.head?.map (·.kind)) then some route else nearestAbove test above route
  | _, _ => none

/-- What the variables of a declaration are. -/
def Position.variableKind? (p : Position) : Option DeclarationKind :=
  match p.kind with
  | .lexicalDeclaration =>
    if (p.tree.children.head?.map (·.kind)) = some .constKeyword then some .constBinding
    else some .letBinding
  | .variableDeclaration => some .varBinding
  | _ => none

namespace Source

open SymbolTable

variable (s : Source)

/-- The scope of the names at the top of a source. -/
def topScope : Scope := if s.isModule then .place s.index [] else .shared

def scopeAbove (test : Kind → Option Kind → Bool) (p : Position) : Scope :=
  ((Position.nearestAbove test p.above p.route).map (.place s.index)).getD s.topScope

/-- Where a name goes that the nearest block keeps. -/
def blockScope (p : Position) : Scope := s.scopeAbove (fun kind _ => kind.opensBlock) p

/-- Where a name goes that only a function or the body of a namespace keeps. -/
def functionScope (p : Position) : Scope :=
  s.scopeAbove (fun kind parent =>
    kind.isFunctionLike || kind = .statementBlock && parent.any (·.isNamespace)) p

/-! ## The names of one node -/

def variableDeclarations (kind : DeclarationKind) (t : Tree) : List Declaration :=
  ((t.namedChildren.filter (·.kind = .variableDeclarator)).flatMap (declaratorNames s)).map
    fun (name, initializer) => declarationAt s name kind initializer

def ownDeclaration (kind : DeclarationKind) (t : Tree) : List Declaration :=
  (t.child? .name).toList.map fun name => declarationAt s name.node kind (.expression t.kind)

def plainDeclarations (kind : DeclarationKind) (names : List Node) : List Declaration :=
  names.map fun name => declarationAt s name kind .missing

/-- A dotted name declares a namespace for each part. -/
def namespaceDeclarations (t : Tree) : List Declaration :=
  (((t.child? .name).bind (·.namespaceParts?)).getD []).map fun name =>
    declarationAt s name .namespaceBlock (.expression t.kind)

def entryDeclarations (t : Tree) : List Declaration :=
  ((t.child? .body).toList.flatMap (·.namedChildren)).filterMap (enumMember? s)

/-- What a function declares for its inside: its parameters, and after them its own name. -/
def innerNames (p : Position) : List (Scope × Declaration) :=
  if p.kind.isFunctionLike then
    (s.plainDeclarations .parameter (parameterNames p.tree) ++
      if namesItself p.kind then s.ownDeclaration .function p.tree else []).map
        (.place s.index p.route, ·)
  else []

/-- All else that a node declares in the scopes of the text. -/
def outerNames (p : Position) : List (Scope × Declaration) :=
  match p.kind with
  | .lexicalDeclaration =>
    let kind :=
      if (p.tree.children.head?.map (·.kind)) = some .constKeyword then DeclarationKind.constBinding
      else .letBinding
    (s.variableDeclarations kind p.tree).map (s.blockScope p, ·)
  | .variableDeclaration => (s.variableDeclarations .varBinding p.tree).map (s.functionScope p, ·)
  | .functionDeclaration | .generatorFunctionDeclaration | .functionSignature =>
    (s.ownDeclaration .function p.tree).map (s.blockScope p, ·)
  | .classDeclaration | .abstractClassDeclaration =>
    (s.ownDeclaration .classType p.tree).map (s.blockScope p, ·)
  | .enumDeclaration => (s.ownDeclaration .enumeration p.tree).map (s.blockScope p, ·)
  | .internalModule | .externalModule =>
    ((s.namespaceDeclarations p.tree).take 1).map (s.blockScope p, ·)
  | .importStatement =>
    (s.plainDeclarations .importBinding p.tree.importedNames).map (s.blockScope p, ·)
  | .catchClause =>
    (s.plainDeclarations .parameter ((p.tree.child? .parameter).toList.flatMap (·.boundNames))).map
      (.place s.index p.route, ·)
  | .forInStatement =>
    match p.tree.child? .keyword, p.tree.child? .left with
    | some keyword, some left =>
      match keyword.kind with
      | .varKeyword => (s.plainDeclarations .varBinding left.boundNames).map (s.functionScope p, ·)
      | .constKeyword =>
        (s.plainDeclarations .constBinding left.boundNames).map (.place s.index p.route, ·)
      | _ => (s.plainDeclarations .letBinding left.boundNames).map (.place s.index p.route, ·)
    | _, _ => []
  | _ => []

/-- What a node declares in the scopes of the text, with the scope of each name. -/
def lexicalNames (p : Position) : List (Scope × Declaration) := s.innerNames p ++ s.outerNames p

/-! ## The acts of one node -/

/-- Does an export statement hold the names of the node? -/
def exports (p : Position) : Bool :=
  match p.kind with
  | .importStatement | .catchClause | .forInStatement => false
  | _ => p.parentKind? = some .exportStatement

/-- The acts inside the enumeration or namespace that the node itself declares in act `n`. -/
def memberActs (p : Position) (n : Nat) : List Act :=
  match p.kind with
  | .enumDeclaration =>
    if (p.tree.child? .name).isSome then (s.entryDeclarations p.tree).map (.inside n ·) else []
  | .internalModule | .externalModule =>
    ((s.namespaceDeclarations p.tree).tail.zipIdx n).map fun (d, i) => .inside i d
  | _ => []

/-- The acts of a node, the first of them act `n`. What it exports becomes a member of `owner`. -/
def actsAt (owner : Option Nat) (p : Position) (n : Nat) : List Act :=
  (s.innerNames p).map (fun (scope, d) => .inScope scope d none) ++
    (s.outerNames p).map (fun (scope, d) => .inScope scope d (if exports p then owner else none)) ++
    s.memberActs p n

/-- The act of the innermost namespace that the node declares. -/
def openedAt (p : Position) (n : Nat) : Option Nat :=
  if p.kind.isNamespace then
    match s.namespaceDeclarations p.tree with
    | [] => none
    | _ :: rest => some (n + rest.length)
  else none

/-- The act that exports below a node go to: that of the namespace whose body they stand in. -/
def ownerBelow (owner : Option Nat) (p : Position) (n : Nat) : Option Nat :=
  match p.kind with
  | .internalModule | .externalModule => s.openedAt p n
  | .statementBlock => if p.parentKind?.any (·.isNamespace) then owner else none
  | .exportStatement | .ambientDeclaration => owner
  | _ => none

mutual

/-- The acts of a tree at its place, the first of them act `n`. -/
def actsTree (owner : Option Nat) (above : List Node) (route : Route) (t : Tree) (n : Nat) :
    List Act :=
  match t with
  | .mk node children =>
    let p : Position := { tree := .mk node children, above, route }
    let acts := s.actsAt owner p n
    acts ++ actsAll (s.ownerBelow owner p n) (node :: above) route 0 children (n + acts.length)

/-- The acts of the meaningful ones of sibling trees, the first of them child number `i`. -/
def actsAll (owner : Option Nat) (above : List Node) (route : Route) (i : Nat) (ts : List Tree)
    (n : Nat) : List Act :=
  match ts with
  | [] => []
  | t :: ts =>
    let acts := if t.node.named then actsTree owner above (i :: route) t n else []
    acts ++ actsAll owner above route (i + 1) ts (n + acts.length)

end

/-- The acts of a program, source after source. -/
def acts (sources : List Source) : List Act :=
  sources.foldl (fun acts s => acts ++ s.actsTree none [] [] s.tree acts.length) []

theorem acts_snoc (sources : List Source) (s : Source) :
    acts (sources ++ [s]) =
      acts sources ++ s.actsTree none [] [] s.tree (acts sources).length := by
  simp [acts, List.foldl_append]

/-! ## Scopes below a node -/

variable {s} {p : Position} {owner : Option Nat} {n : Nat}

theorem blockScope_below (s : Source) (p : Position) (t : Tree) (i : Nat) :
    s.blockScope { tree := t, above := p.node :: p.above, route := i :: p.route } =
      if p.kind.opensBlock then .place s.index p.route else s.blockScope p := by
  unfold blockScope scopeAbove
  rw [Position.nearestAbove]
  change (Option.map _ (if p.kind.opensBlock = true then _ else _)).getD _ = _
  split <;> rfl

theorem functionScope_below (s : Source) (p : Position) (t : Tree) (i : Nat) :
    s.functionScope { tree := t, above := p.node :: p.above, route := i :: p.route } =
      if p.kind.isFunctionLike || p.kind = .statementBlock && p.parentKind?.any (·.isNamespace) then
        .place s.index p.route
      else s.functionScope p := by
  unfold functionScope scopeAbove
  rw [Position.nearestAbove]
  change (Option.map _ (if (p.kind.isFunctionLike || p.kind = .statementBlock &&
    p.parentKind?.any (·.isNamespace)) = true then _ else _)).getD _ = _
  split <;> rfl

/-! ## The acts of a namespace -/

theorem innerNames_of_isNamespace (h : p.kind.isNamespace) : s.innerNames p = [] := by
  have : p.kind.isFunctionLike = false := by
    revert h
    cases p.kind <;> simp [Kind.isNamespace, Kind.isFunctionLike]
  simp [innerNames, this]

theorem outerNames_of_isNamespace (h : p.kind.isNamespace) :
    s.outerNames p = ((s.namespaceDeclarations p.tree).take 1).map (s.blockScope p, ·) := by
  revert h
  unfold outerNames
  cases p.kind <;> simp [Kind.isNamespace]

theorem memberActs_of_isNamespace (h : p.kind.isNamespace) :
    s.memberActs p n =
      ((s.namespaceDeclarations p.tree).tail.zipIdx n).map fun (d, i) => .inside i d := by
  revert h
  unfold memberActs
  cases p.kind <;> simp [Kind.isNamespace]

theorem openedAt_lt {c : Nat} (h : c ∈ s.openedAt p n) : c < n + (s.actsAt owner p n).length := by
  unfold openedAt at h
  split at h
  · rename_i hkind
    unfold actsAt
    rw [innerNames_of_isNamespace hkind, outerNames_of_isNamespace hkind,
      memberActs_of_isNamespace hkind]
    cases hparts : s.namespaceDeclarations p.tree with
    | nil => simp [hparts] at h
    | cons first rest =>
      simp only [hparts, Option.mem_def, Option.some.injEq] at h
      simp
      omega
  · cases h

/-- What exports below a node go to has its act by then. -/
theorem ownerBelow_lt (h : ∀ c ∈ owner, c < n) :
    ∀ c ∈ s.ownerBelow owner p n, c < n + (s.actsAt owner p n).length := by
  intro c hc
  unfold ownerBelow at hc
  have hown : c ∈ owner → c < n + (s.actsAt owner p n).length := by
    intro hc
    have := h c hc
    omega
  split at hc
  · exact openedAt_lt hc
  · exact openedAt_lt hc
  · split at hc
    · exact hown hc
    · cases hc
  · exact hown hc
  · exact hown hc
  · cases hc

/-! ## Acts keep to their order -/

/-- The scopes that a source gives its names to: that of its top and those of its places. -/
def Owns (s : Source) (scope : Scope) : Prop :=
  scope = s.topScope ∨ ∃ route, scope = .place s.index route

theorem Owns.ne_members {scope : Scope} (h : s.Owns scope) (c : Nat) : scope ≠ .members c := by
  rcases h with rfl | ⟨route, rfl⟩
  · unfold topScope
    split <;> simp
  · simp

theorem owns_scopeAbove (s : Source) (test : Kind → Option Kind → Bool) (p : Position) :
    s.Owns (s.scopeAbove test p) := by
  unfold scopeAbove
  cases Position.nearestAbove test p.above p.route with
  | some route => exact .inr ⟨route, rfl⟩
  | none => exact .inl rfl

/-- What the names of one place can be, apart from what a function declares for its inside. -/
inductive Listed (s : Source) (p : Position) : List Declaration → Prop
  | declared {kind : DeclarationKind} (hkind : p.variableKind? = some kind) :
      Listed s p (s.variableDeclarations kind p.tree)
  | own (kind : DeclarationKind) : Listed s p (s.ownDeclaration kind p.tree)
  | outermost : Listed s p ((s.namespaceDeclarations p.tree).take 1)
  | imported (hkind : p.kind = .importStatement) :
      Listed s p (s.plainDeclarations .importBinding p.tree.importedNames)
  | bound (kind : DeclarationKind) (field : Field) :
      Listed s p
        (s.plainDeclarations kind ((p.tree.child? field).toList.flatMap (·.boundNames)))
  | nothing : Listed s p []

/-- A place gives its names to one scope of the text. -/
theorem exists_listed (s : Source) (p : Position) :
    ∃ scope ds, s.outerNames p = ds.map (scope, ·) ∧ s.Owns scope ∧ s.Listed p ds := by
  have hblock := s.owns_scopeAbove (fun kind _ => kind.opensBlock) p
  have hfunction := s.owns_scopeAbove (fun kind parent =>
    kind.isFunctionLike || kind = .statementBlock && parent.any (·.isNamespace)) p
  have hplace : s.Owns (.place s.index p.route) := .inr ⟨_, rfl⟩
  unfold outerNames
  split <;> rename_i hkind
  case h_1 =>
    refine ⟨_, _, rfl, hblock, .declared ?_⟩
    simp only [Position.variableKind?, hkind]
    split <;> rfl
  case h_2 =>
    exact ⟨_, _, rfl, hfunction, .declared (by simp only [Position.variableKind?, hkind])⟩
  case h_3 | h_4 | h_5 | h_6 | h_7 | h_8 => exact ⟨_, _, rfl, hblock, .own _⟩
  case h_9 | h_10 => exact ⟨_, _, rfl, hblock, .outermost⟩
  case h_11 => exact ⟨_, _, rfl, hblock, .imported hkind⟩
  case h_12 => exact ⟨_, _, rfl, hplace, .bound _ _⟩
  case h_13 =>
    split
    · rename_i keyword left _ hleft
      have hbound : left.boundNames = (p.tree.child? .left).toList.flatMap (·.boundNames) := by
        simp [hleft]
      rw [hbound]
      split
      · exact ⟨_, _, rfl, hfunction, .bound _ _⟩
      · exact ⟨_, _, rfl, hplace, .bound _ _⟩
      · exact ⟨_, _, rfl, hplace, .bound _ _⟩
    · exact ⟨s.topScope, [], rfl, .inl rfl, .nothing⟩
  case h_14 => exact ⟨s.topScope, [], rfl, .inl rfl, .nothing⟩

theorem owns_of_mem_lexicalNames {scope : Scope} {d : Declaration}
    (h : (scope, d) ∈ s.lexicalNames p) : s.Owns scope := by
  rcases List.mem_append.mp h with h | h
  · unfold innerNames at h
    split at h
    · simp only [List.mem_map, Prod.mk.injEq] at h
      obtain ⟨_, _, rfl, _⟩ := h
      exact .inr ⟨_, rfl⟩
    · cases h
  · obtain ⟨own, ds, hnames, hown, _⟩ := s.exists_listed p
    rw [hnames] at h
    obtain ⟨_, _, heq⟩ := List.mem_map.mp h
    cases heq
    exact hown

/-- What is declared inside an act of the same node comes after that act. -/
theorem memberActs_earlier {k c : Nat} {a : Act} (h : (s.memberActs p n)[k]? = some a)
    (hc : c ∈ a.container?) : 0 < (s.outerNames p).length ∧ c ≤ n + k := by
  by_cases hkind : p.kind.isNamespace
  · rw [memberActs_of_isNamespace hkind] at h
    rw [outerNames_of_isNamespace hkind]
    cases hparts : s.namespaceDeclarations p.tree with
    | nil => simp [hparts] at h
    | cons first rest =>
      simp only [hparts, List.tail_cons, List.getElem?_map, List.getElem?_zipIdx, Option.map_map,
        Option.map_eq_some_iff] at h
      obtain ⟨d, _, rfl⟩ := h
      obtain rfl := Option.some.inj hc
      simp
  · unfold memberActs at h
    split at h
    case h_1 hkind =>
      split at h
      · rename_i hname
        obtain ⟨name, hname⟩ := Option.isSome_iff_exists.mp hname
        simp only [List.getElem?_map, Option.map_eq_some_iff] at h
        obtain ⟨d, _, rfl⟩ := h
        obtain rfl := Option.some.inj hc
        simp [outerNames, hkind, ownDeclaration, hname]
      · cases h
    case h_4 => cases h
    all_goals simp_all [Kind.isNamespace]

/-- The acts of a node that go to scopes of the text are those of its names. -/
theorem filterMap_lexical?_actsAt (owner : Option Nat) (n : Nat) :
    (s.actsAt owner p n).filterMap Act.lexical? = s.lexicalNames p := by
  have hmembers : (s.memberActs p n).filterMap Act.lexical? = [] := by
    rw [List.filterMap_eq_nil_iff]
    intro a ha
    unfold memberActs at ha
    split at ha
    · split at ha
      · obtain ⟨d, _, rfl⟩ := List.mem_map.mp ha
        rfl
      · cases ha
    · obtain ⟨d, _, rfl⟩ := List.mem_map.mp ha
      rfl
    · obtain ⟨d, _, rfl⟩ := List.mem_map.mp ha
      rfl
    · cases ha
  have hscoped : ∀ (exportedTo : Option Nat) (names : List (Scope × Declaration)),
      (names.map fun (scope, d) => Act.inScope scope d exportedTo).filterMap Act.lexical? =
        names := by
    intro exportedTo names
    rw [List.filterMap_map]
    exact List.filterMap_some
  rw [actsAt, List.filterMap_append, List.filterMap_append, hmembers, hscoped, hscoped,
    List.append_nil, lexicalNames]

/-- A node declares members only of what was declared before. -/
theorem actsAt_earlier {i c : Nat} {a : Act} (howner : ∀ c ∈ owner, c < n)
    (h : (s.actsAt owner p n)[i]? = some a) (hc : c ∈ a.container?) : c < n + i := by
  have hexported : ∀ c ∈ (if exports p then owner else none), c < n := by
    intro c hc
    split at hc
    · exact howner c hc
    · cases hc
  unfold actsAt at h
  generalize (if exports p then owner else none) = exportedTo at h hexported
  rw [List.append_assoc, List.getElem?_append] at h
  split at h
  · simp only [List.getElem?_map, Option.map_eq_some_iff] at h
    obtain ⟨_, _, rfl⟩ := h
    cases hc
  · rw [List.getElem?_append] at h
    split at h
    · simp only [List.getElem?_map, Option.map_eq_some_iff] at h
      obtain ⟨_, _, rfl⟩ := h
      have := hexported c hc
      omega
    · obtain ⟨hpos, hle⟩ := memberActs_earlier h hc
      simp only [List.length_map] at *
      omega

end Source

/-! ## The places of a program -/

namespace Position

mutual

/-- A position and all below it that meaningful nodes lead to, each before what is below it. -/
def meaningfulFrom (above : List Node) (route : Route) : Tree → List Position
  | .mk node children =>
    { tree := .mk node children, above, route } :: meaningfulBelow (node :: above) route 0 children

/-- The same for sibling trees, the first of them child number `i`. -/
def meaningfulBelow (above : List Node) (route : Route) (i : Nat) : List Tree → List Position
  | [] => []
  | t :: ts =>
    (if t.node.named then meaningfulFrom above (i :: route) t else []) ++
      meaningfulBelow above route (i + 1) ts

end

def meaningful (t : Tree) : List Position := meaningfulFrom [] [] t

end Position

/-- The places of a program, source after source and in the order of each text. -/
def Source.places (sources : List Source) : List (Source × Position) :=
  sources.flatMap fun s => (Position.meaningful s.tree).map (s, ·)

/-- The places make the acts, one place after the other. The first act has number `n`, and what
a place exports goes to an act before its own. -/
inductive Emits : Nat → List (Source × Position) → List Act → Prop
  | nil (n : Nat) : Emits n [] []
  | cons {n : Nat} {owner : Option Nat} {s : Source} {p : Position}
      {places : List (Source × Position)} {acts : List Act} (howner : ∀ c ∈ owner, c < n)
      (hrest : Emits (n + (s.actsAt owner p n).length) places acts) :
      Emits n ((s, p) :: places) (s.actsAt owner p n ++ acts)

namespace Emits

variable {n : Nat} {places more : List (Source × Position)} {acts acts' : List Act}

theorem append (h : Emits n places acts) (h' : Emits (n + acts.length) more acts') :
    Emits n (places ++ more) (acts ++ acts') := by
  induction h with
  | nil n => simpa using h'
  | cons howner hrest ih =>
    rw [List.cons_append, List.append_assoc]
    refine .cons howner (ih ?_)
    rwa [List.length_append, ← Nat.add_assoc] at h'

mutual

theorem actsTree {s : Source} {owner : Option Nat} {n : Nat} (howner : ∀ c ∈ owner, c < n)
    (above : List Node) (route : Route) : (t : Tree) →
    Emits n ((Position.meaningfulFrom above route t).map (s, ·)) (s.actsTree owner above route t n)
  | .mk node children => by
    rw [Position.meaningfulFrom, Source.actsTree, List.map_cons]
    exact .cons howner (actsAll (Source.ownerBelow_lt howner) _ _ _ children)

theorem actsAll {s : Source} {owner : Option Nat} {n : Nat} (howner : ∀ c ∈ owner, c < n)
    (above : List Node) (route : Route) (i : Nat) : (ts : List Tree) →
    Emits n ((Position.meaningfulBelow above route i ts).map (s, ·))
      (s.actsAll owner above route i ts n)
  | [] => .nil n
  | t :: ts => by
    rw [Position.meaningfulBelow, Source.actsAll, List.map_append]
    refine append ?_ (actsAll ?_ above route (i + 1) ts)
    · split
      · exact actsTree howner above (i :: route) t
      · exact .nil n
    · intro c hc
      have := howner c hc
      omega

end

/-- The acts of a program are those of its places. -/
theorem acts_of_sources (sources : List Source) :
    Emits 0 (Source.places sources) (Source.acts sources) := by
  induction sources using List.reverseRecOn with
  | nil => exact .nil 0
  | append_singleton sources s ih =>
    have hplaces : Source.places (sources ++ [s]) =
        Source.places sources ++ (Position.meaningful s.tree).map (s, ·) := by
      simp [Source.places]
    rw [Source.acts_snoc, hplaces]
    refine ih.append ?_
    rw [Nat.zero_add]
    exact actsTree (by simp) [] [] s.tree

theorem exists_place {a : Act} (h : Emits n places acts) (ha : a ∈ acts) :
    ∃ s p owner n, (s, p) ∈ places ∧ a ∈ Source.actsAt s owner p n := by
  induction h with
  | nil n => cases ha
  | @cons n owner s p places acts howner hrest ih =>
    rcases List.mem_append.mp ha with ha | ha
    · exact ⟨s, p, owner, n, List.mem_cons_self .., ha⟩
    · obtain ⟨s', p', owner', n', hplace, hact⟩ := ih ha
      exact ⟨s', p', owner', n', List.mem_cons_of_mem _ hplace, hact⟩

/-- The names of the text in the order of their acts are those of place after place. -/
theorem filterMap_lexical? (h : Emits n places acts) :
    acts.filterMap Act.lexical? = places.flatMap fun (s, p) => s.lexicalNames p := by
  induction h with
  | nil n => rfl
  | cons howner hrest ih =>
    rw [List.filterMap_append, Source.filterMap_lexical?_actsAt, ih, List.flatMap_cons]

/-- An act that goes to a scope of the text is of a name of one of the places. -/
theorem exists_place_of_lexical? {a : Act} {scope : Scope} {d : Declaration}
    (h : Emits n places acts) (ha : a ∈ acts) (hname : a.lexical? = some (scope, d)) :
    ∃ s p, (s, p) ∈ places ∧ (scope, d) ∈ s.lexicalNames p := by
  have hmem : (scope, d) ∈ acts.filterMap Act.lexical? := List.mem_filterMap.mpr ⟨a, ha, hname⟩
  rw [h.filterMap_lexical?] at hmem
  obtain ⟨⟨s, p⟩, hplace, hnames⟩ := List.mem_flatMap.mp hmem
  exact ⟨s, p, hplace, hnames⟩

theorem earlier {i c : Nat} {a : Act} (h : Emits n places acts) (ha : acts[i]? = some a)
    (hc : c ∈ a.container?) : c < n + i := by
  induction h generalizing i with
  | nil n => simp at ha
  | cons howner hrest ih =>
    rw [List.getElem?_append] at ha
    split at ha
    · exact Source.actsAt_earlier howner ha hc
    · have := ih ha
      omega

end Emits

/-- A source declares in its own scopes only. -/
theorem Source.owns_of_mem_actsTree {s : Source} {n : Nat} {a : Act} {scope : Scope}
    {d : Declaration} (ha : a ∈ s.actsTree none [] [] s.tree n)
    (hname : a.lexical? = some (scope, d)) : s.Owns scope := by
  have hemits : Emits n ((Position.meaningfulFrom [] [] s.tree).map (s, ·))
      (s.actsTree none [] [] s.tree n) := Emits.actsTree (by simp) [] [] s.tree
  obtain ⟨_, p, hplace, hnames⟩ := hemits.exists_place_of_lexical? ha hname
  obtain ⟨_, _, heq⟩ := List.mem_map.mp hplace
  cases heq
  exact owns_of_mem_lexicalNames hnames

theorem Source.orderly_acts (sources : List Source) : Act.Orderly (Source.acts sources) where
  earlier i a ha c hc := by
    have := (Emits.acts_of_sources sources).earlier ha hc
    omega
  lexical scope d exportedTo hmem := by
    obtain ⟨s, p, _, hnames⟩ :=
      (Emits.acts_of_sources sources).exists_place_of_lexical? hmem rfl
    exact (Source.owns_of_mem_lexicalNames hnames).ne_members

end LiteralFolding
