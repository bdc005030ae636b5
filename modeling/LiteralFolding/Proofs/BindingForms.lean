-- Binding forms. A construct that the symbol table knows hides what stands around it: a name that
-- the closest construct binds without a literal gives no text, whatever is declared further out.
-- Four forms are not known, and what they bind hides nothing.
import LiteralFolding.Proofs.Provenance
import LiteralFolding.Proofs.Shadowing

namespace LiteralFolding

/-! ## Patterns -/

namespace Tree

/-- The pattern binds the name that the node spells. -/
def Introduces (t : Tree) (n : Node) : Prop := ∃ r, (Position.top t).BindsAt r ∧ r.node = n

variable {t u : Tree} {n : Node}

theorem mem_boundNames_iff : n ∈ t.boundNames ↔ t.Introduces n := by
  have hplaces : t.boundNames = (Position.top t).boundPlaces.map (·.node) := by
    rw [boundNames_eq_namesByForm, Position.map_node_boundPlaces]
    rfl
  simp only [hplaces, List.mem_map, Position.mem_boundPlaces_iff, Introduces]

theorem mem_flatMap_child? {α : Type} {f : Tree → List α} {a : α} {field : Field} :
    a ∈ (t.child? field).toList.flatMap f ↔ ∃ u, t.child? field = some u ∧ a ∈ f u := by
  simp

/-! ## Parameters and imports -/

/-- The function has a parameter that binds the name: a single one without brackets, or one of a
list, with a type or without. -/
inductive HasParameter (t : Tree) (n : Node) : Prop
  | single {u : Tree} (hu : t.child? .parameter = some u) (h : u.Introduces n)
  | typed {list u v : Tree} (hlist : t.child? .parameters = some list)
      (hu : u ∈ list.namedChildren) (hv : u.child? .pattern = some v) (h : v.Introduces n)
  | untyped {list u : Tree} (hlist : t.child? .parameters = some list)
      (hu : u ∈ list.namedChildren) (hnone : u.child? .pattern = none) (h : u.Introduces n)

theorem mem_parameterNames_iff : n ∈ SymbolTable.parameterNames t ↔ t.HasParameter n := by
  unfold SymbolTable.parameterNames
  simp only [List.mem_append, List.mem_flatMap, Option.mem_toList,
    mem_boundNames_iff]
  constructor
  · rintro (⟨u, hu, h⟩ | ⟨u, ⟨list, hlist, hu⟩, h⟩)
    · exact .single hu h
    · cases hv : u.child? .pattern with
      | none => exact .untyped hlist hu hv (by simpa [hv] using h)
      | some v => exact .typed hlist hu hv (by simpa [hv] using h)
  · rintro (⟨hu, h⟩ | ⟨hlist, hu, hv, h⟩ | ⟨hlist, hu, hnone, h⟩)
    · exact .inl ⟨_, hu, h⟩
    · exact .inr ⟨_, ⟨_, hlist, hu⟩, by simpa [hv] using h⟩
    · exact .inr ⟨_, ⟨_, hlist, hu⟩, by simpa [hnone] using h⟩

/-- The import, or the part of one, brings in the name that the node spells. -/
inductive Imports : Tree → Node → Prop
  | renamed {t u : Tree} (hkind : t.kind = .importSpecifier) (hu : t.child? .localName = some u)
      (hname : u.kind = .identifier) : Imports t u.node
  | kept {t u : Tree} (hkind : t.kind = .importSpecifier) (hnone : t.child? .localName = none)
      (hu : t.child? .name = some u) (hname : u.kind = .identifier) : Imports t u.node
  | whole {t u : Tree} (hkind : holdsImports t.kind) (hu : u ∈ t.namedChildren)
      (hname : u.kind = .identifier) : Imports t u.node
  | part {t u : Tree} {n : Node} (hkind : holdsImports t.kind) (hu : u ∈ t.namedChildren)
      (hpart : u.kind ≠ .identifier) (h : Imports u n) : Imports t n

theorem importedNames_eq (t : Tree) :
    t.importedNames =
      if t.kind = .importSpecifier then (specifierName? t).toList
      else if holdsImports t.kind then
        (t.children.map (·.node)).filter (fun n => n.named && n.kind = .identifier) ++
          importedNamesBelow t.children
      else [] := by
  cases t with
  | mk node children =>
    rw [importedNames]
    split
    · rename_i hkind
      exact (if_pos hkind).symm
    · rename_i hkind
      exact (if_neg hkind).symm

theorem mem_importedNamesBelow_iff {ts : List Tree} :
    n ∈ importedNamesBelow ts ↔
      ∃ u ∈ ts, (u.node.named ∧ u.kind ≠ .identifier) ∧ n ∈ u.importedNames := by
  induction ts with
  | nil => simp [importedNamesBelow]
  | cons t ts ih =>
    rw [importedNamesBelow, List.mem_append, ih, List.exists_mem_cons_iff, or_comm]
    refine or_congr_left ?_
    simp [kind]

/-- What a specifier brings in is its new name if it has one. -/
theorem mem_importedNames_specifier (h : t.kind = .importSpecifier) :
    n ∈ t.importedNames ↔
      ∃ u, (t.child? .localName).or (t.child? .name) = some u ∧ u.kind = .identifier ∧
        u.node = n := by
  rw [importedNames_eq, if_pos h, Option.mem_toList, specifierName?, Option.filter_eq_some_iff]
  constructor
  · rintro ⟨hn, hname⟩
    obtain ⟨u, hu, rfl⟩ := Option.map_eq_some_iff.mp hn
    exact ⟨u, hu, of_decide_eq_true hname, rfl⟩
  · rintro ⟨u, hu, hname, rfl⟩
    exact ⟨by rw [hu]; rfl, decide_eq_true hname⟩

/-- What else holds imports brings in the names in it and those of its parts. -/
theorem mem_importedNames_of_holds (h : holdsImports t.kind) :
    n ∈ t.importedNames ↔
      (∃ u ∈ t.namedChildren, u.kind = .identifier ∧ u.node = n) ∨
        ∃ u ∈ t.namedChildren, u.kind ≠ .identifier ∧ n ∈ u.importedNames := by
  have hkind : t.kind ≠ .importSpecifier := by
    intro hkind
    rw [hkind] at h
    cases h
  rw [importedNames_eq, if_neg hkind, if_pos h, List.mem_append, mem_importedNamesBelow_iff]
  unfold namedChildren
  refine or_congr ?_ ?_
  · simp only [List.mem_filter, List.mem_map, Bool.and_eq_true, decide_eq_true_eq]
    constructor
    · rintro ⟨⟨u, hu, rfl⟩, hnamed, hname⟩
      exact ⟨u, ⟨hu, hnamed⟩, hname, rfl⟩
    · rintro ⟨u, ⟨hu, hnamed⟩, hname, rfl⟩
      exact ⟨⟨u, hu, rfl⟩, hnamed, hname⟩
  · simp only [List.mem_filter, and_assoc]

theorem imports_of_mem_importedNames (h : n ∈ t.importedNames) : t.Imports n := by
  induction hsize : t.size using Nat.strongRecOn generalizing t with
  | _ size ih =>
    subst hsize
    by_cases hspecifier : t.kind = .importSpecifier
    · obtain ⟨u, hu, hname, rfl⟩ := (mem_importedNames_specifier hspecifier).mp h
      rcases Option.or_eq_some_iff.mp hu with hu | ⟨hnone, hu⟩
      · exact .renamed hspecifier hu hname
      · exact .kept hspecifier hnone hu hname
    · cases hholds : holdsImports t.kind with
      | false => simp [importedNames_eq, hspecifier, hholds] at h
      | true =>
        rcases (mem_importedNames_of_holds hholds).mp h with
          ⟨u, hu, hname, rfl⟩ | ⟨u, hu, hpart, hn⟩
        · exact .whole hholds hu hname
        · exact .part hholds hu hpart
            (ih _ (size_lt_of_mem_children (List.mem_filter.mp hu).1) hn rfl)

theorem mem_importedNames_iff : n ∈ t.importedNames ↔ t.Imports n := by
  refine ⟨imports_of_mem_importedNames, ?_⟩
  intro h
  induction h with
  | renamed hkind hu hname =>
    exact (mem_importedNames_specifier hkind).mpr ⟨_, by simp [hu], hname, rfl⟩
  | kept hkind hnone hu hname =>
    exact (mem_importedNames_specifier hkind).mpr ⟨_, by simp [hnone, hu], hname, rfl⟩
  | whole hkind hu hname =>
    exact (mem_importedNames_of_holds hkind).mpr (.inl ⟨_, hu, hname, rfl⟩)
  | part hkind hu hpart _ ih =>
    exact (mem_importedNames_of_holds hkind).mpr (.inr ⟨_, hu, hpart, ih⟩)

end Tree

/-! ## Constructs that bind a name -/

/-- The ways in which a construct can bind a name. -/
inductive BindingForm where
  /-- A variable with a plain name and a literal. -/
  | literalVariable
  /-- A variable with a plain name and another value, or none. -/
  | otherVariable
  | destructured
  | loopVariable
  | parameter
  | catchParameter
  | imported
  /-- The short name in `import x = N.M`. -/
  | importAlias
  | function
  | classType
  | enumeration
  /-- The name of a namespace, or the first part of a dotted one. -/
  | namespaceBlock
  /-- A further part of a dotted name, for the body. -/
  | innerNamespace
  /-- The name of a function expression, for its inside. -/
  | ownFunctionName
  /-- The name of a class expression, for its inside. -/
  | ownClassName
  /-- A parameter where no body follows, for the types in the signature. -/
  | signatureParameter
  deriving DecidableEq, Repr

/-- The forms that the symbol table knows. -/
def BindingForm.isKnown : BindingForm → Bool
  | .importAlias | .innerNamespace | .ownClassName | .signatureParameter => false
  | _ => true

/-- Kinds that have parameters and no body. -/
def Kind.isSignature (kind : Kind) : Bool :=
  kind ∈ [.functionSignature, .other "method_signature", .other "abstract_method_signature",
    .other "call_signature", .other "construct_signature", .other "function_type",
    .other "constructor_type"]

namespace Source

open SymbolTable

/-- Where the variables of a declaration go. -/
def variableScope? (s : Source) (p : Position) : Option Scope :=
  match p.kind with
  | .lexicalDeclaration => some (s.blockScope p)
  | .variableDeclaration => some (s.functionScope p)
  | _ => none

/-- The construct at the place binds the name that the node spells, in all of the scope. -/
inductive Binds (s : Source) (p : Position) : BindingForm → Node → Scope → Prop
  | literalVariable {declarator name value : Tree} {scope : Scope} {text : Text}
      (hscope : s.variableScope? p = some scope) (hmem : declarator ∈ p.tree.namedChildren)
      (hkind : declarator.kind = .variableDeclarator) (hname : declarator.child? .name = some name)
      (hplain : name.kind = .identifier) (hvalue : declarator.child? .value = some value)
      (hliteral : s.literalText? value = some text) :
      Binds s p .literalVariable name.node scope
  | otherVariable {declarator name : Tree} {scope : Scope}
      (hscope : s.variableScope? p = some scope) (hmem : declarator ∈ p.tree.namedChildren)
      (hkind : declarator.kind = .variableDeclarator) (hname : declarator.child? .name = some name)
      (hplain : name.kind = .identifier)
      (hother : ∀ value, declarator.child? .value = some value → s.literalText? value = none) :
      Binds s p .otherVariable name.node scope
  | destructured {declarator name : Tree} {n : Node} {scope : Scope}
      (hscope : s.variableScope? p = some scope) (hmem : declarator ∈ p.tree.namedChildren)
      (hkind : declarator.kind = .variableDeclarator) (hname : declarator.child? .name = some name)
      (hpattern : name.kind ≠ .identifier) (h : name.Introduces n) :
      Binds s p .destructured n scope
  | loopVariable {keyword left : Tree} {n : Node} (hkind : p.kind = .forInStatement)
      (hkeyword : p.tree.child? .keyword = some keyword) (hleft : p.tree.child? .left = some left)
      (h : left.Introduces n) :
      Binds s p .loopVariable n
        (if keyword.kind = .varKeyword then s.functionScope p else .place s.index p.route)
  | parameter {n : Node} (hkind : p.kind.isFunctionLike) (h : p.tree.HasParameter n) :
      Binds s p .parameter n (.place s.index p.route)
  | catchParameter {u : Tree} {n : Node} (hkind : p.kind = .catchClause)
      (hu : p.tree.child? .parameter = some u) (h : u.Introduces n) :
      Binds s p .catchParameter n (.place s.index p.route)
  | imported {n : Node} (hkind : p.kind = .importStatement) (h : p.tree.Imports n) :
      Binds s p .imported n (s.blockScope p)
  | importAlias {name : Tree} (hkind : p.kind = .other "import_alias")
      (hname : p.tree.namedChildren.head? = some name) (hplain : name.kind = .identifier) :
      Binds s p .importAlias name.node (s.blockScope p)
  | function {name : Tree}
      (hkind : p.kind ∈ [.functionDeclaration, .generatorFunctionDeclaration, .functionSignature])
      (hname : p.tree.child? .name = some name) : Binds s p .function name.node (s.blockScope p)
  | classType {name : Tree} (hkind : p.kind ∈ [.classDeclaration, .abstractClassDeclaration])
      (hname : p.tree.child? .name = some name) : Binds s p .classType name.node (s.blockScope p)
  | enumeration {name : Tree} (hkind : p.kind = .enumDeclaration)
      (hname : p.tree.child? .name = some name) : Binds s p .enumeration name.node (s.blockScope p)
  | namespaceBlock {name : Tree} {first : Node} {rest : List Node} (hkind : p.kind.isNamespace)
      (hname : p.tree.child? .name = some name)
      (hparts : name.namespaceParts? = some (first :: rest)) :
      Binds s p .namespaceBlock first (s.blockScope p)
  | innerNamespace {name : Tree} {first n : Node} {rest : List Node} (hkind : p.kind.isNamespace)
      (hname : p.tree.child? .name = some name)
      (hparts : name.namespaceParts? = some (first :: rest)) (hn : n ∈ rest) :
      Binds s p .innerNamespace n (.place s.index p.route)
  | ownFunctionName {name : Tree}
      (hkind : p.kind ∈ [.functionExpression, .functionKeyword, .generatorFunction])
      (hname : p.tree.child? .name = some name) :
      Binds s p .ownFunctionName name.node (.place s.index p.route)
  | ownClassName {name : Tree} (hkind : p.kind = .other "class")
      (hname : p.tree.child? .name = some name) :
      Binds s p .ownClassName name.node (.place s.index p.route)
  | signatureParameter {n : Node} (hkind : p.kind.isSignature) (h : p.tree.HasParameter n) :
      Binds s p .signatureParameter n (.place s.index p.route)

variable {s : Source} {p : Position} {form : BindingForm} {n : Node} {scope : Scope}
  {d : Declaration}

theorem outerNames_of_variableScope? (h : s.variableScope? p = some scope) :
    ∃ kind : DeclarationKind, kind.bindsValue ∧
      s.outerNames p = (s.variableDeclarations kind p.tree).map (scope, ·) := by
  unfold variableScope? at h
  unfold outerNames
  split at h <;> rename_i hkind
  · cases h
    rw [hkind]
    refine ⟨_, ?_, rfl⟩
    split <;> rfl
  · cases h
    rw [hkind]
    exact ⟨.varBinding, rfl, rfl⟩
  · cases h

theorem mem_variableDeclarations {kind : DeclarationKind} {t : Tree} :
    d ∈ s.variableDeclarations kind t ↔
      ∃ declarator ∈ t.namedChildren, declarator.kind = .variableDeclarator ∧
        ∃ name initializer, (name, initializer) ∈ declaratorNames s declarator ∧
          declarationAt s name kind initializer = d := by
  unfold variableDeclarations
  simp only [List.mem_map, List.mem_flatMap, List.mem_filter, decide_eq_true_eq, Prod.exists]
  constructor
  · rintro ⟨name, initializer, ⟨declarator, ⟨hmem, hkind⟩, hnames⟩, rfl⟩
    exact ⟨declarator, hmem, hkind, name, initializer, hnames, rfl⟩
  · rintro ⟨declarator, hmem, hkind, name, initializer, hnames, rfl⟩
    exact ⟨name, initializer, ⟨declarator, ⟨hmem, hkind⟩, hnames⟩, rfl⟩

/-- The names of a declarator: the plain one with what initializes it, or those of the pattern. -/
theorem mem_declaratorNames {declarator : Tree} {initializer : Initializer} :
    (n, initializer) ∈ declaratorNames s declarator ↔
      ∃ name, declarator.child? .name = some name ∧
        (name.kind = .identifier ∧ n = name.node ∧
            initializer = initializerOf s (declarator.child? .value) ∨
          name.kind ≠ .identifier ∧ name.Introduces n ∧ initializer = .missing) := by
  unfold declaratorNames
  cases hname : declarator.child? .name with
  | none => simp
  | some name =>
    by_cases hplain : name.kind = .identifier
    · simp [hplain]
    · simp [hplain, Tree.mem_boundNames_iff, eq_comm (b := initializer)]

theorem mem_map_scope {own : Scope} {ds : List Declaration} :
    (scope, d) ∈ ds.map (own, ·) ↔ scope = own ∧ d ∈ ds := by
  simp [eq_comm, and_comm]

theorem mem_plainDeclarations {kind : DeclarationKind} {names : List Node} :
    d ∈ s.plainDeclarations kind names ↔ ∃ n ∈ names, d = declarationAt s n kind .missing := by
  simp only [plainDeclarations, List.mem_map, eq_comm]

theorem mem_ownDeclaration {kind : DeclarationKind} :
    d ∈ s.ownDeclaration kind p.tree ↔
      ∃ name, p.tree.child? .name = some name ∧
        d = declarationAt s name.node kind (.expression p.kind) := by
  simp only [ownDeclaration, List.mem_map, Option.mem_toList, eq_comm (b := d), Position.kind]

theorem mem_lexicalNames_of_outer {ds : List Declaration}
    (hnames : s.outerNames p = ds.map (scope, ·)) (hd : d ∈ ds) :
    (scope, d) ∈ s.lexicalNames p := by
  unfold lexicalNames
  rw [hnames]
  exact List.mem_append_right _ (List.mem_map_of_mem hd)

theorem mem_lexicalNames_of_variable {declarator : Tree} {initializer : Initializer}
    (hscope : s.variableScope? p = some scope) (hmem : declarator ∈ p.tree.namedChildren)
    (hkind : declarator.kind = .variableDeclarator)
    (hn : (n, initializer) ∈ declaratorNames s declarator) :
    ∃ kind : DeclarationKind, kind.bindsValue ∧
      (scope, declarationAt s n kind initializer) ∈ s.lexicalNames p := by
  obtain ⟨kind, hbinds, hnames⟩ := outerNames_of_variableScope? hscope
  exact ⟨kind, hbinds, mem_lexicalNames_of_outer hnames
    (mem_variableDeclarations.mpr ⟨declarator, hmem, hkind, n, initializer, hn, rfl⟩)⟩

theorem exists_name_of_plain (kind : DeclarationKind) {names : List Node}
    (hnames : s.outerNames p = (s.plainDeclarations kind names).map (scope, ·)) (hn : n ∈ names) :
    ∃ d, (scope, d) ∈ s.lexicalNames p ∧ d.name = s.textOf n :=
  ⟨_, mem_lexicalNames_of_outer hnames (List.mem_map_of_mem hn), rfl⟩

theorem exists_name_of_own (kind : DeclarationKind) {name : Tree}
    (hnames : s.outerNames p = (s.ownDeclaration kind p.tree).map (scope, ·))
    (hname : p.tree.child? .name = some name) :
    ∃ d, (scope, d) ∈ s.lexicalNames p ∧ d.name = s.textOf name.node :=
  ⟨_, mem_lexicalNames_of_outer hnames (List.mem_map_of_mem (Option.mem_toList.mpr hname)), rfl⟩

theorem outerNames_of_loop {keyword left : Tree} (hkind : p.kind = .forInStatement)
    (hkeyword : p.tree.child? .keyword = some keyword) (hleft : p.tree.child? .left = some left) :
    ∃ kind, s.outerNames p = (s.plainDeclarations kind left.boundNames).map
      (if keyword.kind = .varKeyword then s.functionScope p else .place s.index p.route, ·) := by
  simp only [outerNames, hkind, hkeyword, hleft]
  split
  · rename_i hvar
    exact ⟨.varBinding, by rw [if_pos hvar]⟩
  · rename_i hconst
    exact ⟨.constBinding, by rw [if_neg (by simp [hconst])]⟩
  · rename_i hvar _
    exact ⟨.letBinding, by rw [if_neg hvar]⟩

theorem namesItself_iff {kind : Kind} :
    namesItself kind ↔ kind ∈ [.functionExpression, .functionKeyword, .generatorFunction] := by
  cases kind <;> simp [namesItself]

/-- What a function has inside: its parameters, and its own name if it is an expression. -/
theorem mem_innerNames :
    (scope, d) ∈ s.innerNames p ↔
      p.kind.isFunctionLike ∧ scope = .place s.index p.route ∧
        ((∃ n, p.tree.HasParameter n ∧ d = declarationAt s n .parameter .missing) ∨
          p.kind ∈ [.functionExpression, .functionKeyword, .generatorFunction] ∧
            ∃ name, p.tree.child? .name = some name ∧
              d = declarationAt s name.node .function (.expression p.kind)) := by
  unfold innerNames
  by_cases hkind : p.kind.isFunctionLike
  · rw [if_pos hkind, mem_map_scope, List.mem_append, mem_plainDeclarations, ← namesItself_iff,
      ← mem_ownDeclaration]
    by_cases hitself : namesItself p.kind
    · simp [hkind, hitself, Tree.mem_parameterNames_iff]
    · simp [hkind, hitself, Tree.mem_parameterNames_iff]
  · simp [hkind]

/-- What a construct of a known form binds is on the list of its place. -/
theorem Binds.exists_name (h : s.Binds p form n scope) (hknown : form.isKnown) :
    ∃ d, (scope, d) ∈ s.lexicalNames p ∧ d.name = s.textOf n := by
  cases h with
  | literalVariable hscope hmem hkind hname hplain hvalue hliteral =>
    obtain ⟨kind, _, hd⟩ := mem_lexicalNames_of_variable hscope hmem hkind
      (mem_declaratorNames.mpr ⟨_, hname, .inl ⟨hplain, rfl, rfl⟩⟩)
    exact ⟨_, hd, rfl⟩
  | otherVariable hscope hmem hkind hname hplain hother =>
    obtain ⟨kind, _, hd⟩ := mem_lexicalNames_of_variable hscope hmem hkind
      (mem_declaratorNames.mpr ⟨_, hname, .inl ⟨hplain, rfl, rfl⟩⟩)
    exact ⟨_, hd, rfl⟩
  | destructured hscope hmem hkind hname hpattern h =>
    obtain ⟨kind, _, hd⟩ := mem_lexicalNames_of_variable hscope hmem hkind
      (mem_declaratorNames.mpr ⟨_, hname, .inr ⟨hpattern, h, rfl⟩⟩)
    exact ⟨_, hd, rfl⟩
  | @loopVariable keyword left n hkind hkeyword hleft h =>
    obtain ⟨kind, hnames⟩ := outerNames_of_loop hkind hkeyword hleft
    exact exists_name_of_plain kind hnames (Tree.mem_boundNames_iff.mpr h)
  | parameter hkind h =>
    exact ⟨_, List.mem_append_left _ (mem_innerNames.mpr ⟨hkind, rfl, .inl ⟨_, h, rfl⟩⟩), rfl⟩
  | catchParameter hkind hu h =>
    have hn := Tree.mem_flatMap_child?.mpr ⟨_, hu, Tree.mem_boundNames_iff.mpr h⟩
    exact exists_name_of_plain .parameter (by simp only [outerNames, hkind]) hn
  | imported hkind h =>
    exact exists_name_of_plain .importBinding (by simp only [outerNames, hkind])
      (Tree.mem_importedNames_iff.mpr h)
  | importAlias => cases hknown
  | function hkind hname =>
    refine exists_name_of_own .function ?_ hname
    simp only [List.mem_cons, List.not_mem_nil, or_false] at hkind
    rcases hkind with hkind | hkind | hkind <;> simp only [outerNames, hkind]
  | classType hkind hname =>
    refine exists_name_of_own .classType ?_ hname
    simp only [List.mem_cons, List.not_mem_nil, or_false] at hkind
    rcases hkind with hkind | hkind <;> simp only [outerNames, hkind]
  | enumeration hkind hname =>
    exact exists_name_of_own .enumeration (by simp only [outerNames, hkind]) hname
  | namespaceBlock hkind hname hparts =>
    refine ⟨declarationAt s n .namespaceBlock (.expression p.kind),
      mem_lexicalNames_of_outer (outerNames_of_isNamespace hkind) ?_, rfl⟩
    simp [namespaceDeclarations, hname, hparts, Position.kind]
  | ownFunctionName hkind hname =>
    have hfunction : p.kind.isFunctionLike := by
      simp only [List.mem_cons, List.not_mem_nil, or_false] at hkind
      rcases hkind with hkind | hkind | hkind <;> rw [hkind] <;> rfl
    exact ⟨_, List.mem_append_left _
      (mem_innerNames.mpr ⟨hfunction, rfl, .inr ⟨hkind, _, hname, rfl⟩⟩), rfl⟩
  | innerNamespace => cases hknown
  | ownClassName => cases hknown
  | signatureParameter => cases hknown

/-- The literal of a variable is kept. -/
theorem Binds.exists_literal (h : s.Binds p .literalVariable n scope) :
    ∃ d, (scope, d) ∈ s.lexicalNames p ∧ d.name = s.textOf n ∧ d.binding?.isSome := by
  cases h with
  | literalVariable hscope hmem hkind hname hplain hvalue hliteral =>
    obtain ⟨kind, hbinds, hd⟩ := mem_lexicalNames_of_variable hscope hmem hkind
      (mem_declaratorNames.mpr ⟨_, hname, .inl ⟨hplain, rfl, rfl⟩⟩)
    refine ⟨_, hd, rfl, ?_⟩
    simp [declarationAt, hvalue, initializerOf, hliteral, Declaration.binding?, hbinds]

/-- The names that constructs of the other forms bind. -/
def unknownNames (s : Source) (p : Position) : List (Scope × Text) :=
  match p.kind with
  | .other "import_alias" =>
    (p.tree.namedChildren.head?.filter (·.kind = .identifier)).toList.map fun name =>
      (s.blockScope p, s.textOf name.node)
  | .other "class" =>
    (p.tree.child? .name).toList.map fun name => (.place s.index p.route, s.textOf name.node)
  | .internalModule | .externalModule =>
    (((p.tree.child? .name).bind (·.namespaceParts?)).getD []).tail.map fun n =>
      (.place s.index p.route, s.textOf n)
  | kind =>
    if kind.isSignature then
      (parameterNames p.tree).map fun n => (.place s.index p.route, s.textOf n)
    else []

theorem unknownNames_of_isNamespace (h : p.kind.isNamespace) :
    s.unknownNames p = (((p.tree.child? .name).bind (·.namespaceParts?)).getD []).tail.map fun n =>
      (.place s.index p.route, s.textOf n) := by
  revert h
  unfold unknownNames
  cases p.kind <;> simp [Kind.isNamespace]

theorem unknownNames_of_isSignature (h : p.kind.isSignature) :
    s.unknownNames p = (parameterNames p.tree).map fun n =>
      (.place s.index p.route, s.textOf n) := by
  unfold unknownNames
  split <;> rename_i hkind
  case h_5 => rw [if_pos h]
  all_goals simp [hkind, Kind.isSignature] at h

theorem Binds.mem_unknownNames (h : s.Binds p form n scope) (hform : form.isKnown = false) :
    (scope, s.textOf n) ∈ s.unknownNames p := by
  cases h with
  | importAlias hkind hname hplain => simp [unknownNames, hkind, hname, hplain]
  | innerNamespace hkind hname hparts hn =>
    rw [unknownNames_of_isNamespace hkind, hname, Option.bind_some, hparts]
    exact List.mem_map_of_mem hn
  | ownClassName hkind hname => simp [unknownNames, hkind, hname]
  | signatureParameter hkind h =>
    rw [unknownNames_of_isSignature hkind]
    exact List.mem_map_of_mem (Tree.mem_parameterNames_iff.mpr h)
  | _ => cases hform

/-- A construct of a known form at the place binds the declared name, and if the declaration gives a
text, it is a variable with a literal. -/
def Accounts (s : Source) (p : Position) (scope : Scope) (d : Declaration) : Prop :=
  ∃ form n, form.isKnown ∧ s.Binds p form n scope ∧ s.textOf n = d.name ∧
    (d.binding?.isSome → form = .literalVariable)

theorem Binds.accounts {kind : DeclarationKind} {initializer : Initializer}
    (h : s.Binds p form n scope) (hknown : form.isKnown)
    (hnone : (declarationAt s n kind initializer).binding? = none) :
    s.Accounts p scope (declarationAt s n kind initializer) :=
  ⟨form, n, hknown, h, rfl, by simp [hnone]⟩

theorem accounts_of_variable {kind : DeclarationKind} (hscope : s.variableScope? p = some scope)
    (hd : d ∈ s.variableDeclarations kind p.tree) : s.Accounts p scope d := by
  obtain ⟨declarator, hmem, hkind, n, initializer, hn, rfl⟩ := mem_variableDeclarations.mp hd
  obtain ⟨name, hname, ⟨hplain, rfl, rfl⟩ | ⟨hpattern, h, rfl⟩⟩ := mem_declaratorNames.mp hn
  · cases hvalue : declarator.child? .value with
    | none =>
      exact Binds.accounts
        (.otherVariable hscope hmem hkind hname hplain (by simp [hvalue])) rfl rfl
    | some value =>
      cases hliteral : s.literalText? value with
      | none =>
        refine Binds.accounts
          (.otherVariable hscope hmem hkind hname hplain (by simp [hvalue, hliteral])) rfl ?_
        simp [declarationAt, initializerOf, hliteral, Declaration.binding?]
      | some text =>
        exact ⟨.literalVariable, _, rfl,
          .literalVariable hscope hmem hkind hname hplain hvalue hliteral, rfl, fun _ => rfl⟩
  · exact Binds.accounts (.destructured hscope hmem hkind hname hpattern h) rfl rfl

theorem accounts_of_namespace (hkind : p.kind.isNamespace)
    (hd : d ∈ (s.namespaceDeclarations p.tree).take 1) : s.Accounts p (s.blockScope p) d := by
  unfold namespaceDeclarations at hd
  cases hname : p.tree.child? .name with
  | none => simp [hname] at hd
  | some name =>
    rcases hparts : name.namespaceParts? with _ | _ | ⟨first, rest⟩
    · simp [hname, hparts] at hd
    · simp [hname, hparts] at hd
    · obtain rfl : d = declarationAt s first .namespaceBlock (.expression p.tree.kind) := by
        simpa [hname, hparts] using hd
      exact Binds.accounts (.namespaceBlock hkind hname hparts) rfl rfl

/-- What is on the list of a place is bound by a construct of a known form. -/
theorem accounts_of_mem_lexicalNames (h : (scope, d) ∈ s.lexicalNames p) :
    s.Accounts p scope d := by
  rcases List.mem_append.mp h with h | h
  · obtain ⟨hkind, rfl, ⟨n, hn, rfl⟩ | ⟨hitself, name, hname, rfl⟩⟩ := mem_innerNames.mp h
    · exact Binds.accounts (.parameter hkind hn) rfl rfl
    · exact Binds.accounts (.ownFunctionName hitself hname) rfl rfl
  · have hmem := h
    unfold outerNames at h
    split at h <;> rename_i hkind
    case h_13 =>
      split at h
      · rename_i hkeyword hleft
        obtain ⟨kind, hnames⟩ := outerNames_of_loop (s := s) hkind hkeyword hleft
        rw [hnames] at hmem
        obtain ⟨rfl, hd⟩ := mem_map_scope.mp hmem
        obtain ⟨n, hn, rfl⟩ := mem_plainDeclarations.mp hd
        exact Binds.accounts
          (.loopVariable hkind hkeyword hleft (Tree.mem_boundNames_iff.mp hn)) rfl rfl
      · cases h
    case h_14 => cases h
    all_goals obtain ⟨rfl, hd⟩ := mem_map_scope.mp h
    case h_1 | h_2 => exact accounts_of_variable (by simp only [variableScope?, hkind]) hd
    case h_3 | h_4 | h_5 =>
      obtain ⟨name, hname, rfl⟩ := mem_ownDeclaration.mp hd
      exact Binds.accounts (.function (by simp [hkind]) hname) rfl rfl
    case h_6 | h_7 =>
      obtain ⟨name, hname, rfl⟩ := mem_ownDeclaration.mp hd
      exact Binds.accounts (.classType (by simp [hkind]) hname) rfl rfl
    case h_8 =>
      obtain ⟨name, hname, rfl⟩ := mem_ownDeclaration.mp hd
      exact Binds.accounts (.enumeration hkind hname) rfl rfl
    case h_9 | h_10 => exact accounts_of_namespace (by rw [hkind]; rfl) hd
    case h_11 =>
      obtain ⟨n, hn, rfl⟩ := mem_plainDeclarations.mp hd
      exact Binds.accounts (.imported hkind (Tree.mem_importedNames_iff.mp hn)) rfl rfl
    case h_12 =>
      obtain ⟨n, hn, rfl⟩ := mem_plainDeclarations.mp hd
      obtain ⟨u, hu, hn⟩ := Tree.mem_flatMap_child?.mp hn
      exact Binds.accounts (.catchParameter hkind hu (Tree.mem_boundNames_iff.mp hn)) rfl rfl

end Source

/-! ## Shadowing -/

namespace Program

/-- Some construct of the program binds the name in the scope. -/
def Binds (program : Program) (form : BindingForm) (name : Text) (scope : Scope) : Prop :=
  ∃ s p n, (s, p) ∈ Source.places program.sources ∧ s.Binds p form n scope ∧ s.textOf n = name

variable {program : Program} {form : BindingForm} {name : Text} {scope : Scope}

theorem Binds.declares (h : program.Binds form name scope) (hknown : form.isKnown) :
    program.Declares scope name := by
  obtain ⟨s, p, n, hplace, hbinds, rfl⟩ := h
  obtain ⟨d, hd, hname⟩ := hbinds.exists_name hknown
  exact hname ▸ declares_of_mem hplace hd

theorem exists_binds_of_declares (h : program.Declares scope name) :
    ∃ form, form.isKnown ∧ program.Binds form name scope := by
  obtain ⟨⟨own, d⟩, hx, rfl, rfl⟩ := h
  obtain ⟨⟨s, p⟩, hplace, hd⟩ := List.mem_flatMap.mp hx
  obtain ⟨form, n, hknown, hbinds, hname, _⟩ := Source.accounts_of_mem_lexicalNames hd
  exact ⟨form, hknown, s, p, n, hplace, hbinds, hname⟩

variable {sources : List Source} {s : Source} {r : Position} {closer further : List Scope}

theorem mem_of_firstIn {listing : List (Scope × Declaration)} {d : Declaration}
    (h : firstIn listing name scope = some d) : (scope, d) ∈ listing ∧ d.name = name := by
  obtain ⟨⟨own, d'⟩, hfind, rfl⟩ := Option.map_eq_some_iff.mp h
  obtain ⟨rfl, rfl⟩ : own = scope ∧ d'.name = name := by simpa using List.find?_some hfind
  exact ⟨List.mem_of_find?_eq_some hfind, rfl⟩

/-- A name of a scope gives a text only if a variable with a literal binds it there. -/
theorem binds_literalVariable {id : Nat} {d : Declaration} (hscope : ∀ c, scope ≠ .members c)
    (hfind : (ofSources sources).symbols.find? scope name = some id)
    (hd : (ofSources sources).symbols.declaration? id = some d) (hsome : d.binding?.isSome) :
    (ofSources sources).Binds .literalVariable name scope := by
  have hrecord := find?_eq_firstIn sources name hscope
  rw [hfind, Option.map_some, hd] at hrecord
  obtain ⟨_, hfirst, heq⟩ := Option.map_eq_some_iff.mp hrecord.symm
  cases heq
  obtain ⟨hmem, hname⟩ := mem_of_firstIn hfirst
  obtain ⟨⟨t, q⟩, hplace, hlisted⟩ := List.mem_flatMap.mp hmem
  obtain ⟨form, n, _, hbinds, hspelled, hform⟩ := Source.accounts_of_mem_lexicalNames hlisted
  rw [hform hsome] at hbinds
  exact ⟨t, q, n, hplace, hbinds, hspelled.trans hname⟩

/-- The closest scope that has the name decides. -/
theorem lookup_of_closer (sources : List Source)
    (hscopes : scopesFrom s.index r.route = closer ++ scope :: further)
    (hcloser : ∀ c ∈ closer, ¬ (ofSources sources).Declares c name) :
    (ofSources sources).symbols.lookup s.index name r.route =
      ((ofSources sources).symbols.find? scope name).or
        (further.findSome? ((ofSources sources).symbols.find? · name)) := by
  have hnone : closer.findSome? ((ofSources sources).symbols.find? · name) = none := by
    rw [List.findSome?_eq_none_iff]
    intro c hc
    have hmem : c ∈ scopesFrom s.index r.route := by
      rw [hscopes]
      exact List.mem_append_left _ hc
    exact (find?_eq_none_iff (ne_members_of_mem_scopesFrom hmem)).mpr (hcloser c hc)
  rw [SymbolTable.lookup_eq_findSome?, hscopes, List.findSome?_append, hnone, Option.none_or,
    List.findSome?_cons]
  cases (ofSources sources).symbols.find? scope name <;> rfl

/-- No construct binds the name of the reference closer than the scope, and in the scope itself no
variable with a literal does. -/
structure Closest (program : Program) (s : Source) (r : Position) (scope : Scope)
    (further : List Scope) : Prop where
  kind : r.kind = .identifier
  closer : ∃ closer, scopesFrom s.index r.route = closer ++ scope :: further ∧
    ∀ c ∈ closer, ∀ form, ¬ program.Binds form (s.textOf r.node) c
  literal : ¬ program.Binds .literalVariable (s.textOf r.node) scope

/-- A reference asks the closest scope, and then those further out. -/
theorem resolve?_of_closest (h : (ofSources sources).Closest s r scope further) :
    (ofSources sources).symbols.resolve? s r =
      ((((ofSources sources).symbols.find? scope (s.textOf r.node)).or
        (further.findSome? ((ofSources sources).symbols.find? · (s.textOf r.node)))).bind
          (ofSources sources).symbols.declaration?).bind Declaration.binding? := by
  obtain ⟨closer, hscopes, hcloser⟩ := h.closer
  have hlookup := lookup_of_closer sources hscopes fun c hc hdeclares => by
    obtain ⟨form, _, hbinds⟩ := exists_binds_of_declares hdeclares
    exact hcloser c hc form hbinds
  rw [SymbolTable.resolve?, SymbolTable.declarationOf?]
  simp only [h.kind, hlookup]

theorem Closest.ne_members (h : program.Closest s r scope further) (c : Nat) :
    scope ≠ .members c := by
  obtain ⟨closer, hscopes, _⟩ := h.closer
  have hmem : scope ∈ scopesFrom s.index r.route := by
    rw [hscopes]
    simp
  exact ne_members_of_mem_scopesFrom hmem c

/-- A reference has no binding if a construct of a known form binds its name in the closest scope
that any construct binds it in, and no variable with a literal does so too. If only constructs of
other forms bind it there, the scopes further out decide. -/
theorem known_forms_shadow (h : (ofSources sources).Closest s r scope further) :
    (∀ form, form.isKnown → (ofSources sources).Binds form (s.textOf r.node) scope →
      (ofSources sources).symbols.resolve? s r = none) ∧
    ((∀ form, form.isKnown → ¬ (ofSources sources).Binds form (s.textOf r.node) scope) →
      (ofSources sources).symbols.resolve? s r =
        ((further.findSome? ((ofSources sources).symbols.find? · (s.textOf r.node))).bind
          (ofSources sources).symbols.declaration?).bind Declaration.binding?) := by
  rw [resolve?_of_closest h]
  constructor
  · intro form hknown hbinds
    obtain ⟨id, hid⟩ := Option.isSome_iff_exists.mp
      ((find?_isSome_iff h.ne_members).mpr (hbinds.declares hknown))
    rw [hid, Option.some_or, Option.bind_some]
    cases hd : (ofSources sources).symbols.declaration? id with
    | none => rfl
    | some d =>
      rw [Option.bind_some, ← Option.not_isSome_iff_eq_none]
      exact fun hsome => h.literal (binds_literalVariable h.ne_members hid hd hsome)
  · intro hnone
    have hdeclares : ¬ (ofSources sources).Declares scope (s.textOf r.node) := by
      intro hdeclares
      obtain ⟨form, hknown, hbinds⟩ := exists_binds_of_declares hdeclares
      exact hnone form hknown hbinds
    rw [(find?_eq_none_iff h.ne_members).mpr hdeclares, Option.none_or]

/-! ## Two programs -/

/-- The names that constructs of the other forms bind. -/
def unknownNames (program : Program) : List (Scope × Text) :=
  (Source.places program.sources).flatMap fun (s, p) => s.unknownNames p

theorem Binds.declares_or_mem (h : program.Binds form name scope) :
    program.Declares scope name ∨ (scope, name) ∈ program.unknownNames := by
  cases hknown : form.isKnown with
  | true => exact .inl (h.declares hknown)
  | false =>
    obtain ⟨s, p, n, hplace, hbinds, rfl⟩ := h
    exact .inr (List.mem_flatMap.mpr ⟨(s, p), hplace, hbinds.mem_unknownNames hknown⟩)

/-- Scope number `k` is the closest for the reference, as the lists of names tell it. -/
def ListedClosest (program : Program) (s : Source) (r : Position) (k : Nat) (scope : Scope) :
    Prop :=
  r.kind = .identifier ∧ (scopesFrom s.index r.route)[k]? = some scope ∧
    (∀ c ∈ (scopesFrom s.index r.route).take k, ¬ program.Declares c (s.textOf r.node) ∧
      (c, s.textOf r.node) ∉ program.unknownNames) ∧
    ∀ x ∈ program.lexicalNames, x.1 = scope → x.2.name = s.textOf r.node → x.2.binding? = none

instance (program : Program) (s : Source) (r : Position) (k : Nat) (scope : Scope) :
    Decidable (program.ListedClosest s r k scope) :=
  inferInstanceAs (Decidable (_ ∧ _ ∧ _ ∧ _))

theorem ListedClosest.closest {k : Nat} (h : program.ListedClosest s r k scope) :
    program.Closest s r scope ((scopesFrom s.index r.route).drop (k + 1)) := by
  obtain ⟨hkind, hscope, hcloser, hliteral⟩ := h
  obtain ⟨hk, rfl⟩ := List.getElem?_eq_some_iff.mp hscope
  refine ⟨hkind, ⟨(scopesFrom s.index r.route).take k, ?_, ?_⟩, ?_⟩
  · rw [List.getElem_cons_drop, List.take_append_drop]
  · intro c hc form hbinds
    rcases hbinds.declares_or_mem with h | h
    · exact (hcloser c hc).1 h
    · exact (hcloser c hc).2 h
  · rintro ⟨t, q, n, hplace, hbinds, hname⟩
    obtain ⟨d, hd, hspelled, hsome⟩ := hbinds.exists_literal
    have hnone := hliteral (_, d) (List.mem_flatMap.mpr ⟨(t, q), hplace, hd⟩) rfl
      (hspelled.trans hname)
    rw [hnone] at hsome
    cases hsome

/-- The script `var x='o';function g(x){x}y=class x{m(){x}};namespace N{import x=M.y;x}`, and then
`namespace P.x{x}`. -/
def namesakes : Source where
  index := 0
  path := []
  dialect := .typeScript
  text := ['v', 'a', 'r', ' ', 'x', '=', '\'', 'o', '\'', ';', 'f', 'u', 'n', 'c', 't', 'i', 'o',
    'n', ' ', 'g', '(', 'x', ')', '{', 'x', '}', 'y', '=', 'c', 'l', 'a', 's', 's', ' ', 'x', '{',
    'm', '(', ')', '{', 'x', '}', '}', ';', 'n', 'a', 'm', 'e', 's', 'p', 'a', 'c', 'e', ' ', 'N',
    '{', 'i', 'm', 'p', 'o', 'r', 't', ' ', 'x', '=', 'M', '.', 'y', ';', 'x', '}', 'n', 'a', 'm',
    'e', 's', 'p', 'a', 'c', 'e', ' ', 'P', '.', 'x', '{', 'x', '}']
  tree := .piece (.other "program") none 0 87 [
    .piece .variableDeclaration none 0 10 [.piece .variableDeclarator none 4 9 [
      .piece .identifier (some .name) 4 5 [], .piece .string (some .value) 6 9 []]],
    .piece .functionDeclaration none 10 26 [.piece .identifier (some .name) 19 20 [],
      .piece (.other "formal_parameters") (some .parameters) 20 23 [
        .piece (.other "required_parameter") none 21 22 [
          .piece .identifier (some .pattern) 21 22 []]],
      .piece .statementBlock (some .body) 23 26 [
        .piece (.other "expression_statement") none 24 25 [.piece .identifier none 24 25 []]]],
    .piece (.other "expression_statement") none 26 44 [
      .piece (.other "assignment_expression") none 26 43 [
        .piece .identifier (some .left) 26 27 [],
        .piece (.other "class") (some .right) 28 43 [
          .piece (.other "type_identifier") (some .name) 34 35 [],
          .piece .classBody (some .body) 35 43 [.piece .methodDefinition none 36 42 [
            .piece .propertyIdentifier (some .name) 36 37 [],
            .piece (.other "formal_parameters") (some .parameters) 37 39 [],
            .piece .statementBlock (some .body) 39 42 [
              .piece (.other "expression_statement") none 40 41 [
                .piece .identifier none 40 41 []]]]]]]],
    .piece (.other "expression_statement") none 44 71 [.piece .internalModule none 44 71 [
      .piece .identifier (some .name) 54 55 [],
      .piece .statementBlock (some .body) 55 71 [
        .piece (.other "import_alias") none 56 69 [.piece .identifier none 63 64 [],
          .piece .nestedIdentifier none 65 68 [.piece .identifier (some .object) 65 66 [],
            .piece .propertyIdentifier (some .property) 67 68 []]],
        .piece (.other "expression_statement") none 69 70 [.piece .identifier none 69 70 []]]]],
    .piece (.other "expression_statement") none 71 87 [.piece .internalModule none 71 87 [
      .piece .nestedIdentifier (some .name) 81 84 [
        .piece .identifier (some .object) 81 82 [],
        .piece .propertyIdentifier (some .property) 83 84 []],
      .piece .statementBlock (some .body) 84 87 [
        .piece (.other "expression_statement") none 85 86 [.piece .identifier none 85 86 []]]]]]

/-- Places of `namesakes`, by their numbers in the order of the text. -/
theorem mem_places_namesakes {p : Position} {i : Nat}
    (h : (Position.meaningful namesakes.tree)[i]? = some p) :
    (namesakes, p) ∈ Source.places (ofSources [namesakes]).sources :=
  List.mem_flatMap.mpr ⟨namesakes, List.mem_singleton.mpr rfl,
    List.mem_map.mpr ⟨p, List.mem_of_getElem? h, rfl⟩⟩

/-- Inside the function the name has no binding, though the variable in front gives a text. -/
theorem parameter_shadows_namesake :
    ∃ r scope further, (ofSources [namesakes]).Closest namesakes r scope further ∧
      (ofSources [namesakes]).Binds .parameter (namesakes.textOf r.node) scope ∧
      (ofSources [namesakes]).Declares .shared (namesakes.textOf r.node) ∧ .shared ∈ further ∧
      (ofSources [namesakes]).symbols.resolve? namesakes r = none := by
  obtain ⟨r, _, f, hf, list, hlist, u, hu, v, hv, hclosest, hfunction, hplain, hname, houter⟩ :
      ∃ r, (Position.meaningful namesakes.tree)[12]? = some r ∧
        ∃ f, (Position.meaningful namesakes.tree)[5]? = some f ∧
        ∃ list, f.tree.child? .parameters = some list ∧
        ∃ u, list.namedChildren[0]? = some u ∧ ∃ v, u.child? .pattern = some v ∧
          (ofSources [namesakes]).ListedClosest namesakes r 3 (.place namesakes.index f.route) ∧
          f.kind.isFunctionLike ∧ v.kind = .identifier ∧
          namesakes.textOf v.node = namesakes.textOf r.node ∧
          (ofSources [namesakes]).Declares .shared (namesakes.textOf r.node) ∧
          .shared ∈ (scopesFrom namesakes.index r.route).drop 4 := by
    refine ⟨_, rfl, _, rfl, _, rfl, _, rfl, _, rfl, ?_⟩
    decide +kernel
  have hbinds : (ofSources [namesakes]).Binds .parameter (namesakes.textOf r.node)
      (.place namesakes.index f.route) :=
    ⟨namesakes, f, v.node, mem_places_namesakes hf, .parameter hfunction
      (.typed hlist (List.mem_of_getElem? hu) hv ⟨_, .here (.inl hplain), rfl⟩), hname⟩
  exact ⟨r, _, _, hclosest.closest, hbinds, houter.1, houter.2,
    (known_forms_shadow hclosest.closest).1 .parameter rfl hbinds⟩

/-- A construct of the form is the closest that binds the name of some reference, and yet the
reference gives the text. -/
def Leaks (program : Program) (s : Source) (form : BindingForm) (text : Text) : Prop :=
  ∃ r scope further, program.Closest s r scope further ∧
    program.Binds form (s.textOf r.node) scope ∧
    (program.symbols.resolve? s r).map (·.text) = some text

theorem leaks_ownClassName : (ofSources [namesakes]).Leaks namesakes .ownClassName ['o'] := by
  obtain ⟨r, _, p, hp, name, hname, hclosest, hkind, hspelled, hresolve⟩ :
      ∃ r, (Position.meaningful namesakes.tree)[24]? = some r ∧
        ∃ p, (Position.meaningful namesakes.tree)[16]? = some p ∧
        ∃ name, p.tree.child? .name = some name ∧
          (ofSources [namesakes]).ListedClosest namesakes r 5 (.place namesakes.index p.route) ∧
          p.kind = .other "class" ∧ namesakes.textOf name.node = namesakes.textOf r.node ∧
          ((ofSources [namesakes]).symbols.resolve? namesakes r).map (·.text) = some ['o'] := by
    refine ⟨_, rfl, _, rfl, _, rfl, ?_⟩
    decide +kernel
  exact ⟨r, _, _, hclosest.closest, ⟨namesakes, p, name.node, mem_places_namesakes hp,
    .ownClassName hkind hname, hspelled⟩, hresolve⟩

theorem leaks_importAlias : (ofSources [namesakes]).Leaks namesakes .importAlias ['o'] := by
  obtain ⟨r, _, p, hp, name, hname, hclosest, hkind, hplain, hspelled, hresolve⟩ :
      ∃ r, (Position.meaningful namesakes.tree)[35]? = some r ∧
        ∃ p, (Position.meaningful namesakes.tree)[29]? = some p ∧
        ∃ name, p.tree.namedChildren.head? = some name ∧
          (ofSources [namesakes]).ListedClosest namesakes r 2 (namesakes.blockScope p) ∧
          p.kind = .other "import_alias" ∧ name.kind = .identifier ∧
          namesakes.textOf name.node = namesakes.textOf r.node ∧
          ((ofSources [namesakes]).symbols.resolve? namesakes r).map (·.text) = some ['o'] := by
    refine ⟨_, rfl, _, rfl, _, rfl, ?_⟩
    decide +kernel
  exact ⟨r, _, _, hclosest.closest, ⟨namesakes, p, name.node, mem_places_namesakes hp,
    .importAlias hkind hname hplain, hspelled⟩, hresolve⟩

theorem leaks_innerNamespace : (ofSources [namesakes]).Leaks namesakes .innerNamespace ['o'] := by
  obtain ⟨r, _, p, hp, name, hname, first, part, hparts, hclosest, hkind, hspelled, hresolve⟩ :
      ∃ r, (Position.meaningful namesakes.tree)[43]? = some r ∧
        ∃ p, (Position.meaningful namesakes.tree)[37]? = some p ∧
        ∃ name, p.tree.child? .name = some name ∧
        ∃ first part, name.namespaceParts? = some [first, part] ∧
          (ofSources [namesakes]).ListedClosest namesakes r 3 (.place namesakes.index p.route) ∧
          p.kind.isNamespace ∧ namesakes.textOf part = namesakes.textOf r.node ∧
          ((ofSources [namesakes]).symbols.resolve? namesakes r).map (·.text) = some ['o'] := by
    refine ⟨_, rfl, _, rfl, _, rfl, _, _, rfl, ?_⟩
    decide +kernel
  exact ⟨r, _, _, hclosest.closest, ⟨namesakes, p, part, mem_places_namesakes hp,
    .innerNamespace hkind hname hparts (List.mem_singleton.mpr rfl), hspelled⟩, hresolve⟩

/-- In the class, behind the import and in the body of the dotted namespace the name gives the text
of the variable in front. -/
theorem unknown_forms_do_not_shadow :
    (ofSources [namesakes]).Leaks namesakes .ownClassName ['o'] ∧
      (ofSources [namesakes]).Leaks namesakes .importAlias ['o'] ∧
      (ofSources [namesakes]).Leaks namesakes .innerNamespace ['o'] :=
  ⟨leaks_ownClassName, leaks_importAlias, leaks_innerNamespace⟩

end Program

end LiteralFolding
