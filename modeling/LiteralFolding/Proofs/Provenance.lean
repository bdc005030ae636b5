-- Where the text of a reference comes from. Whatever a reference is bound to was written as a
-- literal right behind a name of the program that the reference spells: the value of a variable
-- or of an entry of an enumeration. No other declaration gives a text, and no text is passed on
-- from one name to another.
import LiteralFolding.Program
import LiteralFolding.Proofs.Collecting
import LiteralFolding.Proofs.Fragments
import LiteralFolding.Proofs.Positions

namespace LiteralFolding

open SymbolTable

/-- The name that a reference ends in: an identifier itself, or the property of a member. -/
def Source.referredName? (s : Source) (p : Position) : Option Text :=
  match p.kind with
  | .identifier | .undefined => some (s.textOf p.node)
  | .memberExpression => (p.child? .property).map fun property => s.textOf property.node
  | _ => none

/-- The binding is of the source, which holds a literal right behind the name, with the text, kind
and location of the binding. -/
inductive Source.Gives (s : Source) (name : Text) (b : Binding) : Prop
  | declarator {p : Position} {declarator spelled value : Tree}
      (hsource : b.source = s.index) (hplace : p ∈ Position.meaningful s.tree)
      (hkind : p.variableKind? = some b.kind)
      (hdeclarator : declarator ∈ p.tree.namedChildren ∧ declarator.kind = .variableDeclarator)
      (hspelled : declarator.child? .name = some spelled ∧ spelled.kind = .identifier)
      (hname : s.textOf spelled.node = name) (hlocation : s.locationOf spelled.node = b.declaredAt)
      (hvalue : declarator.child? .value = some value)
      (hliteral : value.isLiteralLike ∧ s.literalText? value = some b.text)
  /-- A quoted name counts by its text. One that has no text counts as empty. -/
  | entry {p : Position} {body assignment spelled value : Tree}
      (hsource : b.source = s.index)
      (hplace : p ∈ Position.meaningful s.tree ∧ p.kind = .enumDeclaration)
      (hkind : b.kind = .enumMember) (hbody : p.tree.child? .body = some body)
      (hassignment : assignment ∈ body.namedChildren ∧ assignment.kind = .enumAssignment)
      (hspelled : assignment.child? .name = some spelled)
      (hname : spelled.kind ≠ .string ∧ s.textOf spelled.node = name ∨
        spelled.kind = .string ∧ (s.literalText? spelled = some name ∨
          s.literalText? spelled = none ∧ name = []))
      (hlocation : s.locationOf spelled.node = b.declaredAt)
      (hvalue : assignment.child? .value = some value)
      (hliteral : value.isLiteralLike ∧ s.literalText? value = some b.text)

/-! ## From a reference to an act -/

theorem SymbolTable.exists_scope_of_lookup {table : SymbolTable} {source id : Nat} {name : Text}
    {route : Route} (h : table.lookup source name route = some id) :
    ∃ scope, table.find? scope name = some id := by
  induction route with
  | nil =>
    rw [lookup, Option.or_eq_some_iff] at h
    rcases h with h | ⟨_, h⟩
    · exact ⟨_, h⟩
    · exact ⟨_, h⟩
  | cons step route ih =>
    rw [lookup, Option.or_eq_some_iff] at h
    rcases h with h | ⟨_, h⟩
    · exact ⟨_, h⟩
    · exact ih h

/-- A reference means what some scope holds under the name it ends in. -/
theorem SymbolTable.exists_scope_of_declarationOf? {table : SymbolTable} {s : Source} {p : Position}
    {id : Nat} (h : table.declarationOf? s p = some id) :
    ∃ scope name, s.referredName? p = some name ∧ table.find? scope name = some id := by
  unfold declarationOf? at h
  unfold Source.referredName?
  split at h
  · obtain ⟨scope, hscope⟩ := exists_scope_of_lookup h
    exact ⟨scope, _, by simp only [*], hscope⟩
  · obtain ⟨scope, hscope⟩ := exists_scope_of_lookup h
    exact ⟨scope, _, by simp only [*], hscope⟩
  · split at h
    · rename_i hproperty
      split at h
      · cases h
      · split at h
        · exact ⟨_, _, by simp only [*, Option.map_some], h⟩
        · cases h
    · cases h
  · cases h

/-- What a name of a scope stands for is on record as the declaration of an act with the name. -/
theorem SymbolTable.exists_act_of_find? {sources : List Source} {scope : Scope} {name : Text}
    {id : Nat} (h : (ofSources sources).find? scope name = some id) :
    ∃ a ∈ Source.acts sources, (ofSources sources).declaration? id = some a.declaration ∧
      a.declaration.name = name := by
  have horderly := Source.orderly_acts sources
  rw [ofSources_eq] at h ⊢
  obtain ⟨i, ⟨⟨a, ha, _, hname⟩, _⟩, rfl⟩ := (Ledger.find?_ofActs horderly).mp h
  obtain ⟨k, _, b, hb, _, hrecord, hname', _⟩ := Ledger.exists_record horderly ha
  exact ⟨b, List.mem_of_getElem? hb, hrecord, hname'.trans hname⟩

/-! ## From an act to a literal -/

namespace Source

variable {s : Source} {p : Position} {b : Binding}

theorem binding?_eq_some_iff {d : Declaration} :
    d.binding? = some b ↔ d.initializer = .literal b.text ∧ d.kind.bindsValue = true ∧
      d.kind = b.kind ∧ d.source = b.source ∧ d.location = b.declaredAt := by
  obtain ⟨text, kind, source, declaredAt⟩ := b
  unfold Declaration.binding?
  cases d.initializer with
  | missing => simp
  | expression kind => simp
  | literal text =>
    by_cases hbinds : d.kind.bindsValue
    · simp [hbinds]
    · simp [hbinds]

theorem literal_of_initializerOf {value : Option Tree} {text : Text}
    (h : initializerOf s value = .literal text) :
    ∃ v, value = some v ∧ v.isLiteralLike ∧ s.literalText? v = some text := by
  cases value with
  | none => cases h
  | some v =>
    simp only [initializerOf] at h
    split at h
    · rename_i hliteral
      cases h
      exact ⟨v, rfl, isLiteralLike_of_literalText? hliteral, hliteral⟩
    · cases h

/-- Names that are declared without a literal give no text. -/
theorem binding?_ne_of_mem_map {α : Type} {kind : DeclarationKind} {d : Declaration} {xs : List α}
    {node : α → Node} {initializer : Initializer}
    (hinitializer : ∀ text, initializer ≠ .literal text)
    (hd : d ∈ xs.map fun x => declarationAt s (node x) kind initializer) : d.binding? ≠ some b := by
  obtain ⟨x, _, rfl⟩ := List.mem_map.mp hd
  intro hb
  exact hinitializer _ (binding?_eq_some_iff.mp hb).1

theorem binding?_ne_of_mem_plain {kind : DeclarationKind} {names : List Node} {d : Declaration}
    (hd : d ∈ s.plainDeclarations kind names) : d.binding? ≠ some b :=
  binding?_ne_of_mem_map (by simp) hd

theorem binding?_ne_of_mem_own {kind : DeclarationKind} {t : Tree} {d : Declaration}
    (hd : d ∈ s.ownDeclaration kind t) : d.binding? ≠ some b :=
  binding?_ne_of_mem_map (by simp) hd

theorem binding?_ne_of_mem_namespace {t : Tree} {d : Declaration}
    (hd : d ∈ s.namespaceDeclarations t) : d.binding? ≠ some b :=
  binding?_ne_of_mem_map (by simp) hd

theorem gives_of_variable {kind : DeclarationKind} {d : Declaration}
    (hplace : p ∈ Position.meaningful s.tree) (hkind : p.variableKind? = some kind)
    (hd : d ∈ s.variableDeclarations kind p.tree) (hb : d.binding? = some b) :
    s.Gives d.name b := by
  unfold variableDeclarations at hd
  obtain ⟨⟨name, initializer⟩, hname, rfl⟩ := List.mem_map.mp hd
  obtain ⟨declarator, hdeclarator, hname⟩ := List.mem_flatMap.mp hname
  obtain ⟨hchild, hdeclarator⟩ := List.mem_filter.mp hdeclarator
  obtain ⟨hliteral, _, rfl, hsource, hlocation⟩ := binding?_eq_some_iff.mp hb
  unfold declaratorNames at hname
  split at hname
  · cases hname
  · rename_i spelled hspelled
    split at hname
    · rename_i hidentifier
      obtain ⟨rfl, rfl⟩ := Prod.mk.inj (List.mem_singleton.mp hname)
      obtain ⟨value, hvalue, hvalue'⟩ := literal_of_initializerOf hliteral
      exact .declarator hsource.symm hplace hkind ⟨hchild, of_decide_eq_true hdeclarator⟩
        ⟨hspelled, hidentifier⟩ rfl hlocation hvalue hvalue'
    · -- A pattern takes the value apart, so its names have no initializer.
      obtain ⟨_, _, hpair⟩ := List.mem_map.mp hname
      cases hpair
      cases hliteral

theorem gives_of_entry {d : Declaration} (hplace : p ∈ Position.meaningful s.tree)
    (hkind : p.kind = .enumDeclaration) (hd : d ∈ s.entryDeclarations p.tree)
    (hb : d.binding? = some b) : s.Gives d.name b := by
  unfold entryDeclarations at hd
  obtain ⟨assignment, hassignment, hmember⟩ := List.mem_filterMap.mp hd
  obtain ⟨body, hbody, hchild⟩ := List.mem_flatMap.mp hassignment
  obtain ⟨hliteral, _, hbkind, hsource, hlocation⟩ := binding?_eq_some_iff.mp hb
  simp only [enumMember?] at hmember
  split at hmember
  · cases hmember
  · rename_i hassigned
    obtain ⟨spelled, hspelled, rfl⟩ := Option.map_eq_some_iff.mp hmember
    obtain ⟨value, hvalue, hvalue'⟩ := literal_of_initializerOf hliteral
    refine .entry hsource.symm ⟨hplace, hkind⟩ hbkind.symm (Option.mem_toList.mp hbody)
      ⟨hchild, hassigned⟩ hspelled ?_ hlocation hvalue hvalue'
    by_cases hstring : spelled.kind = .string
    · refine .inr ⟨hstring, ?_⟩
      cases s.literalText? spelled with
      | none => simp [hstring]
      | some name => simp [hstring]
    · left
      simp [hstring]
  · cases hmember
    cases hliteral

theorem binding?_ne_of_mem_innerNames {scope : Scope} {d : Declaration}
    (hd : (scope, d) ∈ s.innerNames p) : d.binding? ≠ some b := by
  unfold innerNames at hd
  split at hd
  · obtain ⟨_, hd, heq⟩ := List.mem_map.mp hd
    cases heq
    rcases List.mem_append.mp hd with hd | hd
    · exact binding?_ne_of_mem_plain hd
    · split at hd
      · exact binding?_ne_of_mem_own hd
      · cases hd
  · cases hd

theorem gives_of_outerNames {scope : Scope} {d : Declaration}
    (hplace : p ∈ Position.meaningful s.tree) (hd : (scope, d) ∈ s.outerNames p)
    (hb : d.binding? = some b) : s.Gives d.name b := by
  obtain ⟨_, ds, hnames, _, hlisted⟩ := s.exists_listed p
  rw [hnames] at hd
  obtain ⟨_, hd, heq⟩ := List.mem_map.mp hd
  cases heq
  cases hlisted with
  | declared hkind => exact gives_of_variable hplace hkind hd hb
  | own => exact absurd hb (binding?_ne_of_mem_own hd)
  | outermost => exact absurd hb (binding?_ne_of_mem_namespace (List.mem_of_mem_take hd))
  | imported => exact absurd hb (binding?_ne_of_mem_plain hd)
  | bound => exact absurd hb (binding?_ne_of_mem_plain hd)
  | nothing => cases hd

theorem gives_of_memberActs {n : Nat} {a : Act} (hplace : p ∈ Position.meaningful s.tree)
    (ha : a ∈ s.memberActs p n) (hb : a.declaration.binding? = some b) :
    s.Gives a.declaration.name b := by
  unfold memberActs at ha
  split at ha <;> rename_i hkind
  · split at ha
    · obtain ⟨d, hd, rfl⟩ := List.mem_map.mp ha
      exact gives_of_entry hplace hkind hd hb
    · cases ha
  case h_4 => cases ha
  all_goals
    obtain ⟨⟨d, i⟩, hd, rfl⟩ := List.mem_map.mp ha
    have hmem := List.mem_of_mem_tail (List.fst_mem_of_mem_zipIdx hd)
    exact absurd hb (binding?_ne_of_mem_namespace hmem)

/-- Of what a place declares only a variable or an entry of an enumeration gives a text. -/
theorem gives_of_actsAt {owner : Option Nat} {n : Nat} {a : Act}
    (hplace : p ∈ Position.meaningful s.tree) (ha : a ∈ s.actsAt owner p n)
    (hb : a.declaration.binding? = some b) : s.Gives a.declaration.name b := by
  unfold actsAt at ha
  rcases List.mem_append.mp ha with ha | ha
  · rcases List.mem_append.mp ha with ha | ha
    · obtain ⟨⟨scope, d⟩, hd, rfl⟩ := List.mem_map.mp ha
      exact absurd hb (binding?_ne_of_mem_innerNames hd)
    · obtain ⟨⟨scope, d⟩, hd, rfl⟩ := List.mem_map.mp ha
      exact gives_of_outerNames hplace hd hb
  · exact gives_of_memberActs hplace ha hb

/-! ## The source of a binding -/

theorem getElem?_index_of_mem_number {sources : List Source} (h : s ∈ number sources) :
    (number sources)[s.index]? = some s := by
  unfold number at h ⊢
  obtain ⟨⟨original, i⟩, hmem, rfl⟩ := List.mem_map.mp h
  have horiginal := List.mem_zipIdx_iff_getElem?.mp hmem
  simp [List.getElem?_zipIdx, horiginal]

theorem index_of_gives {name : Text} (h : s.Gives name b) : b.source = s.index := by
  cases h with
  | declarator hsource => exact hsource
  | entry hsource => exact hsource

end Source

namespace Program

theorem source?_of_gives {sources : List Source} {origin : Source} {name : Text} {b : Binding}
    (horigin : origin ∈ Source.number sources) (h : origin.Gives name b) :
    (ofSources sources).source? b.source = some origin := by
  rw [Source.index_of_gives h]
  exact Source.getElem?_index_of_mem_number horigin

theorem exists_gives_of_resolve? {sources : List Source} {s : Source} {p : Position} {b : Binding}
    (h : (ofSources sources).symbols.resolve? s p = some b) :
    ∃ origin ∈ Source.number sources, ∃ name, s.referredName? p = some name ∧
      origin.Gives name b := by
  unfold resolve? at h
  obtain ⟨d, hd, hb⟩ := Option.bind_eq_some_iff.mp h
  obtain ⟨id, hid, hrecord⟩ := Option.bind_eq_some_iff.mp hd
  obtain ⟨scope, name, hname, hfind⟩ := exists_scope_of_declarationOf? hid
  obtain ⟨a, ha, hrecord', haname⟩ := exists_act_of_find? hfind
  obtain rfl := Option.some.inj (hrecord'.symm.trans hrecord)
  obtain ⟨origin, place, owner, n, hplace, hact⟩ :=
    (Emits.acts_of_sources (Source.number sources)).exists_place ha
  obtain ⟨origin', horigin, hplace⟩ := List.mem_flatMap.mp hplace
  obtain ⟨place', hplace, heq⟩ := List.mem_map.mp hplace
  cases heq
  have hgives := Source.gives_of_actsAt hplace hact hb
  rw [haname] at hgives
  exact ⟨origin, horigin, name, hname, hgives⟩

/-- Whatever a reference is bound to stands as a literal behind the name that the reference ends
in, in the source that the binding names. Only a reference that ends in no name at all can mean
an entry whose quoted name has no text. -/
theorem resolve?_gives_literal {sources : List Source} {s : Source} {p : Position} {b : Binding}
    (h : (ofSources sources).symbols.resolve? s p = some b) :
    ∃ origin name, (ofSources sources).source? b.source = some origin ∧
      s.referredName? p = some name ∧ origin.Gives name b := by
  obtain ⟨origin, horigin, name, hname, hgives⟩ := exists_gives_of_resolve? h
  exact ⟨origin, name, source?_of_gives horigin hgives, hname, hgives⟩

/-- The script `enum E{'b'='y'} E.b`. -/
def quotedEntry : Source where
  index := 0
  path := []
  dialect := .typeScript
  text := ['e', 'n', 'u', 'm', ' ', 'E', '{', '\'', 'b', '\'', '=', '\'', 'y', '\'', '}', ' ',
    'E', '.', 'b']
  tree := .piece (.other "program") none 0 19 [
    .piece .enumDeclaration none 0 15 [.piece .identifier (some .name) 5 6 [],
      .piece (.other "enum_body") (some .body) 6 15 [.piece .enumAssignment none 7 14 [
        .piece .string (some .name) 7 10 [], .piece .string (some .value) 11 14 []]]],
    .piece (.other "expression_statement") none 16 19 [.piece .memberExpression none 16 19 [
      .piece .identifier (some .object) 16 17 [],
      .piece .propertyIdentifier (some .property) 18 19 []]]]

theorem resolve?_quotedEntry :
    ∃ p ∈ Position.all quotedEntry.tree, ∃ b : Binding, b.text = ['y'] ∧
      (ofSources [quotedEntry]).symbols.resolve? quotedEntry p = some b ∧
      ∃ origin name, (ofSources [quotedEntry]).source? b.source = some origin ∧
        quotedEntry.referredName? p = some name ∧ origin.Gives name b := by
  obtain ⟨p, hp, hresolve⟩ : ∃ p, (Position.all quotedEntry.tree)[8]? = some p ∧
      (ofSources [quotedEntry]).symbols.resolve? quotedEntry p =
        some { text := ['y'], kind := .enumMember, source := 0, declaredAt := ⟨1, 1, 7, 10⟩ } := by
    refine ⟨_, rfl, ?_⟩
    decide +kernel
  exact ⟨p, List.mem_of_getElem? hp, _, rfl, hresolve, resolve?_gives_literal hresolve⟩

/-- The script `enum E{'\uDC00'='y'} E.[0]`, in which a property is missing behind the dot. -/
def unnamedEntry : Source where
  index := 0
  path := []
  dialect := .typeScript
  text := ['e', 'n', 'u', 'm', ' ', 'E', '{', '\'', '\\', 'u', 'D', 'C', '0', '0', '\'', '=', '\'',
    'y', '\'', '}', ' ', 'E', '.', '[', '0', ']']
  tree := .cracked (.other "program") none 0 26 [
    .piece .enumDeclaration none 0 20 [.piece .identifier (some .name) 5 6 [],
      .piece (.other "enum_body") (some .body) 6 20 [.piece .enumAssignment none 7 19 [
        .piece .string (some .name) 7 15 [.piece (.other "escape_sequence") none 8 14 []],
        .piece .string (some .value) 16 19 []]]],
    .cracked (.other "expression_statement") none 21 26 [
      .cracked (.other "subscript_expression") none 21 26 [
        .cracked .memberExpression (some .object) 21 23 [
          .piece .identifier (some .object) 21 22 [],
          .cracked .propertyIdentifier (some .property) 23 23 []],
        .piece .number (some (.other "index")) 24 25 []]]]

/-- The name of the entry is half of a surrogate pair and has no text, yet the member without a
property is bound to it. -/
theorem resolve?_unnamedEntry :
    ∃ p ∈ Position.all unnamedEntry.tree, ∃ b : Binding, b.text = ['y'] ∧
      (ofSources [unnamedEntry]).symbols.resolve? unnamedEntry p = some b ∧
      unnamedEntry.referredName? p = some [] ∧
      ∀ q ∈ Position.all unnamedEntry.tree, unnamedEntry.locationOf q.node = b.declaredAt →
        q.kind = .string ∧ unnamedEntry.literalText? q.tree = none := by
  obtain ⟨p, hp, hresolve, hname⟩ : ∃ p, (Position.all unnamedEntry.tree)[10]? = some p ∧
      (ofSources [unnamedEntry]).symbols.resolve? unnamedEntry p =
        some { text := ['y'], kind := .enumMember, source := 0, declaredAt := ⟨1, 1, 7, 15⟩ } ∧
      unnamedEntry.referredName? p = some [] := by
    refine ⟨_, rfl, ?_, rfl⟩
    decide +kernel
  refine ⟨p, List.mem_of_getElem? hp, _, rfl, hresolve, hname, ?_⟩
  decide +kernel

end Program

end LiteralFolding
