-- The symbol table in good order. A name stands for a declaration of that name, only enumerations
-- and namespaces have members, and an entry of an enumeration is nothing but a member. Declaring a
-- name and giving a declaration one more name both keep it so, as long as members go to what can
-- have them; the acts of a program keep to that.
import LiteralFolding.Proofs.Collecting

namespace LiteralFolding

/-! ## Tables in good order -/

namespace SymbolTable

/-- The number is that of a declaration that can have members. -/
def CanOwn (table : SymbolTable) (c : Nat) : Prop :=
  ∃ d, table.declaration? c = some d ∧ (d.kind = .enumeration ∨ d.kind = .namespaceBlock)

/-- The names of a table stand for what the table has on record. -/
structure IsSound (table : SymbolTable) : Prop where
  /-- A scope has a name once. -/
  distinct : table.entries.Pairwise fun e e' => e.scope = e'.scope → e.name ≠ e'.name
  /-- What a name stands for is on record. -/
  recorded : ∀ e ∈ table.entries, e.declaration < table.declarations.length
  /-- It is a declaration of that name. -/
  named : ∀ e ∈ table.entries, ∀ d, table.declaration? e.declaration = some d → d.name = e.name
  /-- Members belong to an enumeration or a namespace. -/
  owned : ∀ e ∈ table.entries, ∀ c, e.scope = .members c → table.CanOwn c
  /-- An entry of an enumeration is a member only. -/
  inner : ∀ e ∈ table.entries, ∀ d, table.declaration? e.declaration = some d →
    d.kind = .enumMember → ∃ c, e.scope = .members c

variable {table later : SymbolTable} {scope : Scope} {name : Text} {id c : Nat}
  {d : Declaration}

theorem CanOwn.extends (h : table.CanOwn c) (hlater : table.Extends later) : later.CanOwn c := by
  obtain ⟨d, hd, hkind⟩ := h
  exact ⟨d, hlater.declarations c d hd, hkind⟩

theorem canOwn_of_isContainer (hd : table.declaration? c = some d)
    (hkind : d.kind.isContainer = true) : table.CanOwn c := by
  refine ⟨d, hd, ?_⟩
  revert hkind
  cases d.kind <;> simp [DeclarationKind.isContainer]

theorem isSound_empty : IsSound {} := by
  constructor <;> simp

/-! ## One write -/

theorem find?_eq_none_iff :
    table.find? scope name = none ↔ ∀ e ∈ table.entries, e.scope = scope → e.name ≠ name := by
  simp [find?]

/-- One more name for a declaration. -/
theorem IsSound.bind (h : table.IsSound) (hd : table.declaration? id = some d)
    (howned : ∀ c, scope = .members c → table.CanOwn c)
    (hinner : d.kind = .enumMember → ∃ c, scope = .members c) :
    (table.bind scope d.name id).IsSound := by
  unfold SymbolTable.bind
  split
  · exact h
  · rename_i hnew
    rw [Bool.not_eq_true, Option.isSome_eq_false_iff, Option.isNone_iff_eq_none,
      find?_eq_none_iff] at hnew
    have hid := (List.getElem?_eq_some_iff.mp hd).1
    constructor
    · refine List.pairwise_append.mpr ⟨h.distinct, List.pairwise_singleton _ _, ?_⟩
      intro e he e' he'
      obtain rfl := List.mem_singleton.mp he'
      exact hnew e he
    · exact List.forall_mem_append.mpr ⟨h.recorded, List.forall_mem_singleton.mpr hid⟩
    · refine List.forall_mem_append.mpr ⟨h.named, List.forall_mem_singleton.mpr ?_⟩
      intro d' hd'
      rw [Option.some.inj (hd'.symm.trans hd)]
    · exact List.forall_mem_append.mpr ⟨h.owned, List.forall_mem_singleton.mpr howned⟩
    · refine List.forall_mem_append.mpr ⟨h.inner, List.forall_mem_singleton.mpr ?_⟩
      intro d' hd'
      rw [Option.some.inj (hd'.symm.trans hd)]
      exact hinner

theorem declaration?_record (table : SymbolTable) (d : Declaration) :
    (table.record d).declaration? table.declarations.length = some d := by
  simp [record, declaration?]

theorem IsSound.record (h : table.IsSound) (d : Declaration) : (table.record d).IsSound := by
  -- What the names stand for was on record before.
  have hsame : ∀ e ∈ table.entries,
      (table.record d).declaration? e.declaration = table.declaration? e.declaration :=
    fun e he => List.getElem?_append_left (h.recorded e he)
  constructor
  · exact h.distinct
  · intro e he
    rw [SymbolTable.record, List.length_append]
    exact Nat.lt_add_right _ (h.recorded e he)
  · intro e he
    rw [hsame e he]
    exact h.named e he
  · exact fun e he c hc => (h.owned e he c hc).extends (extends_record table d)
  · intro e he
    rw [hsame e he]
    exact h.inner e he

/-- One more declaration, or one that an earlier one takes in. -/
theorem IsSound.add (h : table.IsSound) (howned : ∀ c, scope = .members c → table.CanOwn c)
    (hinner : d.kind = .enumMember → ∃ c, scope = .members c) : (table.add scope d).1.IsSound := by
  cases hnew : table.continued? scope d with
  | none =>
    rw [add_eq_bind_record hnew]
    refine (h.record d).bind (declaration?_record table d) ?_ hinner
    exact fun c hc => (howned c hc).extends (extends_record table d)
  | some id =>
    rw [add_of_continued table hnew]
    exact h

theorem mem_entries_of_find? (h : table.find? scope name = some id) :
    { scope, name, declaration := id } ∈ table.entries := by
  obtain ⟨e, he, rfl⟩ := Option.map_eq_some_iff.mp h
  have hkey : e.scope = scope ∧ e.name = name := by simpa using List.find?_some he
  obtain ⟨rfl, rfl⟩ := hkey
  exact List.mem_of_find?_eq_some he

/-- The number that is given out is that of a declaration of the name and kind asked for. -/
theorem IsSound.declaration?_add (h : table.IsSound) (scope : Scope) (d : Declaration) :
    ∃ d', (table.add scope d).1.declaration? (table.add scope d).2 = some d' ∧
      d'.name = d.name ∧ d'.kind = d.kind := by
  cases hnew : table.continued? scope d with
  | none =>
    refine ⟨d, ?_, rfl, rfl⟩
    rw [add_of_new table hnew]
    simp [declaration?]
  | some id =>
    obtain ⟨hfind, _, prior, hprior, hkind⟩ := (continued?_eq_some_iff table).mp hnew
    rw [add_of_continued table hnew]
    exact ⟨prior, hprior, h.named _ (mem_entries_of_find? hfind) prior hprior, hkind⟩

end SymbolTable

/-! ## Lawful acts -/

namespace Act

/-- Among the acts so far the one with this number declares something that can have members. -/
def HasOwner (acts : List Act) (c : Nat) : Prop :=
  ∃ a, acts[c]? = some a ∧ a.declaration.kind.isContainer = true

/-- Each act makes its name a member only of what an act before it declared as able to have
members, and entries of enumerations are declared as members only. -/
inductive Lawful : List Act → Prop
  | nil : Lawful []
  | snoc {acts : List Act} {a : Act} (h : Lawful acts)
      (howner : ∀ c ∈ a.container?, HasOwner acts c)
      (hinner : a.declaration.kind = .enumMember → a.lexical? = none) : Lawful (acts ++ [a])

variable {acts more : List Act} {a : Act} {c : Nat} {owner : Option Nat}

theorem HasOwner.append (h : HasOwner acts c) (more : List Act) : HasOwner (acts ++ more) c := by
  obtain ⟨a, ha, hkind⟩ := h
  exact ⟨a, by rw [List.getElem?_append_left (List.getElem?_eq_some_iff.mp ha).1, ha], hkind⟩

theorem hasOwner_length (acts : List Act) (h : a.declaration.kind.isContainer = true) :
    HasOwner (acts ++ [a]) acts.length := ⟨a, by simp, h⟩

theorem Lawful.of_append (h : Lawful (acts ++ more)) : Lawful acts := by
  induction more using List.reverseRecOn with
  | nil => simpa using h
  | append_singleton more a ih =>
    rw [← List.append_assoc] at h
    generalize hall : acts ++ more ++ [a] = all at h
    cases h with
    | nil => simp at hall
    | snoc h _ _ =>
      obtain ⟨rfl, _⟩ := List.append_inj' hall rfl
      exact ih h

/-- Names in scopes of the text, all with the same owner. -/
theorem Lawful.append_inScope (h : Lawful acts) (howner : ∀ c ∈ owner, HasOwner acts c)
    (names : List (Scope × Declaration)) (hkind : ∀ x ∈ names, x.2.kind ≠ .enumMember) :
    Lawful (acts ++ names.map fun (scope, d) => .inScope scope d owner) := by
  induction names generalizing acts with
  | nil => simpa using h
  | cons x names ih =>
    rw [List.forall_mem_cons] at hkind
    rw [List.map_cons, List.append_cons]
    refine ih (h.snoc howner fun heq => absurd heq hkind.1) ?_ hkind.2
    exact fun c hc => (howner c hc).append _

/-- Members of one owner. -/
theorem Lawful.append_inside (h : Lawful acts) (howner : HasOwner acts c) (ds : List Declaration) :
    Lawful (acts ++ ds.map (.inside c ·)) := by
  induction ds generalizing acts with
  | nil => simpa using h
  | cons d ds ih =>
    rw [List.map_cons, List.append_cons]
    refine ih (h.snoc ?_ fun _ => rfl) (howner.append _)
    rintro c ⟨rfl⟩
    exact howner

/-- Members inside one another, the first of them inside the last act so far. -/
theorem Lawful.append_zipIdx {i : Nat} (h : Lawful acts) (hlength : acts.length = i + 1)
    (howner : HasOwner acts i) (ds : List Declaration)
    (hkind : ∀ d ∈ ds, d.kind.isContainer = true) :
    Lawful (acts ++ (ds.zipIdx i).map fun (d, i) => .inside i d) ∧
      HasOwner (acts ++ (ds.zipIdx i).map fun (d, i) => .inside i d) (i + ds.length) := by
  induction ds generalizing acts i with
  | nil => simpa using ⟨h, howner⟩
  | cons d ds ih =>
    rw [List.forall_mem_cons] at hkind
    rw [List.zipIdx_cons, List.map_cons, List.append_cons, List.length_cons, ← Nat.add_assoc,
      Nat.add_right_comm]
    refine ih (h.snoc ?_ fun _ => rfl) (by simp [hlength]) ?_ hkind.2
    · rintro c ⟨rfl⟩
      exact howner
    · rw [← hlength]
      exact hasOwner_length acts hkind.1

end Act

/-! ## The acts of a program are lawful -/

namespace Source

open Act SymbolTable

variable {s : Source} {p : Position} {acts : List Act} {owner : Option Nat}

theorem kind_ne_of_mem_map {α : Type} {declare : α → Declaration} {xs : List α} {scope : Scope}
    (h : ∀ x, (declare x).kind ≠ .enumMember) :
    ∀ x ∈ (xs.map declare).map (scope, ·), x.2.kind ≠ .enumMember := by
  intro x hx
  simp only [List.map_map, List.mem_map, Function.comp_apply] at hx
  obtain ⟨y, _, rfl⟩ := hx
  exact h y

theorem kind_ne_of_mem_innerNames : ∀ x ∈ s.innerNames p, x.2.kind ≠ .enumMember := by
  unfold innerNames
  split
  · rw [List.map_append, List.forall_mem_append]
    constructor
    · apply kind_ne_of_mem_map
      simp [declarationAt]
    · split
      · apply kind_ne_of_mem_map
        simp [declarationAt]
      · simp
  · simp

theorem kind_ne_of_mem_outerNames : ∀ x ∈ s.outerNames p, x.2.kind ≠ .enumMember := by
  unfold outerNames
  split
  case h_1 =>
    apply kind_ne_of_mem_map
    simp only [declarationAt]
    split <;> simp
  case h_9 | h_10 =>
    rw [namespaceDeclarations, ← List.map_take]
    apply kind_ne_of_mem_map
    simp [declarationAt]
  case h_13 =>
    split
    · split
      all_goals
        apply kind_ne_of_mem_map
        simp [declarationAt]
    · simp
  case h_14 => simp
  all_goals
    apply kind_ne_of_mem_map
    simp [declarationAt]

theorem isContainer_of_mem_namespaceDeclarations {t : Tree} :
    ∀ d ∈ s.namespaceDeclarations t, d.kind.isContainer = true := by
  intro d hd
  obtain ⟨name, _, rfl⟩ := List.mem_map.mp hd
  rfl

theorem hasOwner_of_exports (h : ∀ c ∈ owner, HasOwner acts c) :
    ∀ c ∈ (if exports p then owner else none), HasOwner acts c := by
  intro c hc
  split at hc
  · exact h c hc
  · cases hc

/-- The names of a node, without what it declares as members of its own. -/
theorem lawful_names (h : Lawful acts) (howner : ∀ c ∈ owner, HasOwner acts c) :
    Lawful (acts ++ ((s.innerNames p).map (fun (scope, d) => .inScope scope d none) ++
      (s.outerNames p).map fun (scope, d) =>
        .inScope scope d (if exports p then owner else none))) := by
  rw [← List.append_assoc]
  refine (h.append_inScope (by simp) _ kind_ne_of_mem_innerNames).append_inScope ?_ _
    kind_ne_of_mem_outerNames
  exact fun c hc => (hasOwner_of_exports howner c hc).append _

/-- The first part of a namespace's name goes to the scope, each further one inside the part
before it. -/
theorem lawful_actsAt_namespace (hkind : p.kind.isNamespace) (h : Lawful acts)
    (howner : ∀ c ∈ owner, HasOwner acts c) :
    Lawful (acts ++ s.actsAt owner p acts.length) ∧
      ∀ c ∈ s.openedAt p acts.length, HasOwner (acts ++ s.actsAt owner p acts.length) c := by
  have hcontainer := isContainer_of_mem_namespaceDeclarations (s := s) (t := p.tree)
  have hnames := lawful_names (s := s) (p := p) h howner
  unfold actsAt openedAt
  rw [innerNames_of_isNamespace hkind, outerNames_of_isNamespace hkind] at hnames ⊢
  rw [memberActs_of_isNamespace hkind, if_pos hkind]
  cases hparts : s.namespaceDeclarations p.tree with
  | nil => simpa using h
  | cons first rest =>
    rw [hparts] at hnames hcontainer
    rw [List.forall_mem_cons] at hcontainer
    have hrest := Lawful.append_zipIdx hnames (by simp) (hasOwner_length acts hcontainer.1) rest
      hcontainer.2
    simpa using hrest

/-- The entries of an enumeration go inside the act of its name. -/
theorem lawful_actsAt_enumeration (hkind : p.kind = .enumDeclaration) (h : Lawful acts)
    (howner : ∀ c ∈ owner, HasOwner acts c) : Lawful (acts ++ s.actsAt owner p acts.length) := by
  have hnames := lawful_names (s := s) (p := p) h howner
  have hmembers : s.memberActs p acts.length =
      if (p.tree.child? .name).isSome then (s.entryDeclarations p.tree).map (.inside acts.length ·)
      else [] := by
    simp only [memberActs, hkind]
  rw [actsAt, hmembers, ← List.append_assoc]
  cases hname : p.tree.child? .name with
  | none => simpa using hnames
  | some name =>
    refine hnames.append_inside ?_ _
    have hinner : s.innerNames p = [] := by simp [innerNames, hkind, Kind.isFunctionLike]
    have houter : s.outerNames p = [(s.blockScope p,
        declarationAt s name.node .enumeration (.expression p.tree.kind))] := by
      simp [outerNames, hkind, ownDeclaration, hname]
    rw [hinner, houter]
    exact hasOwner_length acts rfl

theorem lawful_actsAt (h : Lawful acts) (howner : ∀ c ∈ owner, HasOwner acts c) :
    Lawful (acts ++ s.actsAt owner p acts.length) := by
  by_cases hnamespace : p.kind.isNamespace
  · exact (lawful_actsAt_namespace hnamespace h howner).1
  · by_cases henum : p.kind = .enumDeclaration
    · exact lawful_actsAt_enumeration henum h howner
    · have hmembers : s.memberActs p acts.length = [] := by
        unfold memberActs
        split <;> simp_all [Kind.isNamespace]
      rw [actsAt, hmembers, List.append_nil]
      exact lawful_names h howner

theorem hasOwner_openedAt (h : Lawful acts) (howner : ∀ c ∈ owner, HasOwner acts c) :
    ∀ c ∈ s.openedAt p acts.length, HasOwner (acts ++ s.actsAt owner p acts.length) c := by
  by_cases hnamespace : p.kind.isNamespace
  · exact (lawful_actsAt_namespace hnamespace h howner).2
  · simp [openedAt, hnamespace]

/-- What exports below a node go to can have members. -/
theorem hasOwner_ownerBelow (h : Lawful acts) (howner : ∀ c ∈ owner, HasOwner acts c) :
    ∀ c ∈ s.ownerBelow owner p acts.length,
      HasOwner (acts ++ s.actsAt owner p acts.length) c := by
  have hopened := hasOwner_openedAt (s := s) (p := p) h howner
  have hsame : ∀ c ∈ owner, HasOwner (acts ++ s.actsAt owner p acts.length) c :=
    fun c hc => (howner c hc).append _
  unfold ownerBelow
  split
  · exact hopened
  · exact hopened
  · split
    · exact hsame
    · simp
  · exact hsame
  · exact hsame
  · simp

mutual

theorem lawful_actsTree {acts : List Act} {owner : Option Nat} (h : Lawful acts)
    (howner : ∀ c ∈ owner, HasOwner acts c) (above : List Node) (route : Route) : (t : Tree) →
    Lawful (acts ++ s.actsTree owner above route t acts.length)
  | .mk node children => by
    rw [actsTree, ← List.append_assoc]
    have hbelow := hasOwner_ownerBelow (s := s) (p := { tree := .mk node children, above, route })
      h howner
    have hlawful := lawful_actsAll (lawful_actsAt h howner) hbelow (node :: above) route 0 children
    rwa [List.length_append] at hlawful

theorem lawful_actsAll {acts : List Act} {owner : Option Nat} (h : Lawful acts)
    (howner : ∀ c ∈ owner, HasOwner acts c) (above : List Node) (route : Route) (i : Nat) :
    (ts : List Tree) → Lawful (acts ++ s.actsAll owner above route i ts acts.length)
  | [] => by simpa [actsAll] using h
  | t :: ts => by
    rw [actsAll, ← List.append_assoc, ← List.length_append]
    refine lawful_actsAll ?_ (fun c hc => (howner c hc).append _) above route (i + 1) ts
    split
    · exact lawful_actsTree h howner above (i :: route) t
    · simpa using h

end

theorem lawful_acts (sources : List Source) : Lawful (Source.acts sources) := by
  induction sources using List.reverseRecOn with
  | nil => exact .nil
  | append_singleton sources s ih =>
    rw [acts_snoc]
    exact lawful_actsTree ih (by simp) [] [] s.tree

end Source

end LiteralFolding
