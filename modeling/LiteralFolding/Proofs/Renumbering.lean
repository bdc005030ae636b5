-- Numbers that move. A source that is put into a program moves the numbers of the sources behind
-- it, and its declarations move the numbers of theirs. Apart from that the sources behind it
-- declare what they declared without it, step by step, and a reference is bound to the same text.
import LiteralFolding.Program
import LiteralFolding.Proofs.Collecting
import LiteralFolding.Proofs.Positions

namespace LiteralFolding

/-! ## Moved numbers -/

/-- Where a source is put in, and the numbers that its declarations take. -/
structure Room where
  source : Nat
  start : Nat
  width : Nat

namespace Room

/-- A number after `width` new ones were put in at `start`. -/
def past (start width n : Nat) : Nat := if n < start then n else n + width

theorem past_of_lt {start n : Nat} (width : Nat) (h : n < start) : past start width n = n :=
  if_pos h

theorem past_of_le {start n : Nat} (width : Nat) (h : start ≤ n) :
    past start width n = n + width :=
  if_neg (Nat.not_lt.mpr h)

theorem past_inj {start width m n : Nat} : past start width m = past start width n ↔ m = n := by
  unfold past
  split <;> split <;> omega

theorem past_lt {start width m n : Nat} : past start width m < past start width n ↔ m < n := by
  unfold past
  split <;> split <;> omega

variable (r : Room)

def sourceNumber (i : Nat) : Nat := past r.source 1 i

def number (id : Nat) : Nat := past r.start r.width id

def scope : Scope → Scope
  | .shared => .shared
  | .place source route => .place (r.sourceNumber source) route
  | .members declaration => .members (r.number declaration)

def record (d : Declaration) : Declaration := { d with source := r.sourceNumber d.source }

/-- The acts that an act makes a member of are counted from the start of its source, so they do not
move. -/
def act : Act → Act
  | .inScope scope d exportedTo => .inScope (r.scope scope) (r.record d) exportedTo
  | .inside container d => .inside container (r.record d)

def moved (s : Source) : Source := { s with index := r.sourceNumber s.index }

theorem scope_inj {a b : Scope} : r.scope a = r.scope b ↔ a = b := by
  cases a <;> cases b <;> simp [scope, sourceNumber, number, past_inj]

@[simp] theorem container?_act (a : Act) : (r.act a).container? = a.container? := by
  cases a <;> rfl

@[simp] theorem declaration_act (a : Act) : (r.act a).declaration = r.record a.declaration := by
  cases a <;> rfl

end Room

/-! ## The acts of a moved source -/

namespace Source

open SymbolTable

variable (r : Room) (s : Source)

theorem scopeAbove_moved (test : Kind → Option Kind → Bool) (p : Position) :
    (r.moved s).scopeAbove test p = r.scope (s.scopeAbove test p) := by
  unfold scopeAbove
  cases Position.nearestAbove test p.above p.route with
  | some route => rfl
  | none =>
    change (if s.isModule then _ else _) = r.scope (if s.isModule then _ else _)
    split <;> rfl

theorem blockScope_moved (p : Position) : (r.moved s).blockScope p = r.scope (s.blockScope p) :=
  scopeAbove_moved r s _ p

theorem functionScope_moved (p : Position) :
    (r.moved s).functionScope p = r.scope (s.functionScope p) :=
  scopeAbove_moved r s _ p

theorem variableDeclarations_moved (kind : DeclarationKind) (t : Tree) :
    (r.moved s).variableDeclarations kind t = (s.variableDeclarations kind t).map r.record := by
  unfold variableDeclarations
  rw [List.map_map]
  rfl

theorem ownDeclaration_moved (kind : DeclarationKind) (t : Tree) :
    (r.moved s).ownDeclaration kind t = (s.ownDeclaration kind t).map r.record := by
  unfold ownDeclaration
  rw [List.map_map]
  rfl

theorem plainDeclarations_moved (kind : DeclarationKind) (names : List Node) :
    (r.moved s).plainDeclarations kind names = (s.plainDeclarations kind names).map r.record := by
  unfold plainDeclarations
  rw [List.map_map]
  rfl

theorem namespaceDeclarations_moved (t : Tree) :
    (r.moved s).namespaceDeclarations t = (s.namespaceDeclarations t).map r.record := by
  unfold namespaceDeclarations
  rw [List.map_map]
  rfl

theorem entryDeclarations_moved (t : Tree) :
    (r.moved s).entryDeclarations t = (s.entryDeclarations t).map r.record := by
  have hentry : ∀ entry, enumMember? (r.moved s) entry = (enumMember? s entry).map r.record := by
    intro entry
    unfold enumMember?
    cases entry.kind
    case enumAssignment => cases entry.child? .name <;> rfl
    all_goals rfl
  unfold entryDeclarations
  rw [List.map_filterMap]
  exact congrArg (fun f => List.filterMap f _) (funext hentry)

theorem innerNames_moved (p : Position) :
    (r.moved s).innerNames p = (s.innerNames p).map (Prod.map r.scope r.record) := by
  unfold innerNames
  split
  · rw [plainDeclarations_moved, ownDeclaration_moved]
    split <;> simp [Function.comp_def, Room.scope, Room.moved]
  · rfl

theorem map_pair_moved (scope : Scope) (ds : List Declaration) :
    (ds.map r.record).map (r.scope scope, ·) =
      (ds.map (scope, ·)).map (Prod.map r.scope r.record) := by
  simp [Function.comp_def]

theorem outerNames_moved (p : Position) :
    (r.moved s).outerNames p = (s.outerNames p).map (Prod.map r.scope r.record) := by
  have hplace : Scope.place (r.moved s).index p.route = r.scope (.place s.index p.route) := rfl
  unfold outerNames
  rw [blockScope_moved, functionScope_moved, hplace]
  simp only [variableDeclarations_moved, ownDeclaration_moved, plainDeclarations_moved,
    namespaceDeclarations_moved, ← List.map_take, map_pair_moved]
  cases p.kind
  case forInStatement =>
    cases p.tree.child? .keyword with
    | none => rfl
    | some keyword =>
      cases p.tree.child? .left with
      | none => rfl
      | some left =>
        dsimp only
        cases keyword.kind <;> rfl
  all_goals rfl

theorem memberActs_moved (p : Position) (n : Nat) :
    (r.moved s).memberActs p n = (s.memberActs p n).map r.act := by
  unfold memberActs
  rw [entryDeclarations_moved, namespaceDeclarations_moved]
  cases p.kind
  case enumDeclaration =>
    dsimp only
    split
    · simp [Function.comp_def, Room.act]
    · rfl
  case internalModule | externalModule =>
    simp [← List.map_tail, List.zipIdx_map, Function.comp_def, Room.act]
  all_goals rfl

theorem actsAt_moved (owner : Option Nat) (p : Position) (n : Nat) :
    (r.moved s).actsAt owner p n = (s.actsAt owner p n).map r.act := by
  unfold actsAt
  rw [innerNames_moved, outerNames_moved, memberActs_moved]
  simp [Function.comp_def, Room.act]

theorem ownerBelow_moved (owner : Option Nat) (p : Position) (n : Nat) :
    (r.moved s).ownerBelow owner p n = s.ownerBelow owner p n := by
  have hopened : (r.moved s).openedAt p n = s.openedAt p n := by
    unfold openedAt
    rw [namespaceDeclarations_moved]
    cases s.namespaceDeclarations p.tree <;> simp
  unfold ownerBelow
  rw [hopened]

mutual

theorem actsTree_moved (owner : Option Nat) (above : List Node) (route : Route) (n : Nat) :
    (t : Tree) → (r.moved s).actsTree owner above route t n =
      (s.actsTree owner above route t n).map r.act
  | .mk node children => by
    rw [actsTree, actsTree, actsAt_moved, ownerBelow_moved, List.length_map,
      actsAll_moved _ _ _ _ _ children, List.map_append]

theorem actsAll_moved (owner : Option Nat) (above : List Node) (route : Route) (i n : Nat) :
    (ts : List Tree) → (r.moved s).actsAll owner above route i ts n =
      (s.actsAll owner above route i ts n).map r.act
  | [] => by rw [actsAll, actsAll, List.map_nil]
  | t :: ts => by
    have hfirst : (if t.node.named then (r.moved s).actsTree owner above (i :: route) t n else []) =
        (if t.node.named then s.actsTree owner above (i :: route) t n else []).map r.act := by
      split
      · exact actsTree_moved owner above (i :: route) n t
      · rfl
    rw [actsAll, actsAll, hfirst, List.length_map, actsAll_moved _ _ _ _ _ ts, List.map_append]

end

end Source

/-! ## Acts counted from the start of a source -/

/-- The acts, the first of them act `n`, make members of earlier ones only. -/
def Act.Backward (n : Nat) (acts : List Act) : Prop :=
  ∀ (i : Nat) (a : Act), acts[i]? = some a → ∀ c ∈ a.container?, c < n + i

theorem Act.Backward.tail {n : Nat} {a : Act} {acts : List Act} (h : Backward n (a :: acts)) :
    Backward (n + 1) acts := by
  intro i b hb c hc
  have := h (i + 1) b (by simpa using hb) c hc
  omega

theorem Source.backward_actsTree (s : Source) (n : Nat) :
    Act.Backward n (s.actsTree none [] [] s.tree n) := by
  intro i a ha c hc
  exact (Emits.actsTree (by simp) [] [] s.tree).earlier ha hc

/-! ## Tables that mirror each other -/

/-- What a declaration says about a name, apart from where it stands. -/
def Declaration.content (d : Declaration) : DeclarationKind × Initializer := (d.kind, d.initializer)

theorem Declaration.text_of_content {d e : Declaration} (h : d.content = e.content) :
    d.binding?.map (·.text) = e.binding?.map (·.text) := by
  obtain ⟨hkind, hinitializer⟩ := Prod.mk.inj h
  unfold Declaration.binding?
  rw [hinitializer, hkind]
  cases e.initializer with
  | literal text =>
    dsimp only
    split <;> rfl
  | missing => rfl
  | expression kind => rfl

namespace SymbolTable

/-- The image is the table with its numbers moved, and has something of its own besides. -/
structure Mirrors (r : Room) (table image : SymbolTable) : Prop where
  start_le : r.start ≤ table.declarations.length
  length_eq : image.declarations.length = table.declarations.length + r.width
  records : ∀ id, (image.declaration? (r.number id)).map Declaration.content =
    (table.declaration? id).map Declaration.content
  names : ∀ scope name, image.find? (r.scope scope) name = (table.find? scope name).map r.number

variable {r : Room} {table image : SymbolTable}

theorem Mirrors.number_length (h : Mirrors r table image) :
    r.number table.declarations.length = image.declarations.length := by
  rw [h.length_eq]
  exact Room.past_of_le _ h.start_le

theorem Mirrors.any_kind (h : Mirrors r table image) (test : DeclarationKind → Bool) (id : Nat) :
    (image.declaration? (r.number id)).any (test ·.kind) =
      (table.declaration? id).any (test ·.kind) := by
  have hrecords := congrArg (Option.any fun content => test content.1) (h.records id)
  simpa [Option.any_map, Function.comp_def, Declaration.content] using hrecords

theorem Mirrors.continued? (h : Mirrors r table image) (scope : Scope) (d : Declaration) :
    image.continued? (r.scope scope) (r.record d) = (table.continued? scope d).map r.number := by
  unfold SymbolTable.continued?
  rw [show (r.record d).name = d.name from rfl, h.names]
  cases table.find? scope d.name with
  | none => rfl
  | some id =>
    have hkind := h.any_kind (fun kind => kind.isContainer && kind = d.kind) id
    rw [Option.map_some, Option.filter_some, Option.filter_some,
      show (r.record d).kind = d.kind from rfl, hkind]
    split <;> rfl

theorem Mirrors.bind (h : Mirrors r table image) (scope : Scope) (name : Text) (id : Nat) :
    Mirrors r (table.bind scope name id) (image.bind (r.scope scope) name (r.number id)) where
  start_le := by simpa using h.start_le
  length_eq := by simpa using h.length_eq
  records := by simpa [declaration?] using h.records
  names other text := by
    simp only [find?_bind, h.names, r.scope_inj]
    cases table.find? other text with
    | some prior => rfl
    | none =>
      simp only [Option.map_none, Option.none_or]
      split <;> rfl

/-- One declaration: it continues what it continued, or takes the next number. -/
theorem Mirrors.add (h : Mirrors r table image) (scope : Scope) (d : Declaration) :
    Mirrors r (table.add scope d).1 (image.add (r.scope scope) (r.record d)).1 ∧
      (image.add (r.scope scope) (r.record d)).2 = r.number (table.add scope d).2 := by
  have hcontinued := h.continued? scope d
  cases hc : table.continued? scope d with
  | some id =>
    rw [hc] at hcontinued
    rw [add_of_continued _ hc, add_of_continued _ hcontinued]
    exact ⟨h, rfl⟩
  | none =>
    rw [hc] at hcontinued
    rw [add_of_new _ hc, add_of_new _ hcontinued, ← h.number_length]
    have hbind := h.bind scope d.name table.declarations.length
    refine ⟨⟨?_, ?_, ?_, hbind.names⟩, rfl⟩
    · simpa using Nat.le_succ_of_le h.start_le
    · simp [h.length_eq, Nat.add_right_comm]
    · intro id
      have hmoved : r.number id < r.number table.declarations.length ↔
          id < table.declarations.length := Room.past_lt
      have hlast := h.number_length
      unfold declaration?
      rcases Nat.lt_trichotomy id table.declarations.length with hlt | rfl | hgt
      · rw [List.getElem?_append_left hlt, List.getElem?_append_left (by omega)]
        exact h.records id
      · rw [List.getElem?_concat_length, hlast, List.getElem?_concat_length]
        rfl
      · have hne : r.number id ≠ r.number table.declarations.length := by
          rw [Room.number, Room.number, ne_eq, Room.past_inj]
          omega
        have hbeyond : image.declarations.length + 1 ≤ r.number id := by omega
        rw [List.getElem?_eq_none (by simpa using hbeyond),
          List.getElem?_eq_none (by simpa using Nat.succ_le_of_lt hgt)]

end SymbolTable

namespace Ledger

open Act SymbolTable

/-- The image is the ledger with the numbers of declarations moved. -/
structure Mirrors (r : Room) (l image : Ledger) : Prop where
  table : SymbolTable.Mirrors r l.table image.table
  numbers : image.numbers = l.numbers.map r.number

variable {r : Room} {l image : Ledger} {a : Act}

theorem Mirrors.number {c : Nat} (h : Mirrors r l image) (hc : c < l.numbers.length) :
    image.number c = r.number (l.number c) := by
  unfold Ledger.number
  rw [h.numbers]
  simp [List.getElem?_eq_getElem hc]

theorem Mirrors.home (h : Mirrors r l image) (hc : ∀ c ∈ a.container?, c < l.numbers.length) :
    (r.act a).home image.number = r.scope (a.home l.number) := by
  cases a with
  | inScope scope d exportedTo => rfl
  | inside container d =>
    change Scope.members (image.number container) = .members (r.number (l.number container))
    rw [h.number (hc container rfl)]

/-- One act. -/
theorem Mirrors.perform (h : Mirrors r l image) (hc : ∀ c ∈ a.container?, c < l.numbers.length) :
    Mirrors r (l.perform a) (image.perform (r.act a)) := by
  obtain ⟨htable, hadded⟩ := h.table.add (a.home l.number) a.declaration
  have hnext : image.next (r.act a) = r.number (l.next a) := by
    unfold Ledger.next
    rw [h.home hc, r.declaration_act]
    exact hadded
  refine ⟨?_, ?_⟩
  · unfold Ledger.perform
    rw [r.container?_act, hnext, h.home hc, r.declaration_act]
    cases hcontainer : a.container? with
    | none => exact htable
    | some c =>
      dsimp only
      rw [h.number (hc c hcontainer)]
      exact htable.bind (.members (l.number c)) a.declaration.name (l.next a)
  · change image.numbers ++ [image.next (r.act a)] = (l.numbers ++ [l.next a]).map r.number
    rw [h.numbers, hnext, List.map_append]
    rfl

theorem Mirrors.performAll {acts : List Act} (h : Mirrors r l image)
    (hacts : Backward l.numbers.length acts) :
    Mirrors r (l.performAll acts) (image.performAll (acts.map r.act)) := by
  induction acts generalizing l image with
  | nil => exact h
  | cons a acts ih =>
    refine ih (h.perform (hacts 0 a rfl)) ?_
    rw [length_numbers_perform]
    exact hacts.tail

end Ledger

namespace SymbolTable

variable {r : Room} {table image : SymbolTable} {s : Source}

/-- One more source. -/
theorem Mirrors.collect (h : Mirrors r table image) (s : Source) :
    Mirrors r (table.collect s) (image.collect (r.moved s)) := by
  have hstart : Ledger.Mirrors r { table, numbers := [] } { table := image, numbers := [] } :=
    ⟨h, rfl⟩
  rw [collect_eq { table, numbers := [] } s,
    collect_eq { table := image, numbers := [] } (r.moved s)]
  change SymbolTable.Mirrors r _
    (Ledger.performAll _ ((r.moved s).actsTree none [] [] s.tree 0)).table
  rw [Source.actsTree_moved]
  exact (hstart.performAll (s.backward_actsTree 0)).table

theorem Mirrors.foldl_collect (h : Mirrors r table image) (sources : List Source) :
    Mirrors r (sources.foldl SymbolTable.collect table)
      ((sources.map r.moved).foldl SymbolTable.collect image) := by
  induction sources generalizing table image with
  | nil => exact h
  | cons s sources ih => exact ih (h.collect s)

/-! ## References -/

theorem Mirrors.lookup (h : Mirrors r table image) (source : Nat) (name : Text) (route : Route) :
    image.lookup (r.sourceNumber source) name route =
      (table.lookup source name route).map r.number := by
  induction route with
  | nil =>
    have hplace : image.find? (.place (r.sourceNumber source) []) name = _ :=
      h.names (.place source []) name
    have hshared : image.find? .shared name = _ := h.names .shared name
    rw [SymbolTable.lookup, SymbolTable.lookup, hplace, hshared, Option.map_or]
  | cons step route ih =>
    have hplace : image.find? (.place (r.sourceNumber source) (step :: route)) name = _ :=
      h.names (.place source (step :: route)) name
    rw [SymbolTable.lookup, SymbolTable.lookup, hplace, ih, Option.map_or]

/-- The declaration of a path of names has moved with the rest. -/
theorem Mirrors.declarationOf? (h : Mirrors r table image) (s : Source) (p : Position) :
    image.declarationOf? (r.moved s) p = (table.declarationOf? s p).map r.number := by
  induction p using Position.induction_on_children with
  | step p ih =>
    unfold SymbolTable.declarationOf?
    split
    · exact h.lookup s.index _ p.route
    · exact h.lookup s.index _ p.route
    · split
      · rename_i object property hobject hproperty
        rw [ih object (Position.mem_children_of_child? hobject)]
        cases table.declarationOf? s object with
        | none => rfl
        | some container =>
          have hkind := h.any_kind DeclarationKind.isContainer container
          simp only [Option.map_some, hkind]
          split
          · exact h.names (.members container) _
          · rfl
      · rfl
    · rfl

theorem Mirrors.resolve? (h : Mirrors r table image) (s : Source) (p : Position) :
    (image.resolve? (r.moved s) p).map (·.text) = (table.resolve? s p).map (·.text) := by
  unfold SymbolTable.resolve?
  rw [h.declarationOf? s p]
  cases table.declarationOf? s p with
  | none => rfl
  | some id =>
    have hrecords := h.records id
    simp only [Option.map_some, Option.bind_some]
    revert hrecords
    cases image.declaration? (r.number id) with
    | none => cases table.declaration? id <;> simp
    | some d =>
      cases table.declaration? id with
      | none => simp
      | some e =>
        intro hrecords
        exact Declaration.text_of_content (Option.some.inj hrecords)

end SymbolTable

end LiteralFolding
