-- Declaration merging. Several acts can declare one enumeration or namespace: acts of one name
-- in one scope, and exports of one name from the bodies of one namespace. Acts that share a number
-- always do so, and the converse holds where no body is opened past the entity it belongs to; there
-- a path of names leads to the first member that any of the bodies exports.
import LiteralFolding.Proofs.Scoping

namespace LiteralFolding

namespace Act

/-! ## The same entity -/

/-- Both acts declare an enumeration, or both a namespace, under one name. -/
def Alike (a b : Act) : Prop :=
  a.declaration.name = b.declaration.name ∧ a.declaration.kind = b.declaration.kind ∧
    a.declaration.kind.isContainer = true

/-- Both acts go to one scope of the text. -/
def SameScope (a b : Act) : Prop :=
  ∃ scope d e, a.lexical? = some (scope, d) ∧ b.lexical? = some (scope, e)

/-- The acts declare the same entity, whether its bodies are nested or its names are dotted. -/
inductive Same (acts : List Act) : Nat → Nat → Prop
  | refl (i : Nat) : Same acts i i
  | symm {i j : Nat} (h : Same acts i j) : Same acts j i
  | trans {i j k : Nat} (hij : Same acts i j) (hjk : Same acts j k) : Same acts i k
  | scope {i j : Nat} {a b : Act} (ha : acts[i]? = some a) (hb : acts[j]? = some b)
      (halike : Alike a b) (hscope : SameScope a b) : Same acts i j
  | member {i j c c' : Nat} {a b : Act} (ha : acts[i]? = some a) (hb : acts[j]? = some b)
      (halike : Alike a b) (hc : c ∈ a.container?) (hc' : c' ∈ b.container?)
      (howner : Same acts c c') : Same acts i j

/-- Both acts export to the same entity. -/
def SameOwner (acts : List Act) (a b : Act) : Prop :=
  ∃ c ∈ a.container?, ∃ c' ∈ b.container?, Same acts c c'

/-- The act declares a member of the entity of act `o` under the name. -/
def MemberOf (acts : List Act) (o : Nat) (name : Text) (a : Act) : Prop :=
  (∃ c ∈ a.container?, Same acts c o) ∧ a.declaration.name = name

/-- No earlier declaration of its name keeps the act from its entity. One in its scope, or of the
same owner, is of its kind, and if it stands in a body itself, one of the same owner stands in that
very body. -/
structure Joins (acts : List Act) (i : Nat) : Prop where
  kind : ∀ a b, acts[i]? = some a → ∀ k < i, acts[k]? = some b →
    b.declaration.name = a.declaration.name → SameScope a b ∨ SameOwner acts a b →
    b.declaration.kind = a.declaration.kind
  body : ∀ a b, acts[i]? = some a → ∀ k < i, acts[k]? = some b →
    b.declaration.name = a.declaration.name → SameOwner acts a b → a.lexical?.isSome →
    SameScope a b

/-- The acts that bear on the entity of act `o`: its own, and those of the namespaces around. -/
inductive Involved (acts : List Act) (o : Nat) : Nat → Prop
  | self : Involved acts o o
  | same {i j : Nat} (hi : Involved acts o i) (h : Same acts i j) : Involved acts o j
  | container {i c : Nat} {a : Act} (hi : Involved acts o i) (ha : acts[i]? = some a)
      (hc : c ∈ a.container?) : Involved acts o c

/-- The scope of the act, the act it declares a member of, and its name and kind. -/
def outline (a : Act) : Option Scope × Option Nat × Text × DeclarationKind :=
  (a.lexical?.map (·.1), a.container?, a.declaration.name, a.declaration.kind)

theorem Involved.trans {acts : List Act} {o i j : Nat} (hi : Involved acts o i)
    (hj : Involved acts i j) : Involved acts o j := by
  induction hj with
  | self => exact hi
  | same _ h ih => exact .same ih h
  | container _ ha hc ih => exact .container ih ha hc

end Act

namespace Ledger

open Act

variable {acts : List Act} {a b : Act} {i j c o : Nat} {name : Text} {scope : Scope}

/-! ## Acts that share a number declare the same entity -/

theorem declares_members_iff (h : Orderly acts) (ha : a ∈ acts) (m : Nat) :
    Declares (ofActs acts).number (.members m) name a ↔
      (∃ c ∈ a.container?, (ofActs acts).number c = m) ∧ a.declaration.name = name := by
  unfold Declares Enters
  refine and_congr_left fun _ => ?_
  cases a with
  | inScope scope d exportedTo => simp [home, h.lexical scope d exportedTo ha m]
  | inside container d => simp [home, container?]

theorem eq_inScope_of_lexical? {d : Declaration} (h : a.lexical? = some (scope, d)) :
    ∃ exportedTo, a = .inScope scope d exportedTo := by
  cases a with
  | inside container e => cases h
  | inScope own e exportedTo =>
    cases h
    exact ⟨exportedTo, rfl⟩

theorem sameScope_of_declares {d : Declaration} {exportedTo : Option Nat} {number : Nat → Nat}
    (hscope : ∀ c, scope ≠ .members c) (hb : Declares number scope name b) :
    SameScope (.inScope scope d exportedTo) b := by
  obtain ⟨e, _, rfl, _⟩ := eq_inScope_of_declares hscope hb
  exact ⟨scope, d, e, rfl, rfl⟩

/-- Two acts with one number: the later one continues an earlier one of its entity. -/
theorem same_of_number_eq_last (h : Orderly acts) (hj : acts[j]? = some a)
    (ih : ∀ i < j, ∀ k < j, (ofActs acts).number i = (ofActs acts).number k → Same acts i k)
    (hi : i < j) (heq : (ofActs acts).number i = (ofActs acts).number j) : Same acts i j := by
  rcases number_cases h hj with
    ⟨hnew, _⟩ | ⟨hcontainer, ⟨k, hk, hfirst, hnumber⟩, prior, hprior, hkind⟩
  · exact absurd heq (hnew i hi)
  · obtain ⟨b, hb, hdeclares⟩ := hfirst.1
    have halike : Alike b a := by
      obtain ⟨_, _, record, _, _, hrecord, _, hkind'⟩ := exists_record h hb
      rw [hnumber] at hrecord
      obtain rfl := Option.some.inj (hprior.symm.trans hrecord)
      have hsame : b.declaration.kind = a.declaration.kind := hkind'.symm.trans hkind
      exact ⟨hdeclares.2, hsame, hsame ▸ hcontainer⟩
    refine (ih i hi k hk (heq.trans hnumber.symm)).trans ?_
    cases a with
    | inScope scope d exportedTo =>
      have hscope := h.lexical scope d exportedTo (List.mem_of_getElem? hj)
      obtain ⟨own, d', e, ha', hb'⟩ := sameScope_of_declares (d := d) hscope hdeclares
      exact .scope hb hj halike ⟨own, e, d', hb', ha'⟩
    | inside container d =>
      -- The containers came before both, so what they share is known.
      obtain ⟨⟨c, hc, hnumber'⟩, _⟩ :=
        (declares_members_iff h (List.mem_of_getElem? hb) _).mp hdeclares
      have hck := h.earlier k b hb c hc
      have hcj := h.earlier j _ hj container rfl
      exact .member hb hj halike hc rfl (ih c (by omega) container hcj hnumber')

theorem same_of_number_eq (h : Orderly acts) (hi : i < acts.length) (hj : j < acts.length)
    (heq : (ofActs acts).number i = (ofActs acts).number j) : Same acts i j := by
  have hbelow : ∀ n ≤ acts.length, ∀ i < n, ∀ j < n,
      (ofActs acts).number i = (ofActs acts).number j → Same acts i j := by
    intro n
    induction n with
    | zero =>
      intro _ i hi
      omega
    | succ n ih =>
      intro hn i hi j hj heq
      have hlast := fun {i} => same_of_number_eq_last (i := i) h
        (List.getElem?_eq_getElem (by omega : n < acts.length)) (ih (by omega))
      rcases Nat.lt_or_eq_of_le (Nat.le_of_lt_succ hi) with hi | rfl
      · rcases Nat.lt_or_eq_of_le (Nat.le_of_lt_succ hj) with hj | rfl
        · exact ih (by omega) i hi j hj heq
        · exact hlast hi heq
      · rcases Nat.lt_or_eq_of_le (Nat.le_of_lt_succ hj) with hj | rfl
        · exact (hlast hj heq.symm).symm
        · exact .refl _
  exact hbelow acts.length (Nat.le_refl _) i hi j hj heq

/-! ## Acts that join their entity share its number -/

theorem exists_first_home (number : Nat → Nat) (ha : acts[i]? = some a) :
    ∃ f, First acts (Declares number (a.home number) a.declaration.name) f := by
  have hself : Declares number (a.home number) a.declaration.name a := ⟨.inl rfl, rfl⟩
  obtain ⟨f, _, hfirst⟩ := exists_first ha hself
  exact ⟨f, hfirst⟩

/-- An act that joins its entity has the number of the first of its name in its scope. -/
theorem number_of_joins_scope {d : Declaration} {exportedTo : Option Nat} (h : Orderly acts)
    (hjoins : Joins acts i) (ha : acts[i]? = some (.inScope scope d exportedTo))
    (hcontainer : d.kind.isContainer = true)
    (hfirst : First acts (Declares (ofActs acts).number scope d.name) j) :
    (ofActs acts).number i = (ofActs acts).number j ∧
      ∃ b, acts[j]? = some b ∧ b.declaration.kind = d.kind := by
  obtain ⟨b, hb, hdeclares⟩ := hfirst.1
  have hscope := h.lexical scope d exportedTo (List.mem_of_getElem? ha)
  have hkind : b.declaration.kind = d.kind := by
    rcases Nat.lt_or_eq_of_le (hfirst.le ha ⟨.inl rfl, rfl⟩) with hlt | rfl
    · exact hjoins.kind _ b ha j hlt hb hdeclares.2 (.inl (sameScope_of_declares hscope hdeclares))
    · obtain rfl := Option.some.inj (ha.symm.trans hb)
      rfl
  exact ⟨number_eq_of_first h ha hcontainer hfirst hb hkind, b, hb, hkind⟩

/-- It has the number of the first member of its name too. -/
theorem number_of_joins_member (h : Orderly acts) (hjoins : Joins acts i)
    (ha : acts[i]? = some a) (hcontainer : a.declaration.kind.isContainer = true)
    (hc : c ∈ a.container?)
    (hfirst : First acts
      (Declares (ofActs acts).number (.members ((ofActs acts).number c)) a.declaration.name) j) :
    (ofActs acts).number i = (ofActs acts).number j := by
  have hmember := (declares_members_iff h (List.mem_of_getElem? ha) _).mpr ⟨⟨c, hc, rfl⟩, rfl⟩
  rcases Nat.lt_or_eq_of_le (hfirst.le ha hmember) with hlt | rfl
  · obtain ⟨b, hb, hdeclares⟩ := hfirst.1
    have howner : SameOwner acts a b := by
      obtain ⟨⟨c', hc', hnumber⟩, _⟩ :=
        (declares_members_iff h (List.mem_of_getElem? hb) _).mp hdeclares
      have hci := h.earlier i a ha c hc
      have hcj := h.earlier j b hb c' hc'
      have hi := (List.getElem?_eq_some_iff.mp ha).1
      exact ⟨c, hc, c', hc', same_of_number_eq h (by omega) (by omega) hnumber.symm⟩
    have hkind := hjoins.kind a b ha j hlt hb hdeclares.2 (.inr howner)
    cases a with
    | inside container d =>
      obtain rfl := Option.some.inj hc
      exact number_eq_of_first h ha hcontainer hfirst hb hkind
    | inScope scope d exportedTo =>
      -- Both stand in one body, so both continue the first of the name there.
      obtain ⟨own, d', e, hentry, hentry'⟩ := hjoins.body _ b ha j hlt hb hdeclares.2 howner rfl
      cases hentry
      obtain ⟨g, hg⟩ := exists_first_home (ofActs acts).number ha
      obtain ⟨hnumber, first, hfirstAct, hfirstKind⟩ :=
        number_of_joins_scope h hjoins ha hcontainer hg
      obtain ⟨exportedTo', rfl⟩ := eq_inScope_of_lexical? hentry'
      have hname : e.name = d.name := hdeclares.2
      rw [hnumber]
      refine (number_eq_of_first h hb (hkind.symm ▸ hcontainer) ?_ hfirstAct
        (hfirstKind.trans hkind.symm)).symm
      simpa only [home, declaration, hname] using hg
  · rfl

/-- Acts of one entity share a number where all that bears on it joins. -/
theorem number_eq_of_same (h : Orderly acts) (hsame : Same acts i j) :
    (∀ k, Involved acts i k → Joins acts k) →
      (ofActs acts).number i = (ofActs acts).number j := by
  -- By how the acts come to be the same: each of the last two ways leads to one first act.
  induction hsame with
  | refl i =>
    intro _
    rfl
  | symm hsame ih =>
    intro hjoins
    exact (ih fun k hk => hjoins k ((Involved.same .self hsame.symm).trans hk)).symm
  | trans hij hjk ihij ihjk =>
    intro hjoins
    rw [ihij hjoins]
    exact ihjk fun k hk => hjoins k ((Involved.same .self hij).trans hk)
  | @scope i j a b ha hb halike hscope =>
    intro hjoins
    have hinvolved : Involved acts i j := .same .self (.scope ha hb halike hscope)
    obtain ⟨hname, hkind, hcontainer⟩ := halike
    obtain ⟨scope, d, e, hentry, hentry'⟩ := hscope
    obtain ⟨exportedTo, rfl⟩ := eq_inScope_of_lexical? hentry
    obtain ⟨exportedTo', rfl⟩ := eq_inScope_of_lexical? hentry'
    obtain ⟨f, hfirst⟩ := exists_first_home (ofActs acts).number ha
    rw [(number_of_joins_scope h (hjoins i .self) ha hcontainer hfirst).1]
    have hfirst' : First acts (Declares (ofActs acts).number scope e.name) f :=
      (hname : d.name = e.name) ▸ hfirst
    exact (number_of_joins_scope h (hjoins j hinvolved) hb (hkind ▸ hcontainer) hfirst').1.symm
  | @member i j c c' a b ha hb halike hc hc' howner ih =>
    intro hjoins
    have hinvolved : Involved acts i j := .same .self (.member ha hb halike hc hc' howner)
    obtain ⟨hname, hkind, hcontainer⟩ := halike
    have hnumber := ih fun k hk => hjoins k ((Involved.container .self ha hc).trans hk)
    have hmember := (declares_members_iff h (List.mem_of_getElem? ha) _).mpr ⟨⟨c, hc, rfl⟩, rfl⟩
    obtain ⟨f, _, hfirst⟩ := exists_first ha hmember
    rw [number_of_joins_member h (hjoins i .self) ha hcontainer hc hfirst]
    rw [hnumber, hname] at hfirst
    exact (number_of_joins_member h (hjoins j hinvolved) hb (hkind ▸ hcontainer) hc' hfirst).symm

/-! ## Members and names -/

/-- A member of an entity is the first that any of its bodies exports under the name. -/
theorem member_eq_some_iff {id : Nat} (h : Orderly acts) (ho : o < acts.length)
    (hjoins : ∀ k, Involved acts o k → Joins acts k) :
    (ofActs acts).table.member ((ofActs acts).number o) name = some id ↔
      ∃ f, First acts (MemberOf acts o name) f ∧ (ofActs acts).number f = id := by
  have hmember : ∀ a ∈ acts,
      Declares (ofActs acts).number (.members ((ofActs acts).number o)) name a ↔
        MemberOf acts o name a := by
    intro a ha
    rw [declares_members_iff h ha]
    refine and_congr_left fun _ => exists_congr fun c => and_congr_right fun hc => ?_
    constructor
    · intro heq
      obtain ⟨i, hi⟩ := List.getElem?_of_mem ha
      have hci := h.earlier i a hi c hc
      have hi := (List.getElem?_eq_some_iff.mp hi).1
      exact same_of_number_eq h (by omega) ho heq
    · intro hsame
      exact (number_eq_of_same h hsame.symm hjoins).symm
  unfold SymbolTable.member
  rw [find?_ofActs h]
  exact exists_congr fun f => and_congr_left fun _ => first_congr hmember

theorem findIdx?_eq_some_iff_first {test : Act → Bool} :
    acts.findIdx? test = some i ↔ First acts (test · = true) i := by
  rw [List.findIdx?_eq_some_iff_getElem]
  constructor
  · rintro ⟨hi, htest, hbefore⟩
    refine ⟨⟨acts[i], List.getElem?_eq_getElem hi, htest⟩, ?_⟩
    intro j hj a ha
    obtain ⟨_, rfl⟩ := List.getElem?_eq_some_iff.mp ha
    exact hbefore j hj
  · rintro ⟨⟨a, ha, htest⟩, hbefore⟩
    obtain ⟨hi, rfl⟩ := List.getElem?_eq_some_iff.mp ha
    exact ⟨hi, htest, fun j hj => hbefore j hj _ (List.getElem?_eq_getElem _)⟩

theorem find?_eq_findIdx? (h : Orderly acts) (hscope : ∀ c, scope ≠ .members c) :
    (ofActs acts).table.find? scope name =
      (acts.findIdx? (goesTo scope name)).map (ofActs acts).number := by
  ext id
  rw [find?_ofActs h, Option.map_eq_some_iff]
  refine exists_congr fun i => and_congr_left fun _ => ?_
  rw [findIdx?_eq_some_iff_first]
  exact first_congr fun a _ => declares_iff_goesTo hscope

end Ledger

/-- The first act of a name in the innermost scope that has the name. -/
def Act.outwards? (acts : List Act) (source : Nat) (name : Text) (route : Route) : Option Nat :=
  (scopesFrom source route).findSome? fun scope => acts.findIdx? (goesTo scope name)

/-- The act that a path of names leads to. Its first name is looked for outwards, and each further
one among the members that all the bodies of the entity so far export. -/
inductive Act.Denotes (acts : List Act) (s : Source) : Position → Nat → Prop
  | name {p : Position} {i : Nat} (hkind : p.kind = .identifier)
      (hfirst : outwards? acts s.index (s.textOf p.node) p.route = some i) : Denotes acts s p i
  | member {p object property : Position} {o i : Nat} {a : Act} (hkind : p.kind = .memberExpression)
      (hobject : p.child? .object = some object) (hproperty : p.child? .property = some property)
      (hdenotes : Denotes acts s object o) (ha : acts[o]? = some a)
      (hcontainer : a.declaration.kind.isContainer = true)
      (hfirst : First acts (MemberOf acts o (s.textOf property.node)) i) : Denotes acts s p i

namespace SymbolTable

open Ledger Act

variable {acts : List Act} {a : Act} {s : Source} {p object property : Position} {o i : Nat}

theorem lookup_eq_outwards? (h : Orderly acts) (source : Nat) (name : Text) (route : Route) :
    (ofActs acts).table.lookup source name route =
      (outwards? acts source name route).map (ofActs acts).number := by
  rw [lookup_eq_findSome?, outwards?, List.map_findSome?]
  apply findSome?_congr
  intro scope hscope
  exact find?_eq_findIdx? h (ne_members_of_mem_scopesFrom hscope)

/-- One more name of a path. -/
theorem declarationOf?_member (h : Orderly acts) (hkind : p.kind = .memberExpression)
    (hobject : p.child? .object = some object) (hproperty : p.child? .property = some property)
    (hcontainer : (ofActs acts).table.declarationOf? s object = some ((ofActs acts).number o))
    (ha : acts[o]? = some a) (hkind' : a.declaration.kind.isContainer = true)
    (hjoins : ∀ k, Involved acts o k → Joins acts k)
    (hfirst : First acts (MemberOf acts o (s.textOf property.node)) i) :
    (ofActs acts).table.declarationOf? s p = some ((ofActs acts).number i) := by
  obtain ⟨_, _, b, _, _, hrecord, _, hbkind⟩ := exists_record h ha
  have ho := (List.getElem?_eq_some_iff.mp ha).1
  have hmember := (member_eq_some_iff h ho hjoins).mpr ⟨i, hfirst, rfl⟩
  unfold declarationOf?
  simp only [hkind]
  split
  · rename_i object' property' hobject' hproperty'
    obtain rfl := Option.some.inj (hobject.symm.trans hobject')
    obtain rfl := Option.some.inj (hproperty.symm.trans hproperty')
    simp [hcontainer, hrecord, hbkind, hkind', hmember]
  · rename_i hnone
    exact absurd hproperty (hnone object property hobject)

/-- A path of names leads to the act that it denotes. -/
theorem declarationOf?_of_denotes (h : Orderly acts) (hdenotes : Denotes acts s p i) :
    (∀ k, Involved acts i k → Joins acts k) →
      (ofActs acts).table.declarationOf? s p = some ((ofActs acts).number i) := by
  induction hdenotes with
  | @name p i hkind hfirst =>
    intro _
    unfold declarationOf?
    simp only [hkind]
    rw [lookup_eq_outwards? h, hfirst, Option.map_some]
  | @member p object property o i a hkind hobject hproperty _ ha hcontainer hfirst ih =>
    intro hjoins
    obtain ⟨b, hb, ⟨c, hc, hsame⟩, _⟩ := hfirst.1
    -- What bears on the object bears on its member.
    have hobjectJoins : ∀ k, Involved acts o k → Joins acts k := fun k hk =>
      hjoins k ((Involved.same (.container .self hb hc) hsame).trans hk)
    exact declarationOf?_member h hkind hobject hproperty (ih hobjectJoins) ha hcontainer
      hobjectJoins hfirst

end SymbolTable

/-! ## Merging -/

namespace Program

open Act

def acts (program : Program) : List Act := Source.acts program.sources

theorem orderly_acts (sources : List Source) : Orderly (ofSources sources).acts :=
  Source.orderly_acts _

theorem symbols_ofSources (sources : List Source) :
    (ofSources sources).symbols = (Ledger.ofActs (ofSources sources).acts).table :=
  SymbolTable.ofSources_eq _

/-- The reference stands for the entity of act `f`: what is on record for it is act `f`, or of an
enumeration or namespace an earlier act of the same entity. -/
def StandsFor (program : Program) (s : Source) (p : Position) (f : Nat) : Prop :=
  ∃ k ≤ f, Same program.acts k f ∧ ∃ record, program.acts[k]? = some record ∧
    (program.symbols.declarationOf? s p).bind program.symbols.declaration? =
      some record.declaration ∧
    (record.declaration.kind.isContainer = false → k = f)

theorem standsFor_of_number {sources : List Source} {s : Source} {p : Position} {f : Nat}
    (hf : f < (ofSources sources).acts.length)
    (h : (ofSources sources).symbols.declarationOf? s p =
      some ((Ledger.ofActs (ofSources sources).acts).number f)) :
    (ofSources sources).StandsFor s p f := by
  have horderly := orderly_acts sources
  unfold StandsFor
  rw [symbols_ofSources] at h ⊢
  have hfirst := List.getElem?_eq_getElem hf
  obtain ⟨k, hkf, record, hk, hnumber, hrecord, _, hkind⟩ := Ledger.exists_record horderly hfirst
  refine ⟨k, hkf, Ledger.same_of_number_eq horderly (by omega) hf hnumber, record, hk, ?_, ?_⟩
  · rw [h]
    exact hrecord
  · intro hplain
    rcases Ledger.number_cases horderly hfirst with ⟨hnew, _⟩ | ⟨hcontainer, _⟩
    · by_contra hne
      exact hnew k (by omega) hnumber
    · rw [← hkind, hplain] at hcontainer
      cases hcontainer

/-- A member that any body of an entity exports is found by its path: the path stands for the first
of the name among the members of all the bodies. -/
theorem merged_member_is_found {sources : List Source} {s : Source} {p object property : Position}
    {o j : Nat} {a b : Act} (hkind : p.kind = .memberExpression)
    (hobject : p.child? .object = some object) (hproperty : p.child? .property = some property)
    (hdenotes : Denotes (ofSources sources).acts s object o)
    (ha : (ofSources sources).acts[o]? = some a)
    (hcontainer : a.declaration.kind.isContainer = true)
    (hjoins : ∀ k, Involved (ofSources sources).acts o k → Joins (ofSources sources).acts k)
    (hb : (ofSources sources).acts[j]? = some b)
    (hmember : MemberOf (ofSources sources).acts o (s.textOf property.node) b) :
    ∃ f ≤ j, First (ofSources sources).acts
        (MemberOf (ofSources sources).acts o (s.textOf property.node)) f ∧
      (ofSources sources).StandsFor s p f := by
  have horderly := orderly_acts sources
  obtain ⟨f, hfj, hfirst⟩ := exists_first hb hmember
  refine ⟨f, hfj, hfirst, standsFor_of_number hfirst.lt_length ?_⟩
  rw [symbols_ofSources]
  exact SymbolTable.declarationOf?_member horderly hkind hobject hproperty
    (SymbolTable.declarationOf?_of_denotes horderly hdenotes hjoins) ha hcontainer hjoins hfirst

/-- Acts join if a name that is declared again is of one kind, and not exported from a body. -/
theorem joins_of_pairwise {acts : List Act}
    (h : acts.Pairwise fun b a => b.declaration.name = a.declaration.name →
      b.declaration.kind = a.declaration.kind ∧ (a.lexical?.isSome → a.container? = none))
    (i : Nat) : Joins acts i := by
  have hpair : ∀ (a b : Act), acts[i]? = some a → ∀ k < i, acts[k]? = some b →
      b.declaration.name = a.declaration.name →
      b.declaration.kind = a.declaration.kind ∧ (a.lexical?.isSome → a.container? = none) := by
    intro a b ha k hk hb hname
    obtain ⟨hi, rfl⟩ := List.getElem?_eq_some_iff.mp ha
    obtain ⟨_, rfl⟩ := List.getElem?_eq_some_iff.mp hb
    exact List.pairwise_iff_getElem.mp h k i _ hi hk hname
  refine ⟨fun a b ha k hk hb hname _ => (hpair a b ha k hk hb hname).1, ?_⟩
  rintro a b ha k hk hb hname ⟨c, hc, _⟩ hentry
  rw [(hpair a b ha k hk hb hname).2 hentry] at hc
  cases hc

/-- The tree of `namespace A{export namespace B{export class Z{}}}` from byte `n` on. -/
def nestedBodies (n : Nat) : Tree :=
  .piece .internalModule none n (n + 49) [.piece .identifier (some .name) (n + 10) (n + 11) [],
    .piece .statementBlock (some .body) (n + 11) (n + 49) [
      .piece .exportStatement none (n + 12) (n + 48) [
        .piece .internalModule none (n + 19) (n + 48) [
          .piece .identifier (some .name) (n + 29) (n + 30) [],
          .piece .statementBlock (some .body) (n + 30) (n + 48) [
            .piece .exportStatement none (n + 31) (n + 47) [
              .piece .classDeclaration none (n + 38) (n + 47) [
                .piece (.other "type_identifier") (some .name) (n + 44) (n + 45) [],
                .piece .classBody (some .body) (n + 45) (n + 47) []]]]]]]]

/-- The tree of `namespace A.B{export class X{}}` from byte `n` on. -/
def dottedBody (n : Nat) : Tree :=
  .piece .internalModule none n (n + 31) [
    .piece .nestedIdentifier (some .name) (n + 10) (n + 13) [
      .piece .identifier (some .object) (n + 10) (n + 11) [],
      .piece .propertyIdentifier (some .property) (n + 12) (n + 13) []],
    .piece .statementBlock (some .body) (n + 13) (n + 31) [
      .piece .exportStatement none (n + 14) (n + 30) [
        .piece .classDeclaration none (n + 21) (n + 30) [
          .piece (.other "type_identifier") (some .name) (n + 27) (n + 28) [],
          .piece .classBody (some .body) (n + 28) (n + 30) []]]]]

/-- A path `A.B.M` behind both. -/
def memberPath : Tree :=
  .piece (.other "expression_statement") none 80 85 [.piece .memberExpression none 80 85 [
    .piece .memberExpression (some .object) 80 83 [.piece .identifier (some .object) 80 81 [],
      .piece .propertyIdentifier (some .property) 82 83 []],
    .piece .propertyIdentifier (some .property) 84 85 []]]

def nestedText : Text :=
  ['n', 'a', 'm', 'e', 's', 'p', 'a', 'c', 'e', ' ', 'A', '{', 'e', 'x', 'p', 'o', 'r', 't', ' ',
    'n', 'a', 'm', 'e', 's', 'p', 'a', 'c', 'e', ' ', 'B', '{', 'e', 'x', 'p', 'o', 'r', 't', ' ',
    'c', 'l', 'a', 's', 's', ' ', 'Z', '{', '}', '}', '}']

def dottedText : Text :=
  ['n', 'a', 'm', 'e', 's', 'p', 'a', 'c', 'e', ' ', 'A', '.', 'B', '{', 'e', 'x', 'p', 'o', 'r',
    't', ' ', 'c', 'l', 'a', 's', 's', ' ', 'X', '{', '}', '}']

/-- The nested bodies, then the dotted one and the path `A.B.X`. -/
def nestedFirst : Source where
  index := 0
  path := []
  dialect := .typeScript
  text := nestedText ++ dottedText ++ ['A', '.', 'B', '.', 'X']
  tree := .piece (.other "program") none 0 85 [nestedBodies 0, dottedBody 49, memberPath]

/-- The dotted body, then the nested ones and the path `A.B.Z`. -/
def dottedFirst : Source where
  index := 0
  path := []
  dialect := .typeScript
  text := dottedText ++ nestedText ++ ['A', '.', 'B', '.', 'Z']
  tree := .piece (.other "program") none 0 85 [dottedBody 0, nestedBodies 31, memberPath]

theorem pairwise_nestedFirst :
    (ofSources [nestedFirst]).acts.Pairwise fun b a =>
      b.declaration.name = a.declaration.name →
        b.declaration.kind = a.declaration.kind ∧ (a.lexical?.isSome → a.container? = none) := by
  decide +kernel

/-- The acts of both programs: `A`, `B` in it and its class, then the same again. -/
theorem members_of_outline {acts : List Act} {s₁ s₂ s₄ s₅ : Option Scope} {first last : Text}
    (h : acts.map outline =
      [(some .shared, none, ['A'], .namespaceBlock), (s₁, some 0, ['B'], .namespaceBlock),
        (s₂, some 1, first, .classType), (some .shared, none, ['A'], .namespaceBlock),
        (s₄, some 3, ['B'], .namespaceBlock), (s₅, some 4, last, .classType)]) :
    ∃ a₀ a₁ a₅, acts[0]? = some a₀ ∧ acts[1]? = some a₁ ∧ acts[5]? = some a₅ ∧
      a₀.declaration.kind.isContainer = true ∧ a₁.declaration.kind.isContainer = true ∧
      First acts (MemberOf acts 0 ['B']) 1 ∧ MemberOf acts 1 last a₅ := by
  have hget : ∀ (i : Nat) x, (acts.map outline)[i]? = some x →
      ∃ a, acts[i]? = some a ∧ a.outline = x := by
    intro i x hx
    simpa using hx
  rw [h] at hget
  obtain ⟨a₀, h₀, ho₀⟩ := hget 0 _ rfl
  obtain ⟨a₁, h₁, ho₁⟩ := hget 1 _ rfl
  obtain ⟨a₃, h₃, ho₃⟩ := hget 3 _ rfl
  obtain ⟨a₄, h₄, ho₄⟩ := hget 4 _ rfl
  obtain ⟨a₅, h₅, ho₅⟩ := hget 5 _ rfl
  simp only [outline, Prod.mk.injEq] at ho₀ ho₁ ho₃ ho₄ ho₅
  obtain ⟨hscope₀, hnone₀, hname₀, hkind₀⟩ := ho₀
  obtain ⟨_, howner₁, hname₁, hkind₁⟩ := ho₁
  obtain ⟨hscope₃, _, hname₃, hkind₃⟩ := ho₃
  obtain ⟨_, howner₄, hname₄, hkind₄⟩ := ho₄
  obtain ⟨_, howner₅, hname₅, _⟩ := ho₅
  have hcontainer₀ : a₀.declaration.kind.isContainer = true := by rw [hkind₀]; rfl
  have hcontainer₁ : a₁.declaration.kind.isContainer = true := by rw [hkind₁]; rfl
  have houter : Same acts 0 3 := by
    refine .scope h₀ h₃ ⟨hname₀.trans hname₃.symm, hkind₀.trans hkind₃.symm, hcontainer₀⟩ ?_
    obtain ⟨x, hx, hxscope⟩ := Option.map_eq_some_iff.mp hscope₀
    obtain ⟨y, hy, hyscope⟩ := Option.map_eq_some_iff.mp hscope₃
    exact ⟨.shared, x.2, y.2, by rw [hx, ← hxscope], by rw [hy, ← hyscope]⟩
  have hinner : Same acts 1 4 :=
    .member h₁ h₄ ⟨hname₁.trans hname₄.symm, hkind₁.trans hkind₄.symm, hcontainer₁⟩ howner₁ howner₄
      houter
  refine ⟨a₀, a₁, a₅, h₀, h₁, h₅, hcontainer₀, hcontainer₁, ?_, ⟨4, howner₅, hinner.symm⟩, hname₅⟩
  refine ⟨⟨a₁, h₁, ⟨0, howner₁, .refl 0⟩, hname₁⟩, ?_⟩
  intro j hj a ha
  obtain rfl : j = 0 := by omega
  obtain rfl := Option.some.inj (h₀.symm.trans ha)
  rintro ⟨⟨c, hc, _⟩, _⟩
  rw [hnone₀] at hc
  cases hc

/-- In both programs the path goes from `A` to `B`, and the last class is a member of that. -/
theorem exists_path {s : Source} {last : Text} (hs : s = nestedFirst ∧ last = ['X'] ∨
      s = dottedFirst ∧ last = ['Z']) :
    ∃ p ∈ Position.all s.tree, ∃ (object property : Position) (a b : Act),
      p.kind = .memberExpression ∧ p.child? .object = some object ∧
      p.child? .property = some property ∧ Denotes (ofSources [s]).acts s object 1 ∧
      (ofSources [s]).acts[1]? = some a ∧ a.declaration.kind.isContainer = true ∧
      (ofSources [s]).acts[5]? = some b ∧
      MemberOf (ofSources [s]).acts 1 (s.textOf property.node) b ∧
      (Position.all s.tree)[22]? = some p := by
  obtain ⟨p, object, property, root, name, hp, hkind, hobject, hproperty, hinner, hroot, hname,
      hidentifier, hlast, hmiddle, hoccurs⟩ : ∃ p object property root name : Position,
      (Position.all s.tree)[22]? = some p ∧ p.kind = .memberExpression ∧
      p.child? .object = some object ∧ p.child? .property = some property ∧
      object.kind = .memberExpression ∧ object.child? .object = some root ∧
      object.child? .property = some name ∧ root.kind = .identifier ∧
      s.textOf property.node = last ∧ s.textOf name.node = ['B'] ∧
      outwards? (ofSources [s]).acts s.index (s.textOf root.node) root.route = some 0 := by
    rcases hs with ⟨rfl, rfl⟩ | ⟨rfl, rfl⟩
    all_goals
      refine ⟨_, _, _, _, _, rfl, rfl, rfl, rfl, rfl, rfl, rfl, rfl, ?_⟩
      decide +kernel
  obtain ⟨s₁, s₂, s₄, s₅, first, houtline⟩ : ∃ (s₁ s₂ s₄ s₅ : Option Scope) (first : Text),
      (ofSources [s]).acts.map outline =
        [(some .shared, none, ['A'], .namespaceBlock), (s₁, some 0, ['B'], .namespaceBlock),
          (s₂, some 1, first, .classType), (some .shared, none, ['A'], .namespaceBlock),
          (s₄, some 3, ['B'], .namespaceBlock), (s₅, some 4, last, .classType)] := by
    rcases hs with ⟨rfl, rfl⟩ | ⟨rfl, rfl⟩
    · exact ⟨some (.place 0 [1, 0]), some (.place 0 [1, 0, 0, 1, 0]), none,
        some (.place 0 [1, 1]), ['Z'], by decide +kernel⟩
    · exact ⟨none, some (.place 0 [1, 0]), some (.place 0 [1, 1]),
        some (.place 0 [1, 0, 0, 1, 1]), ['X'], by decide +kernel⟩
  obtain ⟨a₀, a₁, a₅, h₀, h₁, h₅, hcontainer₀, hcontainer₁, hfirst, hmember⟩ :=
    members_of_outline houtline
  rw [← hmiddle] at hfirst
  rw [← hlast] at hmember
  exact ⟨p, List.mem_of_getElem? hp, object, property, a₁, a₅, hkind, hobject, hproperty,
    .member hinner hroot hname (.name hidentifier hoccurs) h₀ hcontainer₀ hfirst, h₁, hcontainer₁,
    h₅, hmember, hp⟩

/-- Nested bodies come before the dotted one, and the member of the dotted one is found. -/
theorem merged_member_nestedFirst :
    ∃ p ∈ Position.all nestedFirst.tree, ∃ (object property : Position) (a b : Act),
      p.kind = .memberExpression ∧ p.child? .object = some object ∧
      p.child? .property = some property ∧
      Denotes (ofSources [nestedFirst]).acts nestedFirst object 1 ∧
      (ofSources [nestedFirst]).acts[1]? = some a ∧ a.declaration.kind.isContainer = true ∧
      (∀ k, Involved (ofSources [nestedFirst]).acts 1 k → Joins (ofSources [nestedFirst]).acts k) ∧
      (ofSources [nestedFirst]).acts[5]? = some b ∧
      MemberOf (ofSources [nestedFirst]).acts 1 (nestedFirst.textOf property.node) b ∧
      ∃ f ≤ 5, First (ofSources [nestedFirst]).acts
          (MemberOf (ofSources [nestedFirst]).acts 1 (nestedFirst.textOf property.node)) f ∧
        (ofSources [nestedFirst]).StandsFor nestedFirst p f := by
  obtain ⟨p, hp, object, property, a, b, hkind, hobject, hproperty, hdenotes, ha, hcontainer, hb,
    hmember, _⟩ := exists_path (.inl ⟨rfl, rfl⟩)
  have hjoins : ∀ k, Involved (ofSources [nestedFirst]).acts 1 k →
      Joins (ofSources [nestedFirst]).acts k := fun k _ => joins_of_pairwise pairwise_nestedFirst k
  exact ⟨p, hp, object, property, a, b, hkind, hobject, hproperty, hdenotes, ha, hcontainer, hjoins,
    hb, hmember, merged_member_is_found hkind hobject hproperty hdenotes ha hcontainer hjoins hb
      hmember⟩

/-- The other way round the nested body is opened past the entity: its class is a member of what
the path denotes so far, and is not found. -/
theorem nested_member_is_lost_after_dotted :
    ∃ p ∈ Position.all dottedFirst.tree, ∃ (object property : Position) (a b : Act),
      p.kind = .memberExpression ∧ p.child? .object = some object ∧
      p.child? .property = some property ∧
      Denotes (ofSources [dottedFirst]).acts dottedFirst object 1 ∧
      (ofSources [dottedFirst]).acts[1]? = some a ∧ a.declaration.kind.isContainer = true ∧
      (ofSources [dottedFirst]).acts[5]? = some b ∧
      MemberOf (ofSources [dottedFirst]).acts 1 (dottedFirst.textOf property.node) b ∧
      (ofSources [dottedFirst]).symbols.declarationOf? dottedFirst p = none := by
  obtain ⟨p, hp, object, property, a, b, hkind, hobject, hproperty, hdenotes, ha, hcontainer, hb,
    hmember, hplace⟩ := exists_path (.inr ⟨rfl, rfl⟩)
  refine ⟨p, hp, object, property, a, b, hkind, hobject, hproperty, hdenotes, ha, hcontainer, hb,
    hmember, ?_⟩
  have hlost : ((Position.all dottedFirst.tree)[22]?.bind
      ((ofSources [dottedFirst]).symbols.declarationOf? dottedFirst)) = none := by
    decide +kernel
  rwa [hplace] at hlost

end Program

end LiteralFolding
