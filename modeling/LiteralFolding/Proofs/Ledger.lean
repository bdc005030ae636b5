-- The ledger of declarations. A program declares its names one act after another, and each act
-- is given a number. The laws here say which act a name of the symbol table stands for and which
-- acts share a number; what the acts of a program are is said elsewhere.
import Mathlib.Data.List.Induction
import Mathlib.Data.Nat.Find
import LiteralFolding.Symbol.Table

namespace LiteralFolding

/-! ## One entry of the table -/

namespace SymbolTable

variable (table : SymbolTable)

@[simp] theorem declarations_bind (scope : Scope) (name : Text) (id : Nat) :
    (table.bind scope name id).declarations = table.declarations := by
  unfold bind
  split <;> rfl

/-- A name that has a meaning keeps it. -/
theorem find?_bind (scope scope' : Scope) (name name' : Text) (id : Nat) :
    (table.bind scope name id).find? scope' name' =
      (table.find? scope' name').or
        (if scope = scope' ∧ name = name' then some id else none) := by
  unfold bind
  split
  · rename_i h
    by_cases heq : scope = scope' ∧ name = name'
    · obtain ⟨rfl, rfl⟩ := heq
      obtain ⟨prior, hprior⟩ := Option.isSome_iff_exists.mp h
      simp [hprior]
    · simp [heq]
  · rename_i h
    by_cases heq : scope = scope' ∧ name = name'
    · obtain ⟨rfl, rfl⟩ := heq
      simp only [find?, Option.isSome_map, Bool.not_eq_true, Option.isSome_eq_false_iff,
        Option.isNone_iff_eq_none] at h
      simp only [find?, List.find?_append, h]
      simp
    · simp [find?, List.find?_append, heq]

theorem bind_eq_self {scope : Scope} {name : Text} (id : Nat)
    (h : (table.find? scope name).isSome) : table.bind scope name id = table := if_pos h

theorem continued?_eq_some_iff {scope : Scope} {d : Declaration} {id : Nat} :
    table.continued? scope d = some id ↔
      table.find? scope d.name = some id ∧ d.kind.isContainer = true ∧
        ∃ prior, table.declaration? id = some prior ∧ prior.kind = d.kind := by
  unfold continued?
  rw [Option.filter_eq_some_iff]
  refine and_congr_right fun _ => ?_
  cases table.declaration? id with
  | none => simp
  | some prior =>
    simp only [Option.any_some, Bool.and_eq_true, decide_eq_true_eq, Option.some.injEq,
      exists_eq_left']
    constructor
    · rintro ⟨hcontainer, heq⟩
      exact ⟨heq ▸ hcontainer, heq⟩
    · rintro ⟨hcontainer, heq⟩
      exact ⟨heq ▸ hcontainer, heq⟩

theorem add_of_continued {scope : Scope} {d : Declaration} {id : Nat}
    (h : table.continued? scope d = some id) : table.add scope d = (table, id) := by
  simp [add, h]

theorem add_of_new {scope : Scope} {d : Declaration} (h : table.continued? scope d = none) :
    table.add scope d =
      ({ table.bind scope d.name table.declarations.length with
          declarations := table.declarations ++ [d] }, table.declarations.length) := by
  simp [add, h]

theorem find?_add (scope scope' : Scope) (d : Declaration) (name : Text) :
    (table.add scope d).1.find? scope' name =
      (table.find? scope' name).or
        (if scope = scope' ∧ d.name = name then some (table.add scope d).2 else none) := by
  cases h : table.continued? scope d with
  | none =>
    rw [add_of_new table h]
    exact find?_bind table scope scope' d.name name _
  | some id =>
    rw [add_of_continued table h]
    by_cases heq : scope = scope' ∧ d.name = name
    · obtain ⟨rfl, rfl⟩ := heq
      simp [((continued?_eq_some_iff table).mp h).1]
    · simp [heq]

end SymbolTable

/-! ## What a table keeps -/

namespace SymbolTable

/-- What the first table says stays so in the second. -/
structure Extends (table later : SymbolTable) : Prop where
  names : ∀ scope name id, table.find? scope name = some id → later.find? scope name = some id
  declarations : ∀ id d, table.declaration? id = some d → later.declaration? id = some d

variable {table later last : SymbolTable} {scope : Scope} {d : Declaration}

theorem Extends.refl (table : SymbolTable) : table.Extends table where
  names _ _ _ h := h
  declarations _ _ h := h

theorem Extends.trans (h : table.Extends later) (h' : later.Extends last) : table.Extends last where
  names scope name id hfind := h'.names scope name id (h.names scope name id hfind)
  declarations id d hd := h'.declarations id d (h.declarations id d hd)

theorem extends_bind (table : SymbolTable) (scope : Scope) (name : Text) (id : Nat) :
    table.Extends (table.bind scope name id) where
  names scope' name' id' h := by simp [find?_bind, h]
  declarations id' d h := by
    rw [declaration?, declarations_bind]
    exact h

/-- A declaration on record that has no name yet. -/
def record (table : SymbolTable) (d : Declaration) : SymbolTable :=
  { table with declarations := table.declarations ++ [d] }

theorem extends_record (table : SymbolTable) (d : Declaration) :
    table.Extends (table.record d) where
  names _ _ _ h := h
  declarations id d' h := by
    rw [declaration?, record, List.getElem?_append_left (List.getElem?_eq_some_iff.mp h).1]
    exact h

theorem add_eq_bind_record (h : table.continued? scope d = none) :
    (table.add scope d).1 = (table.record d).bind scope d.name table.declarations.length := by
  rw [add_of_new table h]
  by_cases hfind : (table.find? scope d.name).isSome
  · rw [bind_eq_self table _ hfind, bind_eq_self (table.record d) _ hfind]
    rfl
  · have hfind' : ¬ ((table.record d).find? scope d.name).isSome := hfind
    rw [SymbolTable.bind, SymbolTable.bind, if_neg hfind, if_neg hfind']
    rfl

theorem extends_add (table : SymbolTable) (scope : Scope) (d : Declaration) :
    table.Extends (table.add scope d).1 := by
  cases h : table.continued? scope d with
  | none =>
    rw [add_eq_bind_record h]
    exact (extends_record table d).trans (extends_bind _ _ _ _)
  | some id =>
    rw [add_of_continued table h]
    exact .refl table

end SymbolTable

/-! ## Acts -/

/-- One act of declaring a name. An act that makes the name a member says of which earlier act,
by its place in the order of all acts. -/
inductive Act where
  /-- In a scope of the text, and also as a member if it is exported from a namespace. -/
  | inScope (scope : Scope) (declaration : Declaration) (exportedTo : Option Nat)
  /-- As a member only: a further part of a dotted name, or an entry of an enumeration. -/
  | inside (container : Nat) (declaration : Declaration)
  deriving DecidableEq

namespace Act

def declaration : Act → Declaration
  | .inScope _ d _ => d
  | .inside _ d => d

/-- The act that this one declares a member of. -/
def container? : Act → Option Nat
  | .inScope _ _ exportedTo => exportedTo
  | .inside container _ => some container

/-- What the act declares in a scope of the text. -/
def lexical? : Act → Option (Scope × Declaration)
  | .inScope scope d _ => some (scope, d)
  | .inside _ _ => none

/-- The scope where the act looks for a declaration to continue. -/
def home (number : Nat → Nat) : Act → Scope
  | .inScope scope _ _ => scope
  | .inside container _ => .members (number container)

/-- The act gives its name a meaning in the scope, unless the name has one there. -/
def Enters (number : Nat → Nat) (a : Act) (scope : Scope) : Prop :=
  a.home number = scope ∨ ∃ c ∈ a.container?, .members (number c) = scope

/-- The act enters the scope under the name. -/
def Declares (number : Nat → Nat) (scope : Scope) (name : Text) (a : Act) : Prop :=
  a.Enters number scope ∧ a.declaration.name = name

instance (number : Nat → Nat) (a : Act) (scope : Scope) : Decidable (a.Enters number scope) :=
  inferInstanceAs (Decidable (_ ∨ _))

/-- What every list of acts keeps to: containers come first, and a scope of the text is never a
list of members. -/
structure Orderly (acts : List Act) : Prop where
  earlier : ∀ (i : Nat) (a : Act), acts[i]? = some a → ∀ c ∈ a.container?, c < i
  lexical : ∀ scope d exportedTo, .inScope scope d exportedTo ∈ acts → ∀ c, scope ≠ .members c

/-- The act at `i` is the first that is so. -/
def First (acts : List Act) (P : Act → Prop) (i : Nat) : Prop :=
  (∃ a, acts[i]? = some a ∧ P a) ∧ ∀ j < i, ∀ a, acts[j]? = some a → ¬ P a

variable {acts : List Act} {P Q : Act → Prop} {i j : Nat}

theorem First.lt_length (h : First acts P i) : i < acts.length := by
  obtain ⟨⟨a, ha, _⟩, _⟩ := h
  exact (List.getElem?_eq_some_iff.mp ha).1

theorem First.unique (hi : First acts P i) (hj : First acts P j) : i = j := by
  obtain ⟨⟨a, ha, hPa⟩, hbefore⟩ := hi
  obtain ⟨⟨b, hb, hPb⟩, hbefore'⟩ := hj
  rcases Nat.lt_trichotomy i j with h | h | h
  · exact absurd hPa (hbefore' i h a ha)
  · exact h
  · exact absurd hPb (hbefore j h b hb)

theorem First.le {a : Act} (h : First acts P i) (ha : acts[j]? = some a) (hP : P a) : i ≤ j := by
  by_contra hlt
  exact h.2 j (by omega) a ha hP

/-- If any act is so, one is the first. -/
theorem exists_first {a : Act} (ha : acts[i]? = some a) (hP : P a) :
    ∃ j ≤ i, First acts P j := by
  classical
  have hex : ∃ j b, acts[j]? = some b ∧ P b := ⟨i, a, ha, hP⟩
  refine ⟨Nat.find hex, Nat.find_min' hex ⟨a, ha, hP⟩, Nat.find_spec hex, ?_⟩
  intro j hj b hb hPb
  exact Nat.find_min hex hj ⟨b, hb, hPb⟩

theorem first_congr (h : ∀ a ∈ acts, (P a ↔ Q a)) : First acts P i ↔ First acts Q i := by
  have hat : ∀ (j : Nat) a, acts[j]? = some a → (P a ↔ Q a) :=
    fun j a ha => h a (List.mem_of_getElem? ha)
  unfold First
  constructor
  · rintro ⟨⟨a, ha, hPa⟩, hbefore⟩
    exact ⟨⟨a, ha, (hat i a ha).mp hPa⟩,
      fun j hj b hb hQb => hbefore j hj b hb ((hat j b hb).mpr hQb)⟩
  · rintro ⟨⟨a, ha, hQa⟩, hbefore⟩
    exact ⟨⟨a, ha, (hat i a ha).mpr hQa⟩,
      fun j hj b hb hPb => hbefore j hj b hb ((hat j b hb).mp hPb)⟩

theorem first_append_iff_of_lt {more : List Act} (h : i < acts.length) :
    First (acts ++ more) P i ↔ First acts P i := by
  unfold First
  rw [List.getElem?_append_left h]
  refine and_congr_right fun _ => forall₂_congr fun j hj => ?_
  rw [List.getElem?_append_left (Nat.lt_trans hj h)]

theorem enters_congr {number number' : Nat → Nat} {a : Act} {scope : Scope}
    (h : ∀ c ∈ a.container?, number c = number' c) :
    a.Enters number scope ↔ a.Enters number' scope := by
  cases a with
  | inScope s d exportedTo =>
    simp only [Enters, home, container?] at h ⊢
    refine or_congr_right (exists_congr fun c => and_congr_right fun hc => ?_)
    rw [h c hc]
  | inside container d =>
    simp only [Enters, home, container?, Option.mem_def, Option.some.injEq, forall_eq'] at h ⊢
    simp [h]

theorem home_congr {number number' : Nat → Nat} {a : Act}
    (h : ∀ c ∈ a.container?, number c = number' c) : a.home number = a.home number' := by
  cases a with
  | inScope s d exportedTo => rfl
  | inside container d => simp [home, h container rfl]

theorem Orderly.of_append {more : List Act} (h : Orderly (acts ++ more)) : Orderly acts where
  earlier i a ha c hc := by
    have hlt := (List.getElem?_eq_some_iff.mp ha).1
    exact h.earlier i a (by rw [List.getElem?_append_left hlt, ha]) c hc
  lexical scope d exportedTo hmem := h.lexical scope d exportedTo (List.mem_append_left _ hmem)

end Act

/-! ## Performing acts -/

/-- The table after some acts, and the number that each of them was given. -/
structure Ledger where
  table : SymbolTable := {}
  numbers : List Nat := []

namespace Ledger

open Act

def number (l : Ledger) (i : Nat) : Nat := l.numbers.getD i 0

/-- The number that an act is given: that of the declaration it continues, or the next one. -/
def next (l : Ledger) (a : Act) : Nat := (l.table.add (a.home l.number) a.declaration).2

/-- The ledger after one more act. -/
def perform (l : Ledger) (a : Act) : Ledger where
  table :=
    let table := (l.table.add (a.home l.number) a.declaration).1
    match a.container? with
    | some c => table.bind (.members (l.number c)) a.declaration.name (l.next a)
    | none => table
  numbers := l.numbers ++ [l.next a]

def performAll (l : Ledger) (acts : List Act) : Ledger := acts.foldl perform l

def ofActs (acts : List Act) : Ledger := performAll {} acts

variable {l : Ledger} {a : Act} {acts : List Act} {i j : Nat} {scope : Scope} {name : Text}
  {id : Nat}

theorem extends_perform (l : Ledger) (a : Act) : l.table.Extends (l.perform a).table := by
  have hadd := SymbolTable.extends_add l.table (a.home l.number) a.declaration
  unfold perform
  cases a.container? with
  | none => exact hadd
  | some c => exact hadd.trans (SymbolTable.extends_bind _ _ _ _)

theorem extends_performAll (l : Ledger) (acts : List Act) :
    l.table.Extends (l.performAll acts).table := by
  induction acts generalizing l with
  | nil => exact .refl _
  | cons a acts ih => exact (extends_perform l a).trans (ih (l.perform a))

theorem extends_append (acts more : List Act) :
    (ofActs acts).table.Extends (ofActs (acts ++ more)).table := by
  rw [ofActs, ofActs, performAll, performAll, List.foldl_append]
  exact extends_performAll _ more

theorem ofActs_snoc (acts : List Act) (a : Act) :
    ofActs (acts ++ [a]) = (ofActs acts).perform a := by
  simp [ofActs, performAll, List.foldl_append]

@[simp] theorem length_numbers (acts : List Act) : (ofActs acts).numbers.length = acts.length := by
  induction acts using List.reverseRecOn with
  | nil => rfl
  | append_singleton acts a ih => simp [ofActs_snoc, perform, ih]

theorem number_perform_of_lt (h : i < l.numbers.length) : (l.perform a).number i = l.number i := by
  simp [number, perform, List.getElem?_append_left h]

theorem number_perform_length : (l.perform a).number l.numbers.length = l.next a := by
  simp [number, perform]

theorem number_append (more : List Act) (h : i < acts.length) :
    (ofActs (acts ++ more)).number i = (ofActs acts).number i := by
  induction more using List.reverseRecOn with
  | nil => simp
  | append_singleton more a ih =>
    rw [← List.append_assoc, ofActs_snoc, number_perform_of_lt, ih]
    simp
    omega

theorem number_length (acts : List Act) (a : Act) (more : List Act) :
    (ofActs (acts ++ a :: more)).number acts.length = (ofActs acts).next a := by
  rw [List.append_cons, number_append more (by simp), ofActs_snoc]
  simpa using number_perform_length (l := ofActs acts) (a := a)

/-- One act: names that have a meaning keep it, and the act gives its name one where it has
none. -/
theorem find?_perform :
    (l.perform a).table.find? scope name = some id ↔
      l.table.find? scope name = some id ∨
        l.table.find? scope name = none ∧ a.Enters l.number scope ∧ a.declaration.name = name ∧
          l.next a = id := by
  have htable : (l.perform a).table.find? scope name =
      (l.table.find? scope name).or
        (if a.Enters l.number scope ∧ a.declaration.name = name then some (l.next a)
          else none) := by
    have hadd := l.table.find?_add (a.home l.number) scope a.declaration name
    unfold perform
    cases hc : a.container? with
    | none => simpa [next, Enters, hc] using hadd
    | some c =>
      simp only [SymbolTable.find?_bind, hadd, next, Enters, hc, Option.mem_def, Option.some.injEq,
        exists_eq_left']
      by_cases hname : a.declaration.name = name
      · by_cases hhome : a.home l.number = scope
        · cases l.table.find? scope name <;> simp [hname, hhome]
        · simp [hname, hhome]
      · simp [hname]
  rw [htable, Option.or_eq_some_iff]
  simp [and_assoc]

/-- An act leaves the scopes alone that it does not enter. -/
theorem find?_perform_of_not_enters (h : ¬ a.Enters l.number scope) (name : Text) :
    (l.perform a).table.find? scope name = l.table.find? scope name := by
  ext id
  rw [find?_perform]
  simp [h]

/-! ## Which act a name stands for -/

theorem enters_append (h : Orderly acts) (more : List Act) (ha : a ∈ acts) :
    a.Enters (ofActs (acts ++ more)).number scope ↔ a.Enters (ofActs acts).number scope := by
  obtain ⟨j, hj, rfl⟩ := List.mem_iff_getElem.mp ha
  apply enters_congr
  intro c hc
  have := h.earlier j acts[j] (List.getElem?_eq_getElem hj) c hc
  exact number_append more (by omega)

theorem first_declares_append (h : Orderly acts) (more : List Act) (hi : i < acts.length) :
    First (acts ++ more) (Declares (ofActs (acts ++ more)).number scope name) i ↔
      First acts (Declares (ofActs acts).number scope name) i := by
  rw [first_append_iff_of_lt hi]
  exact first_congr fun a ha => and_congr_left fun _ => enters_append h more ha

theorem first_snoc_iff {P : Act → Prop} :
    First (acts ++ [a]) P i ↔ First acts P i ∨ i = acts.length ∧ P a ∧ ∀ j, ¬ First acts P j := by
  constructor
  · intro h
    have hle := h.lt_length
    rw [List.length_append, List.length_singleton] at hle
    rcases Nat.lt_or_eq_of_le (Nat.le_of_lt_succ hle) with hlt | rfl
    · exact .inl ((first_append_iff_of_lt hlt).mp h)
    · obtain ⟨b, hb, hP⟩ := h.1
      obtain rfl : a = b := by simpa using hb
      refine .inr ⟨rfl, hP, ?_⟩
      intro j hj
      have hlt := hj.lt_length
      have := h.unique ((first_append_iff_of_lt hlt).mpr hj)
      omega
  · rintro (h | ⟨rfl, hP, hnone⟩)
    · exact (first_append_iff_of_lt h.lt_length).mpr h
    · refine ⟨⟨a, by simp, hP⟩, ?_⟩
      intro j hj b hb hPb
      rw [List.getElem?_append_left hj] at hb
      obtain ⟨k, _, hk⟩ := exists_first hb hPb
      exact hnone k hk

theorem first_declares_snoc_iff (h : Orderly (acts ++ [a])) :
    First (acts ++ [a]) (Declares (ofActs (acts ++ [a])).number scope name) i ↔
      First acts (Declares (ofActs acts).number scope name) i ∨
        i = acts.length ∧ Declares (ofActs acts).number scope name a ∧
          ∀ j, ¬ First acts (Declares (ofActs acts).number scope name) j := by
  have hself : a.Enters (ofActs (acts ++ [a])).number scope ↔
      a.Enters (ofActs acts).number scope := by
    apply enters_congr
    intro c hc
    exact number_append [a] (h.earlier acts.length a (by simp) c hc)
  rw [← first_snoc_iff]
  apply first_congr
  intro b hb
  refine and_congr_left fun _ => ?_
  rcases List.mem_append.mp hb with hb | hb
  · exact enters_append h.of_append [a] hb
  · obtain rfl := List.mem_singleton.mp hb
    exact hself

/-- A name of a scope stands for the first act that enters the scope under it. -/
theorem find?_ofActs (h : Orderly acts) :
    (ofActs acts).table.find? scope name = some id ↔
      ∃ i, First acts (Declares (ofActs acts).number scope name) i ∧
        (ofActs acts).number i = id := by
  induction acts using List.reverseRecOn generalizing id with
  | nil =>
    constructor
    · intro hfind
      cases hfind
    · rintro ⟨i, ⟨⟨a, ha, _⟩, _⟩, _⟩
      simp at ha
  | append_singleton acts a ih =>
    -- The last act counts only if no earlier one gave the name a meaning.
    have hnone : (ofActs acts).table.find? scope name = none ↔
        ∀ i, ¬ First acts (Declares (ofActs acts).number scope name) i := by
      rw [Option.eq_none_iff_forall_ne_some]
      constructor
      · intro hne i hi
        exact hne _ ((ih h.of_append).mpr ⟨i, hi, rfl⟩)
      · intro hne id' hid'
        obtain ⟨i, hi, _⟩ := (ih h.of_append).mp hid'
        exact hne i hi
    have hlast := number_length acts a []
    rw [ofActs_snoc, find?_perform, ← ofActs_snoc, ih h.of_append, hnone]
    constructor
    · rintro (⟨i, hi, rfl⟩ | ⟨hnew, henters, hname, rfl⟩)
      · exact ⟨i, (first_declares_snoc_iff h).mpr (.inl hi), number_append [a] hi.lt_length⟩
      · exact ⟨acts.length,
          (first_declares_snoc_iff h).mpr (.inr ⟨rfl, ⟨henters, hname⟩, hnew⟩), hlast⟩
    · rintro ⟨i, hi, rfl⟩
      rcases (first_declares_snoc_iff h).mp hi with hi | ⟨rfl, ⟨henters, hname⟩, hnew⟩
      · left
        exact ⟨i, hi, (number_append [a] hi.lt_length).symm⟩
      · right
        exact ⟨hnew, henters, hname, hlast.symm⟩

/-! ## Which acts share a number -/

theorem declarations_perform (l : Ledger) (a : Act) :
    (l.perform a).table.declarations =
      (l.table.add (a.home l.number) a.declaration).1.declarations := by
  unfold perform
  cases a.container? <;> simp

/-- No record is lost or changed. -/
theorem declarations_prefix_perform (l : Ledger) (a : Act) :
    l.table.declarations <+: (l.perform a).table.declarations := by
  rw [declarations_perform]
  cases h : l.table.continued? (a.home l.number) a.declaration with
  | none => simp [SymbolTable.add_of_new _ h]
  | some id => simp [SymbolTable.add_of_continued _ h]

/-- Every number that was given has its declaration. -/
theorem number_lt (h : Orderly acts) (hi : i < acts.length) :
    (ofActs acts).number i < (ofActs acts).table.declarations.length := by
  induction acts using List.reverseRecOn generalizing i with
  | nil => simp at hi
  | append_singleton acts a ih =>
    have hgrow := (declarations_prefix_perform (ofActs acts) a).length_le
    rw [← ofActs_snoc] at hgrow
    rcases Nat.lt_or_ge i acts.length with hlt | hge
    · rw [number_append [a] hlt]
      exact Nat.lt_of_lt_of_le (ih h.of_append hlt) hgrow
    · obtain rfl : i = acts.length := by
        simp at hi
        omega
      rw [number_length acts a []]
      unfold next
      cases hc : (ofActs acts).table.continued? (a.home (ofActs acts).number) a.declaration with
      | none =>
        rw [ofActs_snoc, declarations_perform, SymbolTable.add_of_new _ hc]
        simp
      | some id =>
        obtain ⟨hfind, _⟩ := (SymbolTable.continued?_eq_some_iff _).mp hc
        obtain ⟨k, hk, rfl⟩ := (find?_ofActs h.of_append).mp hfind
        rw [SymbolTable.add_of_continued _ hc]
        exact Nat.lt_of_lt_of_le (ih h.of_append hk.lt_length) hgrow

theorem exists_before_of_getElem? (h : acts[i]? = some a) :
    ∃ before after, acts = before ++ a :: after ∧ before.length = i := by
  obtain ⟨hi, rfl⟩ := List.getElem?_eq_some_iff.mp h
  refine ⟨acts.take i, acts.drop (i + 1), ?_, by simp; omega⟩
  rw [List.getElem_cons_drop, List.take_append_drop]

/-- Where an act looks for a declaration to continue depends on the acts before it only. -/
theorem home_append {before after : List Act} (h : Orderly (before ++ a :: after)) :
    a.home (ofActs (before ++ a :: after)).number = a.home (ofActs before).number := by
  apply home_congr
  intro c hc
  exact number_append _ (h.earlier before.length a (by simp) c hc)

/-- An act is the first with its number and stands on record under it, or it continues the act
of its kind that has its name in its scope. -/
theorem number_cases (h : Orderly acts) (ha : acts[i]? = some a) :
    ((∀ j < i, (ofActs acts).number j ≠ (ofActs acts).number i) ∧
        (ofActs acts).table.declaration? ((ofActs acts).number i) = some a.declaration) ∨
      (a.declaration.kind.isContainer = true ∧
        (∃ k < i, First acts
            (Declares (ofActs acts).number (a.home (ofActs acts).number) a.declaration.name) k ∧
          (ofActs acts).number k = (ofActs acts).number i) ∧
        ∃ prior, (ofActs acts).table.declaration? ((ofActs acts).number i) = some prior ∧
          prior.kind = a.declaration.kind) := by
  obtain ⟨before, after, rfl, rfl⟩ := exists_before_of_getElem? ha
  have hbefore := h.of_append
  rw [number_length before a after, home_append h]
  unfold next
  cases hc : (ofActs before).table.continued? (a.home (ofActs before).number) a.declaration with
  | none =>
    left
    rw [SymbolTable.add_of_new _ hc]
    constructor
    · intro j hj
      rw [number_append _ hj]
      exact Nat.ne_of_lt (number_lt hbefore hj)
    · rw [List.append_cons]
      apply (extends_append _ after).declarations
      rw [ofActs_snoc, SymbolTable.declaration?, declarations_perform, SymbolTable.add_of_new _ hc]
      simp
  | some id =>
    right
    obtain ⟨hfind, hcontainer, prior, hprior, hkind⟩ :=
      (SymbolTable.continued?_eq_some_iff _).mp hc
    obtain ⟨k, hk, rfl⟩ := (find?_ofActs hbefore).mp hfind
    rw [SymbolTable.add_of_continued _ hc]
    refine ⟨hcontainer, ⟨k, hk.lt_length, ?_, number_append _ hk.lt_length⟩, prior,
      (extends_append before _).declarations _ _ hprior, hkind⟩
    exact (first_declares_append hbefore _ hk.lt_length).mpr hk

/-- What stands on record under the number of an act is the declaration of an act with the same
number, name and kind, not later than it. -/
theorem exists_record (h : Orderly acts) (ha : acts[i]? = some a) :
    ∃ k ≤ i, ∃ b, acts[k]? = some b ∧ (ofActs acts).number k = (ofActs acts).number i ∧
      (ofActs acts).table.declaration? ((ofActs acts).number i) = some b.declaration ∧
      b.declaration.name = a.declaration.name ∧ b.declaration.kind = a.declaration.kind := by
  induction i using Nat.strongRecOn generalizing a with
  | _ i ih =>
    rcases number_cases h ha with ⟨_, hrecord⟩ | ⟨_, ⟨k, hk, hfirst, hnumber⟩, prior, hprior, hkind⟩
    · exact ⟨i, Nat.le_refl i, a, ha, rfl, hrecord, rfl, rfl⟩
    · obtain ⟨⟨b, hb, _, hname⟩, _⟩ := hfirst
      obtain ⟨k', hk', b', hb', hnumber', hrecord, hname', _⟩ := ih k hk hb
      rw [hnumber] at hnumber' hrecord
      obtain rfl := Option.some.inj (hprior.symm.trans hrecord)
      exact ⟨k', by omega, b', hb', hnumber', hrecord, hname'.trans hname, hkind⟩

/-- An act continues the first that has its name in its scope, if that is of its kind. -/
theorem number_eq_of_first {b : Act} (h : Orderly acts) (ha : acts[i]? = some a)
    (hcontainer : a.declaration.kind.isContainer = true)
    (hfirst : First acts
      (Declares (ofActs acts).number (a.home (ofActs acts).number) a.declaration.name) j)
    (hb : acts[j]? = some b) (hkind : b.declaration.kind = a.declaration.kind) :
    (ofActs acts).number i = (ofActs acts).number j := by
  rcases Nat.lt_trichotomy j i with hlt | rfl | hgt
  · obtain ⟨before, after, rfl, rfl⟩ := exists_before_of_getElem? ha
    have hbefore := h.of_append
    rw [home_append h] at hfirst
    have hfind := (find?_ofActs hbefore).mpr
      ⟨j, (first_declares_append hbefore _ hlt).mp hfirst, rfl⟩
    rw [List.getElem?_append_left hlt] at hb
    obtain ⟨_, _, prior, _, _, hrecord, _, hprior⟩ := exists_record hbefore hb
    have hcontinued := (SymbolTable.continued?_eq_some_iff (ofActs before).table).mpr
      ⟨hfind, hcontainer, prior.declaration, hrecord, hprior.trans hkind⟩
    rw [number_length before a after, number_append _ hlt, next,
      SymbolTable.add_of_continued _ hcontinued]
  · rfl
  · exact absurd ⟨.inl rfl, rfl⟩ (hfirst.2 i hgt a ha)

end Ledger

end LiteralFolding
