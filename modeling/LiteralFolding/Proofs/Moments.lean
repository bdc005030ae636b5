-- The symbol table from moment to moment. A program fills its table by single writes, and the
-- table is in good order after each of them; what it says is never taken back. The walk over the
-- sources passes through these moments and no others.
import Mathlib.Data.List.Chain
import LiteralFolding.Proofs.Integrity

namespace LiteralFolding

/-! ## Single writes -/

namespace SymbolTable

/-- One write to the table: a name is declared, or an earlier declaration gets one more name. -/
inductive Writes (table : SymbolTable) : SymbolTable → Prop
  | add (scope : Scope) (d : Declaration) : Writes table (table.add scope d).1
  | bind (scope : Scope) (name : Text) (id : Nat) : Writes table (table.bind scope name id)

theorem Writes.extends {table later : SymbolTable} (h : table.Writes later) :
    table.Extends later := by
  cases h with
  | add scope d => exact extends_add table scope d
  | bind scope name id => exact extends_bind table scope name id

instance : IsTrans SymbolTable Extends := ⟨fun _ _ _ => Extends.trans⟩

end SymbolTable

/-! ## The moments of a ledger -/

namespace Ledger

open Act SymbolTable

/-- The tables that one act leads to. An exported name is declared first and becomes a member
after that. -/
def stages (l : Ledger) (a : Act) : List SymbolTable :=
  match a with
  | .inScope scope d (some _) => [(l.table.add scope d).1, (l.perform a).table]
  | .inScope _ _ none => [(l.perform a).table]
  | .inside _ _ => [(l.perform a).table]

def stagesOfAll (l : Ledger) : List Act → List SymbolTable
  | [] => []
  | a :: acts => l.stages a ++ stagesOfAll (l.perform a) acts

/-- The tables that acts lead through, the empty one first. -/
def moments (acts : List Act) : List SymbolTable := {} :: stagesOfAll {} acts

variable {l : Ledger} {a : Act} {acts more : List Act} {c : Nat}

theorem stagesOfAll_append (l : Ledger) (acts more : List Act) :
    l.stagesOfAll (acts ++ more) = l.stagesOfAll acts ++ (l.performAll acts).stagesOfAll more := by
  induction acts generalizing l with
  | nil => rfl
  | cons a acts ih =>
    rw [List.cons_append, stagesOfAll, ih, stagesOfAll, List.append_assoc]
    rfl

theorem moments_append (acts more : List Act) :
    moments (acts ++ more) = moments acts ++ (ofActs acts).stagesOfAll more :=
  congrArg (({} : SymbolTable) :: ·) (stagesOfAll_append {} acts more)

theorem moments_snoc (acts : List Act) (a : Act) :
    moments (acts ++ [a]) = moments acts ++ (ofActs acts).stages a := by
  rw [moments_append, stagesOfAll, stagesOfAll, List.append_nil]

theorem getLast?_stages (l : Ledger) (a : Act) :
    (l.stages a).getLast? = some (l.perform a).table := by
  unfold stages
  split <;> rfl

theorem getLast?_moments (acts : List Act) :
    (moments acts).getLast? = some (ofActs acts).table := by
  induction acts using List.reverseRecOn with
  | nil => rfl
  | append_singleton acts a ih =>
    rw [moments_snoc, List.getLast?_append, getLast?_stages, ofActs_snoc]
    rfl

/-- The table after some of the acts is one of the moments. -/
theorem table_mem_moments (acts more : List Act) :
    (ofActs acts).table ∈ moments (acts ++ more) := by
  rw [moments_append]
  exact List.mem_append_left _ (List.mem_of_getLast? (getLast?_moments acts))

/-- An act is one write after the other. -/
theorem isChain_stages (l : Ledger) (a : Act) : (l.table :: l.stages a).IsChain Writes := by
  cases a with
  | inScope scope d exportedTo =>
    cases exportedTo with
    | none => exact .cons_cons (.add scope d) (.singleton _)
    | some c => exact .cons_cons (.add scope d) (.cons_cons (.bind _ _ _) (.singleton _))
  | inside c d =>
    rw [stages, table_perform_inside]
    exact .cons_cons (.add _ d) (.singleton _)

theorem isChain_moments (acts : List Act) : (moments acts).IsChain Writes := by
  induction acts using List.reverseRecOn with
  | nil => exact .singleton _
  | append_singleton acts a ih =>
    obtain ⟨hfirst, hrest⟩ := List.isChain_cons.mp (isChain_stages (ofActs acts) a)
    rw [moments_snoc]
    refine ih.append hrest ?_
    rw [getLast?_moments]
    rintro table ⟨rfl⟩
    exact hfirst

/-- What a moment says stays so at every later one. -/
theorem pairwise_extends_moments (acts : List Act) : (moments acts).Pairwise Extends :=
  List.isChain_iff_pairwise.mp ((isChain_moments acts).imp fun _ _ => Writes.extends)

/-! ## Every moment is sound -/

/-- The number of an act that can have members is that of a declaration that can. -/
theorem canOwn_number (h : Orderly acts) (hc : HasOwner acts c) :
    (ofActs acts).table.CanOwn ((ofActs acts).number c) := by
  obtain ⟨a, ha, hcontainer⟩ := hc
  obtain ⟨_, _, b, _, _, hrecord, _, hkind⟩ := exists_record h ha
  exact canOwn_of_isContainer hrecord (hkind ▸ hcontainer)

theorem lt_length_numbers {owner : Option Nat} (h : ∀ c ∈ owner, HasOwner acts c) :
    ∀ c ∈ owner, c < (ofActs acts).numbers.length := by
  intro c hc
  obtain ⟨a, ha, _⟩ := h c hc
  rw [length_numbers]
  exact (List.getElem?_eq_some_iff.mp ha).1

theorem isSound_stages (hsound : l.table.IsSound)
    (howner : ∀ c ∈ a.container?, l.table.CanOwn (l.number c))
    (hlexical : ∀ scope d, a.lexical? = some (scope, d) → ∀ c, scope ≠ .members c)
    (hinner : a.declaration.kind = .enumMember → a.lexical? = none) :
    ∀ table ∈ l.stages a, table.IsSound := by
  cases a with
  | inScope scope d exportedTo =>
    have hplain : d.kind ≠ .enumMember := fun heq => nomatch hinner heq
    have hadd : (l.table.add scope d).1.IsSound :=
      hsound.add (fun c hc => absurd hc (hlexical scope d rfl c)) fun heq => absurd heq hplain
    cases exportedTo with
    | none => exact List.forall_mem_singleton.mpr hadd
    | some c =>
      -- The name becomes a member under the number that it was given.
      obtain ⟨d', hd', hname, _⟩ := hsound.declaration?_add scope d
      have hbind : ((l.table.add scope d).1.bind (.members (l.number c)) d'.name
          (l.table.add scope d).2).IsSound := by
        refine hadd.bind hd' ?_ fun _ => ⟨_, rfl⟩
        rintro _ ⟨rfl⟩
        exact (howner c rfl).extends (extends_add _ _ _)
      rw [hname] at hbind
      exact List.forall_mem_cons.mpr ⟨hadd, List.forall_mem_singleton.mpr hbind⟩
  | inside c d =>
    rw [stages, table_perform_inside]
    refine List.forall_mem_singleton.mpr (hsound.add ?_ fun _ => ⟨_, rfl⟩)
    rintro _ ⟨rfl⟩
    exact howner c rfl

theorem isSound_moments (horderly : Orderly acts) (h : Lawful acts) :
    ∀ table ∈ moments acts, table.IsSound := by
  induction h with
  | nil => exact List.forall_mem_singleton.mpr isSound_empty
  | @snoc acts a h howner hinner ih =>
    have hbefore := horderly.of_append
    rw [moments_snoc]
    refine List.forall_mem_append.mpr ⟨ih hbefore, isSound_stages ?_ ?_ ?_ hinner⟩
    · exact ih hbefore _ (List.mem_of_getLast? (getLast?_moments acts))
    · exact fun c hc => canOwn_number hbefore (howner c hc)
    · intro scope d hname
      cases a with
      | inScope scope' d' exportedTo =>
        cases hname
        exact horderly.lexical scope d exportedTo (by simp)
      | inside c d' => cases hname

end Ledger

/-! ## The acts of a part of a program -/

theorem Source.actsAll_append (s : Source) (owner : Option Nat) (above : List Node) (route : Route)
    (i : Nat) (ts ts' : List Tree) (n : Nat) :
    s.actsAll owner above route i (ts ++ ts') n =
      s.actsAll owner above route i ts n ++
        s.actsAll owner above route (i + ts.length) ts'
          (n + (s.actsAll owner above route i ts n).length) := by
  induction ts generalizing i n with
  | nil => simp [actsAll]
  | cons t ts ih =>
    simp only [List.cons_append, actsAll, ih, List.length_cons, List.length_append]
    simp only [List.append_assoc, Nat.add_assoc, Nat.add_comm 1]

/-- The acts of siblings: those of the ones before a child, those of the child, and the rest. -/
theorem Source.exists_actsAll_eq {s : Source} {ts : List Tree} {i : Nat} {t : Tree}
    (ht : ts[i]? = some t) (hnamed : t.node.named = true) (owner : Option Nat)
    (above : List Node) (route : Route) (n : Nat) :
    ∃ rest, s.actsAll owner above route 0 ts n =
      s.actsAll owner above route 0 (ts.take i) n ++
        (s.actsTree owner above (i :: route) t
          (n + (s.actsAll owner above route 0 (ts.take i) n).length) ++ rest) := by
  obtain ⟨hi, rfl⟩ := List.getElem?_eq_some_iff.mp ht
  have hts : ts = ts.take i ++ ts[i] :: ts.drop (i + 1) := by
    rw [List.getElem_cons_drop, List.take_append_drop]
  have hlength : (ts.take i).length = i := List.length_take_of_le (Nat.le_of_lt hi)
  have hall := s.actsAll_append owner above route 0 (ts.take i) (ts[i] :: ts.drop (i + 1)) n
  rw [← hts, actsAll, if_pos hnamed, hlength, Nat.zero_add] at hall
  exact ⟨_, hall⟩

theorem Source.actsTree_eq (s : Source) (owner : Option Nat) (p : Position) (n : Nat) :
    s.actsTree owner p.above p.route p.tree n =
      s.actsAt owner p n ++
        s.actsAll (s.ownerBelow owner p n) (p.node :: p.above) p.route 0 p.tree.children
          (n + (s.actsAt owner p n).length) := by
  obtain ⟨⟨node, children⟩, above, route⟩ := p
  rw [actsTree]
  rfl

/-- The acts of the first sources of a program are the first of its acts. -/
theorem Source.exists_acts_append (sources more : List Source) :
    ∃ rest, acts (sources ++ more) = acts sources ++ rest := by
  induction more using List.reverseRecOn with
  | nil => exact ⟨[], by simp⟩
  | append_singleton more s ih =>
    obtain ⟨rest, hrest⟩ := ih
    rw [← List.append_assoc, acts_snoc, hrest, List.append_assoc]
    exact ⟨_, rfl⟩

/-! ## The walk -/

namespace SymbolTable

open Ledger Act

/-- Collecting a program, the walk comes to a place with the scopes that are open there and the
table so far. It comes to a child after the node above it and the children before it. -/
inductive Visits (sources : List Source) : Source → Frame → Position → SymbolTable → Prop
  | top {before after : List Source} {s : Source} (h : sources = before ++ s :: after) :
      Visits sources s { block := s.topScope, function := s.topScope, container := none }
        (.top s.tree) (ofSources before)
  | child {s : Source} {frame below : Frame} {p : Position} {table declared : SymbolTable}
      {opened : Option Nat} {i : Nat} {t : Tree} (h : Visits sources s frame p table)
      (hdeclare : table.declareAt s frame p = (declared, opened))
      (hbelow : frameBelow s frame p opened = below) (ht : p.tree.children[i]? = some t)
      (hnamed : t.node.named = true) :
      Visits sources s below { tree := t, above := p.node :: p.above, route := i :: p.route }
        (collectAll s below (p.node :: p.above) p.route 0 (p.tree.children.take i) declared)

/-- The acts so far have filled the table that the walk comes to a place with, and those of the
place come next. -/
structure Stands (sources : List Source) (s : Source) (frame : Frame) (p : Position)
    (table : SymbolTable) (before : List Act) (owner : Option Nat) : Prop where
  next : ∃ rest, Source.acts sources =
    before ++ (s.actsTree owner p.above p.route p.tree before.length ++ rest)
  owners : ∀ c ∈ owner, HasOwner before c
  scopes : frame = frameAt s p owner (ofActs before)
  filled : table = (ofActs before).table

variable {sources : List Source} {s : Source} {frame : Frame} {p : Position} {table : SymbolTable}
  {before : List Act} {owner : Option Nat}

section

variable {placed skipped : List Act} {owner' : Option Nat} {i : Nat} {t : Tree}

theorem Stands.lawful (h : Stands sources s frame p table before owner) : Lawful before := by
  obtain ⟨rest, hrest⟩ := h.next
  exact (hrest ▸ Source.lawful_acts sources).of_append

theorem Stands.declareAt_eq (h : Stands sources s frame p table before owner)
    (hplaced : before ++ s.actsAt owner p before.length = placed) :
    table.declareAt s frame p =
      ((ofActs placed).table, (s.openedAt p before.length).map (ofActs placed).number) := by
  rw [h.filled, h.scopes, SymbolTable.declareAt_eq (lt_length_numbers h.owners), length_numbers,
    ← ofActs_append, hplaced]

/-- The walk takes the frame of the places below down from a node. -/
theorem Stands.frameBelow_eq (h : Stands sources s frame p table before owner)
    (hplaced : before ++ s.actsAt owner p before.length = placed)
    (howner : s.ownerBelow owner p before.length = owner') (t : Tree) (i : Nat) :
    frameBelow s frame p ((s.openedAt p before.length).map (ofActs placed).number) =
      frameAt s { tree := t, above := p.node :: p.above, route := i :: p.route } owner'
        (ofActs placed) := by
  have hnumbers := map_number_performAll (s.actsAt owner p before.length)
    (lt_length_numbers h.owners)
  rw [← ofActs_append, hplaced] at hnumbers
  rw [h.scopes, SymbolTable.frameBelow_eq before.length t i hnumbers, howner]

/-- After the acts of a node and of some of its children come those of the next child. -/
theorem Stands.next_child (h : Stands sources s frame p table before owner)
    (hplaced : before ++ s.actsAt owner p before.length = placed)
    (howner : s.ownerBelow owner p before.length = owner')
    (hskipped : s.actsAll owner' (p.node :: p.above) p.route 0 (p.tree.children.take i)
      placed.length = skipped)
    (ht : p.tree.children[i]? = some t) (hnamed : t.node.named = true) :
    ∃ rest, Source.acts sources =
      placed ++ skipped ++
        (s.actsTree owner' (p.node :: p.above) (i :: p.route) t (placed ++ skipped).length ++
          rest) := by
  obtain ⟨rest, hrest⟩ := h.next
  obtain ⟨more, hmore⟩ := Source.exists_actsAll_eq (s := s) ht hnamed owner' (p.node :: p.above)
    p.route placed.length
  refine ⟨more ++ rest, ?_⟩
  rw [hrest, Source.actsTree_eq, howner, ← List.length_append, hplaced, hmore, hskipped,
    List.length_append, ← hplaced]
  simp only [List.append_assoc]

/-- After a node and some of its children the walk stands at the next child. -/
theorem Stands.child {declared : SymbolTable} {opened : Option Nat} {below : Frame}
    (h : Stands sources s frame p table before owner)
    (hdeclare : table.declareAt s frame p = (declared, opened))
    (hbelow : frameBelow s frame p opened = below) (ht : p.tree.children[i]? = some t)
    (hnamed : t.node.named = true) :
    ∃ before owner, Stands sources s below
      { tree := t, above := p.node :: p.above, route := i :: p.route }
      (collectAll s below (p.node :: p.above) p.route 0 (p.tree.children.take i) declared)
      before owner := by
  have howners := Source.hasOwner_ownerBelow (s := s) (p := p) h.lawful h.owners
  generalize hplaced : before ++ s.actsAt owner p before.length = placed at howners
  generalize howner : s.ownerBelow owner p before.length = owner' at howners
  rw [h.declareAt_eq hplaced] at hdeclare
  obtain ⟨rfl, rfl⟩ := Prod.mk.inj hdeclare
  have hframe := fun t i => hbelow.symm.trans (h.frameBelow_eq hplaced howner t i)
  have hlt := lt_length_numbers howners
  have htable := collectAll_eq hlt hframe (p.tree.children.take i) (i := 0)
  rw [length_numbers, ← ofActs_append] at htable
  refine ⟨_, owner', h.next_child hplaced howner rfl ht hnamed, ?_, ?_, htable⟩
  · exact fun c hc => (howners c hc).append _
  · rw [hframe t i, ofActs_append]
    exact (frameAt_congr s _ (map_number_performAll _ hlt)).symm

end

theorem exists_stands (h : Visits sources s frame p table) :
    ∃ before owner, Stands sources s frame p table before owner := by
  induction h with
  | @top before after s h =>
    refine ⟨Source.acts before, none, ?_, by simp, rfl, ofSources_eq before⟩
    obtain ⟨rest, hrest⟩ := Source.exists_acts_append (before ++ [s]) after
    refine ⟨rest, ?_⟩
    rw [h, List.append_cons, hrest, Source.acts_snoc, List.append_assoc]
    rfl
  | child h hdeclare hbelow ht hnamed ih =>
    obtain ⟨before, owner, hstands⟩ := ih
    exact hstands.child hdeclare hbelow ht hnamed

/-- The walk comes to a place at one of the moments, leaves its node at another, and exports there
go to a declaration that can have members. -/
theorem Stands.mem_moments (h : Stands sources s frame p table before owner) :
    table ∈ moments (Source.acts sources) ∧
      (table.declareAt s frame p).1 ∈ moments (Source.acts sources) ∧
      ∀ c ∈ frame.container, table.CanOwn c := by
  obtain ⟨rest, hrest⟩ := h.next
  have horderly := Source.orderly_acts sources
  refine ⟨?_, ?_, ?_⟩
  · rw [h.filled, hrest]
    exact table_mem_moments before _
  · rw [h.declareAt_eq rfl, hrest, Source.actsTree_eq, List.append_assoc, ← List.append_assoc]
    exact table_mem_moments _ _
  · rw [hrest] at horderly
    rw [h.filled, h.scopes]
    intro c hc
    obtain ⟨n, hn, rfl⟩ := Option.map_eq_some_iff.mp hc
    exact canOwn_number horderly.of_append (h.owners n hn)

/-! ## The walk leaves no place out -/

mutual

theorem exists_visits_from {above : List Node} {route : Route} : (t : Tree) →
    (∃ frame table, Visits sources s frame { tree := t, above, route } table) →
    ∀ q ∈ Position.meaningfulFrom above route t, ∃ frame table, Visits sources s frame q table
  | .mk node children, h => by
    rw [Position.meaningfulFrom]
    refine List.forall_mem_cons.mpr ⟨h, ?_⟩
    obtain ⟨frame, table, h⟩ := h
    exact exists_visits_below h 0 children fun k => by rw [Nat.zero_add]; rfl

theorem exists_visits_below {frame : Frame} {p : Position} {table : SymbolTable}
    (h : Visits sources s frame p table) (i : Nat) : (ts : List Tree) →
    (∀ k : Nat, p.tree.children[i + k]? = ts[k]?) →
    ∀ q ∈ Position.meaningfulBelow (p.node :: p.above) p.route i ts,
      ∃ frame table, Visits sources s frame q table
  | [], _ => by simp [Position.meaningfulBelow]
  | t :: ts, hchildren => by
    rw [Position.meaningfulBelow]
    refine List.forall_mem_append.mpr ⟨?_, exists_visits_below h (i + 1) ts fun k => ?_⟩
    · split
      · rename_i hnamed
        exact exists_visits_from t ⟨_, _, h.child rfl rfl (hchildren 0) hnamed⟩
      · simp
    · rw [Nat.add_assoc, Nat.add_comm 1]
      exact hchildren (k + 1)

end

theorem exists_visits (h : (s, p) ∈ Source.places sources) :
    ∃ frame table, Visits sources s frame p table := by
  obtain ⟨s', hs', hp⟩ := List.mem_flatMap.mp h
  obtain ⟨p', hp', heq⟩ := List.mem_map.mp hp
  cases heq
  obtain ⟨before, after, rfl⟩ := List.append_of_mem hs'
  exact exists_visits_from s.tree ⟨_, _, .top rfl⟩ p hp'

/-- While a program is collected its table goes from empty to complete by single writes. It is
sound at every moment, and what it says stays so at every later one. The walk comes to every place
and leaves it at one of these moments. -/
theorem sound_at_every_moment (sources : List Source) :
    let moments := Ledger.moments (Source.acts sources)
    moments.head? = some {} ∧ moments.getLast? = some (ofSources sources) ∧
      moments.IsChain Writes ∧ (∀ table ∈ moments, table.IsSound) ∧ moments.Pairwise Extends ∧
      (∀ s p, (s, p) ∈ Source.places sources → ∃ frame table, Visits sources s frame p table) ∧
      ∀ s frame p table, Visits sources s frame p table →
        table ∈ moments ∧ (table.declareAt s frame p).1 ∈ moments ∧
          ∀ c ∈ frame.container, table.CanOwn c := by
  refine ⟨rfl, ?_, isChain_moments _, ?_, pairwise_extends_moments _, ?_, ?_⟩
  · rw [getLast?_moments, ofSources_eq]
  · exact isSound_moments (Source.orderly_acts sources) (Source.lawful_acts sources)
  · exact fun s p => exists_visits
  · intro s frame p table h
    obtain ⟨before, owner, hstands⟩ := exists_stands h
    exact hstands.mem_moments

end SymbolTable

end LiteralFolding
