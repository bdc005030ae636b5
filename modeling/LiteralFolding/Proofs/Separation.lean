-- Modules keep to themselves. A module declares in its own scopes, and makes members only of what
-- it declared itself. So it can be put into a program, taken out or exchanged for others without
-- any effect on how the rest is folded.
import LiteralFolding.Proofs.Extension
import LiteralFolding.Proofs.Renumbering

namespace LiteralFolding

/-! ## Tables of whole programs -/

namespace SymbolTable

open Ledger Act

variable {sources : List Source} {scope : Scope} {name : Text}

theorem lt_of_find? {id : Nat} (h : (ofSources sources).find? scope name = some id) :
    id < (ofSources sources).declarations.length := by
  rw [ofSources_eq] at h ⊢
  obtain ⟨i, hfirst, rfl⟩ := (find?_ofActs (Source.orderly_acts sources)).mp h
  exact number_lt (Source.orderly_acts sources) hfirst.lt_length

/-- What has not been declared has no members. -/
theorem find?_members_eq_none {c : Nat} (h : (ofSources sources).declarations.length ≤ c) :
    (ofSources sources).find? (.members c) name = none := by
  have horderly := Source.orderly_acts sources
  rw [Option.eq_none_iff_forall_ne_some]
  intro id hid
  rw [ofSources_eq] at h hid
  obtain ⟨i, hfirst, _⟩ := (find?_ofActs horderly).mp hid
  have hi := hfirst.lt_length
  obtain ⟨⟨a, ha, henters, _⟩, _⟩ := hfirst
  rcases henters with hhome | ⟨container, hcontainer, hmembers⟩
  · cases a with
    | inScope own d exportedTo =>
      exact horderly.lexical own d exportedTo (List.mem_of_getElem? ha) c hhome
    | inside container d =>
      have hearlier := horderly.earlier i _ ha container rfl
      have := number_lt horderly (Nat.lt_trans hearlier hi)
      cases hhome
      omega
  · have hearlier := horderly.earlier i a ha container hcontainer
    have := number_lt horderly (Nat.lt_trans hearlier hi)
    cases hmembers
    omega

/-- A source that is not there has no places. -/
theorem find?_place_eq_none {source : Nat} {route : Route}
    (h : ∀ s ∈ sources, s.index ≠ source) :
    (ofSources sources).find? (.place source route) name = none := by
  unfold ofSources
  rw [find?_place_foldl_collect {} h]
  rfl

end SymbolTable

/-! ## What a module declares -/

/-- The scopes that nothing but a source can write to, if the numbers below `start` were given
before it came. -/
def Scope.Private (source start : Nat) : Scope → Prop
  | .shared => False
  | .place own _ => own = source
  | .members declaration => start ≤ declaration

namespace Ledger

open Act SymbolTable

/-- The ledger differs from the table in the private scopes of the source only, and these stand for
new declarations only. -/
structure Apart (source : Nat) (table : SymbolTable) (l : Ledger) : Prop where
  declarations : table.declarations <+: l.table.declarations
  numbers : ∀ id ∈ l.numbers, table.declarations.length ≤ id
  others : ∀ scope, ¬ scope.Private source table.declarations.length →
    ∀ name, l.table.find? scope name = table.find? scope name
  own : ∀ scope, scope.Private source table.declarations.length →
    ∀ name id, l.table.find? scope name = some id → table.declarations.length ≤ id

variable {source : Nat} {table : SymbolTable} {l : Ledger} {a : Act}

theorem Apart.start_le_number {c : Nat} (h : Apart source table l) (hc : c < l.numbers.length) :
    table.declarations.length ≤ l.number c := by
  apply h.numbers
  unfold Ledger.number
  simp [List.getElem?_eq_getElem hc]

/-- An act enters private scopes only. -/
theorem Apart.private_of_enters {scope : Scope} (h : Apart source table l)
    (hscope : ∀ own d, a.lexical? = some (own, d) → ∃ route, own = .place source route)
    (hc : ∀ c ∈ a.container?, c < l.numbers.length) (henters : a.Enters l.number scope) :
    scope.Private source table.declarations.length := by
  rcases henters with rfl | ⟨c, hcontainer, rfl⟩
  · cases a with
    | inScope own d exportedTo =>
      obtain ⟨route, rfl⟩ := hscope own d rfl
      rfl
    | inside container d => exact h.start_le_number (hc container rfl)
  · exact h.start_le_number (hc c hcontainer)

theorem Apart.start_le_next (h : Apart source table l)
    (hhome : (a.home l.number).Private source table.declarations.length) :
    table.declarations.length ≤ l.next a := by
  unfold next
  cases hcontinued : l.table.continued? (a.home l.number) a.declaration with
  | none =>
    rw [add_of_new _ hcontinued]
    exact h.declarations.length_le
  | some id =>
    rw [add_of_continued _ hcontinued]
    exact h.own _ hhome _ id ((continued?_eq_some_iff _).mp hcontinued).1

/-- One act of a module. -/
theorem Apart.perform (h : Apart source table l)
    (hscope : ∀ own d, a.lexical? = some (own, d) → ∃ route, own = .place source route)
    (hc : ∀ c ∈ a.container?, c < l.numbers.length) : Apart source table (l.perform a) := by
  have hprivate : ∀ scope, a.Enters l.number scope →
      scope.Private source table.declarations.length := fun _ => h.private_of_enters hscope hc
  have hnext := h.start_le_next (hprivate _ (.inl rfl))
  refine ⟨h.declarations.trans (declarations_prefix_perform l a), ?_, ?_, ?_⟩
  · intro id hid
    rcases List.mem_append.mp hid with hid | hid
    · exact h.numbers id hid
    · obtain rfl := List.mem_singleton.mp hid
      exact hnext
  · intro scope hother name
    rw [find?_perform_of_not_enters fun henters => hother (hprivate scope henters)]
    exact h.others scope hother name
  · intro scope hown name id hid
    rcases find?_perform.mp hid with hid | ⟨_, _, _, rfl⟩
    · exact h.own scope hown name id hid
    · exact hnext

theorem Apart.performAll {acts : List Act} (h : Apart source table l)
    (hscope : ∀ a ∈ acts, ∀ own d, a.lexical? = some (own, d) → ∃ route, own = .place source route)
    (hacts : Backward l.numbers.length acts) : Apart source table (l.performAll acts) := by
  induction acts generalizing l with
  | nil => exact h
  | cons a acts ih =>
    refine ih (h.perform (hscope a (List.mem_cons_self ..)) (hacts 0 a rfl))
      (fun b hb => hscope b (List.mem_cons_of_mem _ hb)) ?_
    rw [length_numbers_perform]
    exact hacts.tail

end Ledger

namespace SymbolTable

variable {sources : List Source} {m : Source}

/-- What a module makes of the table of the sources before it. -/
theorem exists_apart_collect (hmodule : m.isModule) (hnew : ∀ s ∈ sources, s.index ≠ m.index) :
    ∃ l : Ledger, l.table = (ofSources sources).collect m ∧
      l.Apart m.index (ofSources sources) := by
  refine ⟨_, (collect_eq { table := ofSources sources, numbers := [] } m).symm, ?_⟩
  refine Ledger.Apart.performAll ⟨List.prefix_refl _, by simp, fun _ _ _ => rfl, ?_⟩ ?_
    (m.backward_actsTree 0)
  · intro scope hown name id hid
    cases scope with
    | shared => cases hown
    | place own route =>
      cases hown
      cases (find?_place_eq_none hnew).symm.trans hid
    | members declaration => cases (find?_members_eq_none hown).symm.trans hid
  · intro a ha own d hname
    rcases Source.owns_of_mem_actsTree ha hname with rfl | howned
    · exact ⟨[], if_pos hmodule⟩
    · exact howned

/-- The room that a source takes up between two tables. -/
def roomOf (source : Nat) (table later : SymbolTable) : Room where
  source := source
  start := table.declarations.length
  width := later.declarations.length - table.declarations.length

/-- The table before a module, and the one after it: of what is there, nothing moves. -/
theorem mirrors_collect (hmodule : m.isModule) (hindex : ∀ s ∈ sources, s.index < m.index) :
    Mirrors (roomOf m.index (ofSources sources) ((ofSources sources).collect m))
      (ofSources sources) ((ofSources sources).collect m) := by
  obtain ⟨l, hl, hapart⟩ := exists_apart_collect hmodule fun s hs => Nat.ne_of_lt (hindex s hs)
  have hafter : (ofSources sources).collect m = ofSources (sources ++ [m]) := by
    simp [ofSources, List.foldl_append]
  rw [← hl] at hafter ⊢
  have hle := hapart.declarations.length_le
  -- Every number in the table is below the room.
  have hkept : ∀ (scope : Scope) (name : Text),
      ((ofSources sources).find? scope name).map
        (roomOf m.index (ofSources sources) l.table).number =
      (ofSources sources).find? scope name := by
    intro scope name
    cases hfind : (ofSources sources).find? scope name with
    | none => rfl
    | some id => exact congrArg some (Room.past_of_lt _ (lt_of_find? hfind))
  refine ⟨Nat.le_refl _, by simp only [roomOf]; omega, ?_, ?_⟩
  · intro id
    rcases Nat.lt_or_ge id (ofSources sources).declarations.length with hlt | hge
    · obtain ⟨rest, hrest⟩ := hapart.declarations
      rw [Room.number, roomOf, Room.past_of_lt _ hlt]
      unfold declaration?
      rw [← hrest, List.getElem?_append_left hlt]
    · rw [Room.number, roomOf, Room.past_of_le _ hge]
      unfold declaration?
      rw [List.getElem?_eq_none hge, List.getElem?_eq_none (by dsimp only; omega)]
  · intro scope name
    rw [hkept]
    cases scope with
    | shared => exact hapart.others .shared (by simp [Scope.Private]) name
    | place source route =>
      rcases Nat.lt_or_ge source m.index with hlt | hge
      · rw [Room.scope, Room.sourceNumber, roomOf, Room.past_of_lt _ hlt]
        exact hapart.others (.place source route) (Nat.ne_of_lt hlt) name
      · rw [Room.scope, Room.sourceNumber, roomOf, Room.past_of_le _ hge,
          hapart.others (.place (source + 1) route) (Nat.ne_of_gt (Nat.lt_succ_of_le hge)) name,
          find?_place_eq_none fun s hs => Nat.ne_of_lt (Nat.lt_of_lt_of_le (hindex s hs) hge),
          find?_place_eq_none fun s hs =>
            Nat.ne_of_lt (Nat.lt_succ_of_lt (Nat.lt_of_lt_of_le (hindex s hs) hge))]
    | members declaration =>
      rcases Nat.lt_or_ge declaration (ofSources sources).declarations.length with hlt | hge
      · rw [Room.scope, Room.number, roomOf, Room.past_of_lt _ hlt]
        exact hapart.others (.members declaration) (Nat.not_le_of_lt hlt) name
      · rw [Room.scope, Room.number, roomOf, Room.past_of_le _ hge, find?_members_eq_none hge,
          hafter]
        apply find?_members_eq_none
        rw [← hafter]
        dsimp only
        omega

end SymbolTable

/-! ## Folding a moved source -/

section

variable {r : Room} {s : Source} {resolver resolver' : Resolver}

theorem Expression.segments?_moved (cursor stop : Nat) (ps : List Position) :
    segments? (r.moved s) cursor stop ps = segments? s cursor stop ps := by
  induction ps generalizing cursor with
  | nil => rfl
  | cons p ps ih =>
    rw [segments?, segments?, ih]
    rfl

theorem Expression.ofPosition_moved (p : Position) : ofPosition (r.moved s) p = ofPosition s p := by
  have htemplate : ofTemplate (r.moved s) p = ofTemplate s p := by
    simp only [ofTemplate, segments?_moved]
  unfold ofPosition
  rw [htemplate]
  rfl

theorem Fragment.first_moved (h : ∀ p, resolver' (r.moved s) p = resolver s p) (p : Position) :
    first (r.moved s) resolver' p = first s resolver p := by
  induction hn : p.tree.size using Nat.strongRecOn generalizing p with
  | _ n ih =>
    subst hn
    rw [first_eq, first_eq s, Expression.ofPosition_moved]
    cases hp : Expression.ofPosition s p with
    | literal text => rfl
    | template head spans => rfl
    | concatenation left operator right =>
      have hlt := Expression.size_concatenation_lt hp
      simp only [ih left.tree.size (by omega) left rfl]
      rfl
    | parenthesized inner =>
      exact ih inner.tree.size (Expression.size_parenthesized_lt hp) inner rfl
    | reference =>
      simp only [h p]
      rfl
    | unsupported => rfl

theorem Fragment.collect_moved (h : ∀ p, resolver' (r.moved s) p = resolver s p)
    (parts : List Part) : collect (r.moved s) resolver' parts = collect s resolver parts := by
  fun_induction collect s resolver parts with
  | case1 => rw [collect]
  | case2 text rest texts failure hrest ih => rw [collect, ih, hrest]
  | case3 p rest text parts hfirst _ texts failure hrest ih =>
    rw [← first_moved h] at hfirst
    rw [collect_expression_cons_of_ok hfirst, ih, hrest]
    rfl
  | case4 p rest e hfirst =>
    rw [← first_moved h] at hfirst
    exact collect_expression_cons_of_error hfirst rest

theorem Candidate.evaluate_moved (h : ∀ p, resolver' (r.moved s) p = resolver s p)
    (p : Position) : evaluate (r.moved s) resolver' p = evaluate s resolver p := by
  unfold evaluate
  rw [Fragment.ofPosition, Fragment.collect_moved h, Fragment.ofPosition]

end

namespace FoldContext

variable {r : Room} {cx : FoldContext} {resolver : Resolver}

theorem occurrence?_moved (h : ∀ p, resolver (r.moved cx.source) p = cx.resolver cx.source p)
    (value : Position) :
    occurrence? { cx with source := r.moved cx.source, resolver } value = cx.occurrence? value := by
  have hcandidate : candidate { cx with source := r.moved cx.source, resolver } value =
      cx.candidate value := by
    simp only [candidate, Candidate.visit, Candidate.evaluate_moved h]
  unfold occurrence?
  rw [hcandidate]
  rfl

theorem walk_moved (h : ∀ p, resolver (r.moved cx.source) p = cx.resolver cx.source p)
    (pending : List Position) :
    walk { cx with source := r.moved cx.source, resolver } pending = cx.walk pending := by
  have hvalue : ∀ p, (value? { cx with source := r.moved cx.source, resolver } p).bind
      (occurrence? { cx with source := r.moved cx.source, resolver }) =
        (cx.value? p).bind cx.occurrence? := by
    intro p
    rw [funext (occurrence?_moved h)]
    rfl
  fun_induction walk cx pending with
  | case1 => rw [walk]
  | case2 p rest hnone ih => rw [walk, hvalue, hnone, ih]
  | case3 p rest o hsome ih ih' =>
    rw [walk, hvalue, hsome]
    dsimp only
    rw [ih, ih']

/-- Only the resolver can tell a source from a moved one. -/
theorem fold_moved (cx : FoldContext)
    (h : ∀ p, resolver (r.moved cx.source) p = cx.resolver cx.source p) :
    fold { cx with source := r.moved cx.source, resolver } = cx.fold := by
  have hoccurrences : occurrences { cx with source := r.moved cx.source, resolver } =
      cx.occurrences := walk_moved h _
  unfold fold
  rw [hoccurrences]
  rfl

end FoldContext

/-! ## Programs with a module more -/

namespace Program

variable {m : Source}

/-- A source that is put in moves the ones after it, and leaves those before it. -/
theorem exists_number_insert (before after : List Source) {r : Room}
    (h : r.source = before.length) :
    ∃ later, Source.number (before ++ after) = Source.number before ++ later ∧
      Source.number (before ++ m :: after) =
        Source.number before ++ { m with index := before.length } :: later.map r.moved ∧
      (Source.number before).map r.moved = Source.number before := by
  refine ⟨_, Source.number_append before after, ?_, ?_⟩
  · rw [Source.number_append, List.zipIdx_cons, List.map_cons]
    congr 2
    apply List.ext_getElem?
    intro i
    have hindex : r.sourceNumber (before.length + i) = before.length + 1 + i := by
      rw [Room.sourceNumber, h, Room.past_of_le _ (Nat.le_add_right ..)]
      omega
    simp [Room.moved, hindex, Function.comp_def]
  · refine (List.map_congr_left fun s hs => ?_).trans (List.map_id _)
    have hlt : s.index < r.source := h ▸ Source.index_lt_of_mem_number hs
    simp [Room.moved, Room.sourceNumber, Room.past_of_lt _ hlt]

/-- A module that is put in moves the other sources and their names, and that is all. -/
theorem exists_mirrors_insert (before after : List Source) (hmodule : m.isModule) :
    ∃ r : Room,
      SymbolTable.Mirrors r (ofSources (before ++ after)).symbols
        (ofSources (before ++ m :: after)).symbols ∧
      ∀ i, (ofSources (before ++ m :: after)).sources[Room.past before.length 1 i]? =
        (ofSources (before ++ after)).sources[i]?.map r.moved := by
  have hindex : ∀ s ∈ Source.number before, s.index < before.length :=
    fun s hs => Source.index_lt_of_mem_number hs
  have hmirrors := SymbolTable.mirrors_collect (m := { m with index := before.length }) hmodule
    hindex
  generalize hr : SymbolTable.roomOf _ _ _ = r at hmirrors
  have hsource : r.source = before.length := by rw [← hr]; rfl
  obtain ⟨later, hwithout, hwith, hbefore⟩ := exists_number_insert (m := m) before after hsource
  refine ⟨r, ?_, ?_⟩
  · simp only [ofSources, SymbolTable.ofSources, hwithout, hwith, List.foldl_append,
      List.foldl_cons]
    exact hmirrors.foldl_collect later
  · intro i
    have hlength : (Source.number before).length = before.length := by simp [Source.number]
    simp only [ofSources, hwithout, hwith]
    rw [← List.getElem?_map, List.map_append, hbefore]
    rcases Nat.lt_or_ge i before.length with hlt | hge
    · rw [Room.past_of_lt _ hlt, List.getElem?_append_left (hlength ▸ hlt),
        List.getElem?_append_left (hlength ▸ hlt)]
    · obtain ⟨k, rfl⟩ := Nat.exists_eq_add_of_le hge
      rw [Room.past_of_le _ hge, List.getElem?_append_right (by omega),
        List.getElem?_append_right (by omega), hlength, Nat.add_assoc, Nat.add_sub_cancel_left,
        Nat.add_sub_cancel_left, List.getElem?_cons_succ]

/-- The sources of a program, each folded by the program's own names. -/
def foldSources (sources : List Source) (transform : Transform) (options : FoldOptions) :
    List FoldedSource :=
  (ofSources sources).foldAll (ofSources sources).resolver transform options

variable (transform : Transform) (options : FoldOptions)

theorem foldSources_insert (before after : List Source) (hmodule : m.isModule) (i : Nat) :
    (foldSources (before ++ m :: after) transform options)[Room.past before.length 1 i]? =
      (foldSources (before ++ after) transform options)[i]? := by
  obtain ⟨r, hmirrors, hsources⟩ := exists_mirrors_insert before after hmodule
  unfold foldSources foldAll
  rw [List.getElem?_map, List.getElem?_map, hsources, Option.map_map]
  congr 1
  funext s
  exact FoldContext.fold_moved { source := s, resolver := _, transform, options }
    fun p => hmirrors.resolve? s p

/-- Modules behind a source do not matter to it. -/
theorem foldSources_scripts_after (sources after : List Source) {i : Nat}
    (hi : i < sources.length) :
    (foldSources (sources ++ after) transform options)[i]? =
      (foldSources (sources ++ after.filter (!·.isModule)) transform options)[i]? := by
  induction after generalizing sources with
  | nil => rfl
  | cons s after ih =>
    cases hmodule : s.isModule with
    | true =>
      have hinsert := foldSources_insert transform options sources after hmodule i
      rw [Room.past_of_lt _ hi] at hinsert
      rw [hinsert, ih sources hi, List.filter_cons_of_neg (by simp [hmodule])]
    | false =>
      have hkept := ih (sources ++ [s]) (by simp; omega)
      rw [List.append_assoc, List.append_assoc] at hkept
      rw [List.filter_cons_of_pos (by simp [hmodule])]
      exact hkept

/-- Modules in front of a source do not matter to it. -/
theorem foldSources_scripts_before (before sources : List Source) (i : Nat) :
    (foldSources (before ++ sources) transform options)[before.length + i]? =
      (foldSources (before.filter (!·.isModule) ++ sources) transform options)[
        (before.filter (!·.isModule)).length + i]? := by
  -- From the source outwards: a module that goes moves what is behind it.
  induction before using List.reverseRecOn generalizing sources i with
  | nil => rfl
  | append_singleton before s ih =>
    rw [List.filter_append, List.append_assoc, List.append_assoc, List.length_append,
      List.length_append, Nat.add_assoc, Nat.add_assoc]
    cases hmodule : s.isModule with
    | true =>
      have hinsert := foldSources_insert transform options before sources hmodule
        (before.length + i)
      rw [Room.past_of_le _ (Nat.le_add_right ..), Nat.add_assoc, Nat.add_comm i] at hinsert
      rw [List.filter_cons_of_neg (by simp [hmodule]), List.filter_nil, List.length_nil,
        Nat.zero_add]
      exact hinsert.trans (ih sources i)
    | false =>
      rw [List.filter_cons_of_pos (by simp [hmodule])]
      exact ih (s :: sources) (1 + i)

/-- A source is folded as it would be among the scripts alone. -/
theorem foldSources_scripts (before after : List Source) (s : Source) :
    (foldSources (before ++ s :: after) transform options)[before.length]? =
      (foldSources (before.filter (!·.isModule) ++ s :: after.filter (!·.isModule))
        transform options)[(before.filter (!·.isModule)).length]? := by
  have hlt : (before.filter (!·.isModule)).length <
      (before.filter (!·.isModule) ++ [s]).length := by simp
  have hafter := foldSources_scripts_after transform options (before.filter (!·.isModule) ++ [s])
    after hlt
  rw [List.append_assoc, List.append_assoc] at hafter
  exact (foldSources_scripts_before transform options before (s :: after) 0).trans hafter

/-- Of the other sources only the scripts matter: modules may be put in, taken out, moved about or
exchanged, and a source is folded as before. -/
theorem other_modules_do_not_matter {before before' after after' : List Source} (s : Source)
    (hbefore : before.filter (!·.isModule) = before'.filter (!·.isModule))
    (hafter : after.filter (!·.isModule) = after'.filter (!·.isModule))
    (transform : Transform) (options : FoldOptions) :
    ∃ folded, (foldSources (before ++ s :: after) transform options)[before.length]? = some folded ∧
      (foldSources (before' ++ s :: after') transform options)[before'.length]? = some folded := by
  have hlt : before.length < (foldSources (before ++ s :: after) transform options).length := by
    simp [foldSources, foldAll, ofSources, Source.number]
  refine ⟨_, List.getElem?_eq_getElem hlt, ?_⟩
  rw [foldSources_scripts, ← hbefore, ← hafter, ← foldSources_scripts, List.getElem?_eq_getElem hlt]

/-- The script `var a='x';f({template:a+'y'})`. -/
def greeting : Source where
  index := 0
  path := []
  dialect := .typeScript
  text := ['v', 'a', 'r', ' ', 'a', '=', '\'', 'x', '\'', ';', 'f', '(', '{', 't', 'e', 'm', 'p',
    'l', 'a', 't', 'e', ':', 'a', '+', '\'', 'y', '\'', '}', ')']
  tree := .piece (.other "program") none 0 29 [
    .piece .variableDeclaration none 0 10 [.piece .variableDeclarator none 4 9 [
      .piece .identifier (some .name) 4 5 [], .piece .string (some .value) 6 9 []]],
    .piece (.other "expression_statement") none 10 29 [
      .piece (.other "call_expression") none 10 29 [.piece .identifier none 10 11 [],
        .piece (.other "arguments") none 11 29 [.piece (.other "object") none 12 28 [
          .piece .pair none 13 27 [.piece .propertyIdentifier (some .key) 13 21 [],
            .piece .binaryExpression (some .value) 22 27 [
              .piece .identifier (some .left) 22 23 [],
              .piece .plus (some .operator) 23 24 [], .piece .string (some .right) 24 27 []]]]]]]]

/-- The module `export var a='m'`. -/
def exporter : Source where
  index := 0
  path := []
  dialect := .typeScript
  text := ['e', 'x', 'p', 'o', 'r', 't', ' ', 'v', 'a', 'r', ' ', 'a', '=', '\'', 'm', '\'']
  tree := .piece (.other "program") none 0 16 [.piece .exportStatement none 0 16 [
    .piece .variableDeclaration none 7 16 [.piece .variableDeclarator none 11 16 [
      .piece .identifier (some .name) 11 12 [], .piece .string (some .value) 13 16 []]]]]

/-- An exported name in front of the script or behind it, with the script's own of that name. -/
theorem exporter_does_not_matter_to_greeting :
    exporter.isModule = true ∧ greeting.isModule = false ∧
      ∃ folded,
        (foldSources ([exporter] ++ greeting :: []) .done ⟨"template".toList, .single⟩)[1]? =
          some folded ∧
        (foldSources ([] ++ greeting :: [exporter]) .done ⟨"template".toList, .single⟩)[0]? =
          some folded := by
  have hexporter : exporter.isModule = true := by decide
  refine ⟨hexporter, by decide, ?_⟩
  exact other_modules_do_not_matter greeting (by simp [hexporter]) (by simp [hexporter]) _ _

end Program

end LiteralFolding
