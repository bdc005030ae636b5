-- Later sources. A reference that has a declaration keeps it when sources are added at the end of
-- a program, whatever these declare: they share the top level with earlier scripts and continue
-- earlier enumerations and namespaces, but the first entry of a name in a scope is the one that
-- stays, and the places of an earlier source are no concern of a later one.
import LiteralFolding.Proofs.Provenance

namespace LiteralFolding

/-! ## Acts of other sources -/

namespace Ledger

open Act SymbolTable

variable {source : Nat}

theorem not_enters_place {number : Nat → Nat} {a : Act} {route : Route}
    (h : ∀ scope d, a.lexical? = some (scope, d) → scope ≠ .place source route) :
    ¬ a.Enters number (.place source route) := by
  rintro (hhome | ⟨c, _, hmembers⟩)
  · cases a with
    | inScope scope d exportedTo => exact h scope d rfl hhome
    | inside container d => cases hhome
  · cases hmembers

/-- Acts that go to no place of a source leave its places alone. -/
theorem find?_place_performAll (l : Ledger) {acts : List Act}
    (h : ∀ a ∈ acts, ∀ scope d, a.lexical? = some (scope, d) →
      ∀ route, scope ≠ .place source route) (route : Route) (name : Text) :
    (l.performAll acts).table.find? (.place source route) name =
      l.table.find? (.place source route) name := by
  induction acts generalizing l with
  | nil => rfl
  | cons a acts ih =>
    rw [List.forall_mem_cons] at h
    calc ((l.perform a).performAll acts).table.find? (.place source route) name
        = (l.perform a).table.find? (.place source route) name := ih (l.perform a) h.2
      _ = l.table.find? (.place source route) name :=
        find?_perform_of_not_enters (not_enters_place fun scope d hd => h.1 scope d hd route) name

end Ledger

namespace SymbolTable

variable {s : Source} {source : Nat} {table later : SymbolTable}

theorem extends_collect (table : SymbolTable) (s : Source) : table.Extends (table.collect s) := by
  rw [collect_eq { table, numbers := [] } s]
  exact Ledger.extends_performAll { table, numbers := [] } _

theorem extends_foldl_collect (table : SymbolTable) (more : List Source) :
    table.Extends (more.foldl collect table) := by
  induction more generalizing table with
  | nil => exact .refl _
  | cons s more ih => exact (extends_collect table s).trans (ih (table.collect s))

theorem find?_place_collect (table : SymbolTable) (h : s.index ≠ source) (route : Route)
    (name : Text) :
    (table.collect s).find? (.place source route) name =
      table.find? (.place source route) name := by
  rw [collect_eq { table, numbers := [] } s]
  refine Ledger.find?_place_performAll { table, numbers := [] } ?_ route name
  intro a ha scope d hname route
  rcases Source.owns_of_mem_actsTree ha hname with rfl | ⟨own, rfl⟩
  · unfold Source.topScope
    split
    · simp [h]
    · simp
  · simp [h]

/-- Other sources declare nothing at the places of a source. -/
theorem find?_place_foldl_collect (table : SymbolTable) {more : List Source}
    (h : ∀ s ∈ more, s.index ≠ source) (route : Route) (name : Text) :
    (more.foldl collect table).find? (.place source route) name =
      table.find? (.place source route) name := by
  induction more generalizing table with
  | nil => rfl
  | cons s more ih =>
    rw [List.forall_mem_cons] at h
    rw [List.foldl_cons, ih (table.collect s) h.2, find?_place_collect table h.1]

/-! ## References -/

theorem Extends.lookup {id : Nat} {name : Text} {route : Route} (h : table.Extends later)
    (hplaces : ∀ route name,
      later.find? (.place source route) name = table.find? (.place source route) name)
    (hlookup : table.lookup source name route = some id) :
    later.lookup source name route = some id := by
  induction route with
  | nil =>
    rw [SymbolTable.lookup, Option.or_eq_some_iff] at hlookup ⊢
    rw [hplaces]
    rcases hlookup with hlookup | ⟨hnone, hlookup⟩
    · exact .inl hlookup
    · exact .inr ⟨hnone, h.names _ _ _ hlookup⟩
  | cons step route ih =>
    rw [SymbolTable.lookup, Option.or_eq_some_iff] at hlookup ⊢
    rw [hplaces]
    rcases hlookup with hlookup | ⟨hnone, hlookup⟩
    · exact .inl hlookup
    · exact .inr ⟨hnone, ih hlookup⟩

/-- By how long the path of names is: its object keeps its declaration, and the member is found
where it was. -/
theorem Extends.declarationOf? {p : Position} {id : Nat} (h : table.Extends later)
    (hplaces : ∀ route name,
      later.find? (.place s.index route) name = table.find? (.place s.index route) name)
    (hid : table.declarationOf? s p = some id) : later.declarationOf? s p = some id := by
  induction p using Position.induction_on_children generalizing id with
  | step p ih =>
    unfold SymbolTable.declarationOf? at hid ⊢
    split at hid
    · exact h.lookup hplaces hid
    · exact h.lookup hplaces hid
    · split at hid
      · rename_i object property hobject hproperty
        split at hid
        · cases hid
        · rename_i container hcontainer
          split at hid
          · rename_i hkind
            have hobject' := ih object (Position.mem_children_of_child? hobject) hcontainer
            obtain ⟨d, hd, hcontainer⟩ := (Option.any_eq_true _ _).mp hkind
            simp only [hobject', h.declarations _ _ hd, hcontainer, Option.any_some, if_true]
            exact h.names _ _ _ hid
          · cases hid
      · cases hid
    · cases hid

end SymbolTable

namespace Source

theorem number_append (first more : List Source) :
    number (first ++ more) =
      number first ++ (more.zipIdx first.length).map fun (s, i) => { s with index := i } := by
  simp [number, List.zipIdx_append]

theorem index_lt_of_mem_number {sources : List Source} {s : Source} (h : s ∈ number sources) :
    s.index < sources.length := by
  obtain ⟨⟨original, i⟩, hmem, rfl⟩ := List.mem_map.mp h
  obtain ⟨_, hlt, _⟩ := List.mem_zipIdx hmem
  rwa [Nat.zero_add] at hlt

end Source

namespace Program

theorem exists_extension (first more : List Source) :
    ∃ later, (ofSources (first ++ more)).sources = (ofSources first).sources ++ later ∧
      (ofSources (first ++ more)).symbols =
        later.foldl SymbolTable.collect (ofSources first).symbols ∧
      ∀ s ∈ later, first.length ≤ s.index := by
  refine ⟨_, Source.number_append first more, ?_, ?_⟩
  · simp [ofSources, Source.number_append, SymbolTable.ofSources, List.foldl_append]
  · intro s hs
    obtain ⟨⟨original, i⟩, hmem, rfl⟩ := List.mem_map.mp hs
    exact (List.mem_zipIdx hmem).1

/-- A reference that means a declaration means the same one after more sources are added, and so is
bound to the same text, if any. -/
theorem extension_keeps_declaration {first more : List Source} {s : Source} {p : Position}
    {d : Declaration} (hs : s ∈ (ofSources first).sources)
    (hd : ((ofSources first).symbols.declarationOf? s p).bind
      (ofSources first).symbols.declaration? = some d) :
    s ∈ (ofSources (first ++ more)).sources ∧
      ((ofSources (first ++ more)).symbols.declarationOf? s p).bind
        (ofSources (first ++ more)).symbols.declaration? = some d ∧
      (ofSources (first ++ more)).symbols.resolve? s p =
        (ofSources first).symbols.resolve? s p := by
  obtain ⟨later, hsources, hsymbols, hlater⟩ := exists_extension first more
  have hother : ∀ t ∈ later, t.index ≠ s.index := by
    intro t ht
    have hindex := Source.index_lt_of_mem_number hs
    have := hlater t ht
    omega
  have hextends := SymbolTable.extends_foldl_collect (ofSources first).symbols later
  have hplaces := SymbolTable.find?_place_foldl_collect (ofSources first).symbols hother
  rw [← hsymbols] at hextends hplaces
  have hd' : ((ofSources (first ++ more)).symbols.declarationOf? s p).bind
      (ofSources (first ++ more)).symbols.declaration? = some d := by
    obtain ⟨id, hid, hrecord⟩ := Option.bind_eq_some_iff.mp hd
    rw [hextends.declarationOf? hplaces hid]
    exact hextends.declarations _ _ hrecord
  refine ⟨?_, hd', ?_⟩
  · rw [hsources]
    exact List.mem_append_left _ hs
  · unfold SymbolTable.resolve?
    rw [hd, hd']

/-- The script `enum E{'b'='z'}`. It continues the enumeration of `quotedEntry` and has an entry of
the same name. -/
def sameEntry : Source where
  index := 0
  path := []
  dialect := .typeScript
  text := ['e', 'n', 'u', 'm', ' ', 'E', '{', '\'', 'b', '\'', '=', '\'', 'z', '\'', '}']
  tree := .piece (.other "program") none 0 15 [
    .piece .enumDeclaration none 0 15 [.piece .identifier (some .name) 5 6 [],
      .piece (.other "enum_body") (some .body) 6 15 [.piece .enumAssignment none 7 14 [
        .piece .string (some .name) 7 10 [], .piece .string (some .value) 11 14 []]]]]

theorem extension_keeps_quotedEntry :
    ∃ p ∈ Position.all quotedEntry.tree, ∃ d : Declaration, d.initializer = .literal ['y'] ∧
      quotedEntry ∈ (ofSources [quotedEntry]).sources ∧
      ((ofSources [quotedEntry]).symbols.declarationOf? quotedEntry p).bind
        (ofSources [quotedEntry]).symbols.declaration? = some d ∧
      quotedEntry ∈ (ofSources ([quotedEntry] ++ [sameEntry])).sources ∧
      ((ofSources ([quotedEntry] ++ [sameEntry])).symbols.declarationOf? quotedEntry p).bind
        (ofSources ([quotedEntry] ++ [sameEntry])).symbols.declaration? = some d ∧
      (ofSources ([quotedEntry] ++ [sameEntry])).symbols.resolve? quotedEntry p =
        (ofSources [quotedEntry]).symbols.resolve? quotedEntry p := by
  have hsource : quotedEntry ∈ (ofSources [quotedEntry]).sources := List.mem_singleton.mpr rfl
  obtain ⟨p, hp, d, hliteral, hd⟩ : ∃ p, (Position.all quotedEntry.tree)[8]? = some p ∧
      ∃ d : Declaration, d.initializer = .literal ['y'] ∧
        ((ofSources [quotedEntry]).symbols.declarationOf? quotedEntry p).bind
          (ofSources [quotedEntry]).symbols.declaration? = some d := by
    refine ⟨_, rfl, ⟨['b'], .enumMember, .literal ['y'], 0, ⟨1, 1, 7, 10⟩⟩, ?_⟩
    decide +kernel
  exact ⟨p, List.mem_of_getElem? hp, d, hliteral, hsource, hd,
    extension_keeps_declaration hsource hd⟩

end Program

end LiteralFolding
