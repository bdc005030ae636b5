-- Layers of data: what a tree holds after values were laid over it. A tree that layers have built
-- up is tidy, so laying it over another tree works name by name, and a path leads into it by its
-- first name.
import LiteralFolding.Datum.Path
import LiteralFolding.Proofs.SmallLetters
import Mathlib.Data.List.TakeWhile

namespace LiteralFolding

/-! ## Members by name -/

namespace Members

variable {α : Type} {name other : Text} {value : α} {members : List (Text × α)}

theorem get?_eq_none_iff : get? name members = none ↔ name ∉ members.map Prod.fst := by
  simp only [get?, Option.map_eq_none_iff, List.find?_eq_none, decide_eq_true_eq, List.mem_map,
    not_exists, not_and]

theorem get?_cons (m : Text × α) :
    get? name (m :: members) = if m.1 = name then some m.2 else get? name members := by
  by_cases h : m.1 = name <;> simp [get?, h]

theorem mem_of_get? (h : get? name members = some value) : (name, value) ∈ members := by
  obtain ⟨m, hm, rfl⟩ := Option.map_eq_some_iff.mp h
  have hname : m.1 = name := by simpa using List.find?_some hm
  exact hname ▸ List.mem_of_find?_eq_some hm

theorem mem_put {m : Text × α} (h : m ∈ put name value members) : m = (name, value) ∨ m ∈ members := by
  induction members with
  | nil => exact Or.inl (List.mem_singleton.mp h)
  | cons first members ih =>
    rw [put] at h
    split at h
    · rcases List.mem_cons.mp h with h | h
      · exact Or.inl h
      · exact Or.inr (List.mem_cons_of_mem _ h)
    · rcases List.mem_cons.mp h with rfl | h
      · exact Or.inr List.mem_cons_self
      · exact (ih h).imp_right (List.mem_cons_of_mem _)

theorem put_of_not_mem (h : name ∉ members.map Prod.fst) :
    put name value members = members ++ [(name, value)] := by
  induction members with
  | nil => rfl
  | cons first members ih =>
    simp only [List.map_cons, List.mem_cons, not_or] at h
    rw [put, if_neg (Ne.symm h.1), ih h.2, List.cons_append]

theorem nodup_put (h : (members.map Prod.fst).Nodup) :
    ((put name value members).map Prod.fst).Nodup := by
  induction members with
  | nil => simp [put]
  | cons first members ih =>
    obtain ⟨hfirst, hrest⟩ := List.nodup_cons.mp h
    rw [put]
    split
    · rename_i heq
      exact List.nodup_cons.mpr ⟨heq ▸ hfirst, hrest⟩
    · rename_i hne
      refine List.nodup_cons.mpr ⟨fun hmem => ?_, ih hrest⟩
      obtain ⟨m, hm, hname⟩ := List.mem_map.mp hmem
      rcases mem_put hm with rfl | hm
      · exact hne hname.symm
      · exact hfirst (List.mem_map.mpr ⟨m, hm, hname⟩)

end Members

namespace Datum

open Members (get? put)

/-! ## Tidy data -/

theorem members_table (members : List (Text × Datum)) : (Datum.table members).members = members := rfl

/-- Data whose tables, one in the other, have small names, each of them once. What a list holds
does not count, because it is replaced as a whole. -/
inductive Tidy : Datum → Prop
  | plain {value : Datum} : value.members? = none → Tidy value
  | table {members : List (Text × Datum)} : (members.map Prod.fst).Nodup →
      (∀ m ∈ members, Text.IsSmall m.1) → (∀ m ∈ members, Tidy m.2) → Tidy (.table members)

/-- What stands under a name after a value was laid over what stood there. -/
def laid : Datum → Option Datum → Datum
  | .table members, under => overlayAll members (under.getD (.table []))
  | value, _ => value

theorem laid_of_plain {value : Datum} (h : value.members? = none) (under : Option Datum) :
    laid value under = value := by
  cases value with
  | table members => simp [members?] at h
  | _ => rfl

theorem overlay_eq (name : Text) (under : List (Text × Datum)) (value : Datum) :
    overlay name under value =
      put (Text.lower name) (laid value (get? (Text.lower name) under)) under := by
  cases value <;> simp [overlay, laid]

theorem tidy_nil : Tidy (.table []) := .table List.nodup_nil (by simp) (by simp)

theorem Tidy.of_table {members : List (Text × Datum)} (h : Tidy (.table members)) :
    (members.map Prod.fst).Nodup ∧ (∀ m ∈ members, Text.IsSmall m.1) ∧ ∀ m ∈ members, Tidy m.2 := by
  cases h with
  | plain h => simp [members?] at h
  | table hnodup hsmall htidy => exact ⟨hnodup, hsmall, htidy⟩

theorem Tidy.members {value : Datum} (h : Tidy value) : Tidy (.table value.members) := by
  cases value with
  | table members => exact h
  | _ => exact tidy_nil

theorem Tidy.get? {members : List (Text × Datum)} (h : Tidy (.table members)) {name : Text}
    {value : Datum} (hvalue : get? name members = some value) : Tidy value :=
  h.of_table.2.2 _ (Members.mem_of_get? hvalue)

theorem Tidy.put {members : List (Text × Datum)} (h : Tidy (.table members)) {name : Text}
    (hname : Text.IsSmall name) {value : Datum} (hvalue : Tidy value) :
    Tidy (.table (put name value members)) := by
  obtain ⟨hnodup, hsmall, htidy⟩ := h.of_table
  refine .table (Members.nodup_put hnodup) (fun m hm => ?_) (fun m hm => ?_)
  · rcases Members.mem_put hm with rfl | hm
    · exact hname
    · exact hsmall m hm
  · rcases Members.mem_put hm with rfl | hm
    · exact hvalue
    · exact htidy m hm

mutual

theorem tidy_laid {under : Option Datum} (h : ∀ u ∈ under, Tidy u) (value : Datum) :
    Tidy (laid value under) := by
  cases value with
  | table members =>
    refine tidy_overlayAll ?_ members
    cases under with
    | none => exact tidy_nil
    | some u => exact h u rfl
  | _ => exact .plain rfl

theorem tidy_overlayAll {under : Datum} (h : Tidy under) (members : List (Text × Datum)) :
    Tidy (overlayAll members under) := by
  cases members with
  | nil => simpa [overlayAll] using h
  | cons m members =>
    obtain ⟨name, value⟩ := m
    simp only [overlayAll, overlay_eq]
    exact tidy_overlayAll
      (h.members.put (Text.isSmall_lower name) (tidy_laid (fun _ hu => h.members.get? hu) value))
      members

end

/-! ## Laying tidy data over other data -/

/-- Laying a table over another one works name by name. -/
theorem get?_overlayAll {members : List (Text × Datum)} (h : Tidy (.table members)) (under : Datum)
    (name : Text) :
    get? name (overlayAll members under).members =
      (get? name members).elim (get? name under.members)
        fun value => some (laid value (get? name under.members)) := by
  induction members generalizing under with
  | nil => simp [overlayAll, Members.get?]
  | cons m members ih =>
    obtain ⟨hnodup, hsmall, htidy⟩ := h.of_table
    obtain ⟨hfresh, hnodup⟩ := List.nodup_cons.mp hnodup
    have hrest : Tidy (.table members) :=
      .table hnodup (fun m hm => hsmall m (List.mem_cons_of_mem _ hm))
        (fun m hm => htidy m (List.mem_cons_of_mem _ hm))
    have hput := Members.get?_put m.1 name (laid m.2 (get? m.1 under.members)) under.members
    rw [overlayAll, overlay_eq, Text.lower_of_isSmall (hsmall m List.mem_cons_self), ih hrest,
      Members.get?_cons]
    rw [members_table, hput]
    by_cases heq : m.1 = name
    · subst heq
      simp [Members.get?_eq_none_iff.mpr hfresh]
    · simp [heq, Ne.symm heq]

/-- Values that fill an empty place as they are, laid over a table without their names, come
after what is there. -/
theorem overlayAll_append {front members : List (Text × Datum)}
    (hnodup : ((front ++ members).map Prod.fst).Nodup) (hsmall : ∀ m ∈ members, Text.IsSmall m.1)
    (hself : ∀ m ∈ members, laid m.2 none = m.2) :
    overlayAll members (.table front) = .table (front ++ members) := by
  induction members generalizing front with
  | nil => simp [overlayAll]
  | cons m members ih =>
    have hfresh : m.1 ∉ front.map Prod.fst := by
      intro hmem
      rw [List.map_append, List.nodup_append] at hnodup
      exact hnodup.2.2 _ hmem _ (by simp) rfl
    have hstep : overlay m.1 front m.2 = front ++ [m] := by
      rw [overlay_eq, Text.lower_of_isSmall (hsmall m List.mem_cons_self),
        Members.get?_eq_none_iff.mpr hfresh, hself m List.mem_cons_self,
        Members.put_of_not_mem hfresh]
    rw [overlayAll, members_table, hstep,
      ih (by simpa using hnodup) (fun m hm => hsmall m (List.mem_cons_of_mem _ hm))
        (fun m hm => hself m (List.mem_cons_of_mem _ hm)), List.append_assoc]
    rfl

/-- A tidy value that is laid over nothing stays what it is. -/
theorem Tidy.laid_none {value : Datum} (h : Tidy value) : laid value none = value := by
  induction h with
  | plain hplain => exact laid_of_plain hplain none
  | table hnodup hsmall _ ih => exact overlayAll_append hnodup hsmall ih

/-- What a value states. An empty table states nothing. -/
def stated? : Datum → Option Datum
  | .table [] => none
  | value => some value

/-- A tidy value that is laid over one without members takes its place, unless it states
nothing. -/
theorem Tidy.laid_of_members_nil {value under : Datum} (h : Tidy value) (hunder : under.members = []) :
    laid value (some under) = (stated? value).getD under := by
  cases value with
  | table members =>
    cases members with
    | nil => simp [laid, overlayAll, stated?]
    | cons m members =>
      have hlaid : overlayAll (m :: members) (.table []) = .table (m :: members) := h.laid_none
      rw [overlayAll, members_table] at hlaid
      simpa [laid, overlayAll, stated?, hunder] using hlaid
  | _ => rfl

/-! ## Paths of keys -/

theorem name?_subset {t name rest : Text} (h : name? t = some (name, rest)) : name ⊆ t ∧ rest ⊆ t := by
  unfold name? at h
  dsimp only at h
  split at h
  · simp at h
  · obtain ⟨rfl, rfl⟩ := Prod.mk.inj (Option.some.inj h)
    exact ⟨List.takeWhile_subset _, List.dropWhile_subset _⟩

theorem name?_self {t name rest : Text} (h : name? t = some (name, rest)) :
    name? name = some (name, []) := by
  unfold name? at h
  dsimp only at h
  split at h
  · simp at h
  · rename_i hne
    obtain ⟨rfl, rfl⟩ := Prod.mk.inj (Option.some.inj h)
    have hall : ∀ c ∈ t.takeWhile isNameChar, isNameChar c = true := fun c => List.mem_takeWhile_imp
    rw [name?, List.takeWhile_eq_self_iff.mpr hall, List.dropWhile_eq_nil_iff.mpr hall]
    simp [hne]

theorem strip?_bracket_subset {t rest : Text}
    (h : Text.strip? [']'] ((Text.spanDigits 10 t).2.dropWhile isPad) = some rest) : rest ⊆ t := by
  intro c hc
  have hmem : c ∈ (Text.spanDigits 10 t).2.dropWhile isPad := by
    rw [Text.strip?_eq_some_iff.mp h]
    exact List.mem_append_right _ hc
  exact List.dropWhile_subset _ (List.dropWhile_subset _ hmem)

theorem place?_subset {t rest : Text} {index : Int} (h : place? t = some (index, rest)) : rest ⊆ t := by
  unfold place? at h
  simp only [Option.bind_eq_bind, Option.bind_eq_some_iff] at h
  obtain ⟨n, -, more, hstrip, hmore⟩ := h
  simp only [Option.ite_none_right_eq_some, Option.some.injEq, Prod.mk.injEq] at hmore
  obtain ⟨-, -, rfl⟩ := hmore
  refine List.Subset.trans (strip?_bracket_subset hstrip) ?_
  split
  · rename_i u hsign
    exact fun c hc => List.dropWhile_subset _ (hsign ▸ List.mem_cons_of_mem _ hc)
  · exact List.dropWhile_subset _

/-- The names of a path are spelled in the letters of its key. -/
theorem moreSteps?_small {t : Text} {path : List Step} (ht : Text.IsSmall t)
    (h : moreSteps? t = some path) {name : Text} (hname : .member name ∈ path) : Text.IsSmall name := by
  fun_induction moreSteps? t generalizing path with
  | case1 =>
    obtain rfl := Option.some.inj h
    simp at hname
  | case2 more go =>
    rename_i ih
    obtain ⟨⟨first, rest⟩, hfirst, hgo⟩ := Option.bind_eq_some_iff.mp h
    have hmore : Text.IsSmall more := ht.of_subset (List.subset_cons_self _ _)
    simp only [go, Option.dite_none_right_eq_some, Option.map_eq_some_iff] at hgo
    obtain ⟨hlt, path, hpath, rfl⟩ := hgo
    rcases List.mem_cons.mp hname with heq | hname
    · obtain rfl := Step.member.inj heq
      exact hmore.of_subset (name?_subset hfirst).1
    · exact ih rest hlt (hmore.of_subset (name?_subset hfirst).2) hpath hname
  | case3 more go =>
    rename_i ih
    obtain ⟨⟨index, rest⟩, hindex, hgo⟩ := Option.bind_eq_some_iff.mp h
    simp only [go, Option.dite_none_right_eq_some, Option.map_eq_some_iff] at hgo
    obtain ⟨hlt, path, hpath, rfl⟩ := hgo
    have hname : Step.member name ∈ path := by simpa using hname
    have hsub : rest ⊆ '[' :: more :=
      fun c hc => List.mem_cons_of_mem _ (place?_subset hindex hc)
    exact ih rest hlt (ht.of_subset hsub) hpath hname
  | case4 => simp at h

/-- A name that is its own path. -/
def Settled (name : Text) : Prop := Text.IsSmall name ∧ steps name = [.member name]

/-- A key leads into a tree by a name that is its own path, whether the key spells a path or is
taken as one name. -/
theorem steps_eq_cons (key : Text) :
    ∃ name path, steps key = .member name :: path ∧ Settled name ∧
      ∀ n, .member n ∈ path → Text.IsSmall n := by
  have hkey := Text.isSmall_lower key
  unfold steps
  dsimp only
  cases hname : name? (Text.lower key) with
  -- A key that spells no path is one name. In small letters it is the same key, so it spells none
  -- when it is read again.
  | none =>
    refine ⟨Text.lower key, [], by simp, ⟨hkey, ?_⟩, by simp⟩
    simp [steps, Text.lower_of_isSmall hkey, hname]
  | some split =>
    obtain ⟨name, rest⟩ := split
    cases hmore : moreSteps? rest with
    | none =>
      refine ⟨Text.lower key, [], by simp [hmore], ⟨hkey, ?_⟩, by simp⟩
      simp [steps, Text.lower_of_isSmall hkey, hname, hmore]
    | some path =>
      obtain ⟨hsub, hrest⟩ := name?_subset hname
      have hsmall : Text.IsSmall name := hkey.of_subset hsub
      refine ⟨name, path, by simp [hmore], ⟨hsmall, ?_⟩, fun n hn =>
        moreSteps?_small (hkey.of_subset hrest) hmore hn⟩
      simp [steps, Text.lower_of_isSmall hsmall, name?_self hname, moreSteps?]

/-! ## Trees that layers build up -/

/-- A tidy tree into which every key leads by its own name. -/
structure Orderly (tree : Datum) : Prop where
  tidy : Tidy tree
  settled : ∀ m ∈ tree.members, Settled m.1

theorem tidy_overlayAt (value : Datum) {path : List Step} (hpath : path ≠ [])
    (hsmall : ∀ n, .member n ∈ path → Text.IsSmall n) {under : Datum} (h : Tidy under) :
    Tidy (overlayAt value path under) := by
  fun_induction overlayAt value path under with
  | case1 => exact absurd rfl hpath
  | case2 name under =>
    rw [overlay_eq]
    exact h.members.put (Text.isSmall_lower name) (tidy_laid (fun _ hu => h.members.get? hu) value)
  | case3 name path under hne _ ih =>
    refine h.members.put (hsmall name List.mem_cons_self) (ih hne
      (fun n hn => hsmall n (List.mem_cons_of_mem _ hn)) ?_)
    cases hget : get? name under.members with
    | none => exact .plain rfl
    | some u => exact h.members.get? hget
  | case4 => exact .plain rfl

/-- A path changes the tree at its first name only. -/
theorem overlayAt_member (value : Datum) {name : Text} (hname : Text.IsSmall name) (path : List Step)
    (under : Datum) :
    ∃ below, overlayAt value (.member name :: path) under = .table (put name below under.members) := by
  cases path with
  | nil => exact ⟨_, by rw [overlayAt, overlay_eq, Text.lower_of_isSmall hname]⟩
  | cons step path => exact ⟨_, rfl⟩

theorem orderly_nil : Orderly (.table []) := ⟨tidy_nil, by simp [members_table]⟩

/-- What one key and its value do to an orderly tree. -/
theorem Orderly.overlayAt {under : Datum} (h : Orderly under) (key : Text) (value : Datum) :
    Orderly (overlayAt value (steps key) under) := by
  obtain ⟨name, path, hsteps, hname, hpath⟩ := steps_eq_cons key
  have hsmall : ∀ n, .member n ∈ steps key → Text.IsSmall n := by
    intro n hn
    rw [hsteps] at hn
    rcases List.mem_cons.mp hn with heq | hn
    · exact Step.member.inj heq ▸ hname.1
    · exact hpath n hn
  refine ⟨tidy_overlayAt value (by simp [hsteps]) hsmall h.tidy, fun m hm => ?_⟩
  obtain ⟨below, hbelow⟩ := overlayAt_member value hname.1 path under
  rw [hsteps, hbelow] at hm
  rcases Members.mem_put hm with rfl | hm
  · exact hname
  · exact h.settled m hm

/-- What a whole layer does. -/
theorem Orderly.overlayLayer {under : Datum} (h : Orderly under) (layer : List (Text × Datum)) :
    Orderly (overlayLayer under layer) := by
  induction layer generalizing under with
  | nil => exact h
  | cons m layer ih => exact ih (h.overlayAt m.1 m.2)

/-- Names that are their own paths are laid over a tree as its members. -/
theorem overlayLayer_of_settled {layer : List (Text × Datum)} (h : ∀ m ∈ layer, Settled m.1)
    (under : Datum) : overlayLayer under layer = overlayAll layer under := by
  induction layer generalizing under with
  | nil => simp [overlayLayer, overlayAll]
  | cons m layer ih =>
    have hstep : Datum.overlayAt m.2 (steps m.1) under = .table (overlay m.1 under.members m.2) := by
      rw [(h m List.mem_cons_self).2, Datum.overlayAt]
    have hrest := ih (fun m hm => h m (List.mem_cons_of_mem _ hm))
      (.table (overlay m.1 under.members m.2))
    rw [overlayAll, ← hrest, ← hstep]
    rfl

end Datum

end LiteralFolding
