-- Which source decides a setting. The environment, a file and the defaults are combined key by
-- key: each of the five settings has the value of the first of them that gives it one. A group
-- of settings that a file gives as a list is the exception, because a single variable of that
-- group replaces the whole list.
import LiteralFolding.Proofs.Overlay
import LiteralFolding.Settings.Load

namespace LiteralFolding

open Datum (laid stated? steps overlayAt overlayAll overlayLayer Tidy Orderly)
open Members (get? put)

/-! ## The settings one by one -/

/-- The settings. -/
inductive Setting where
  | property
  | quote
  | transform
  | extensions
  | ignored
  deriving DecidableEq, Repr

theorem Settings.orDefault_eq_some_iff {α : Type} {read? : Datum → Option α} {d : α} {value : Datum}
    (h : read? value = some d) (a : α) :
    orDefault read? d (some value) = some a ↔ orDefault read? d none = some a := by
  rw [orDefault, orDefault, h]

namespace Setting

def all : List Setting := [.property, .quote, .transform, .extensions, .ignored]

theorem mem_all (f : Setting) : f ∈ all := by cases f <;> decide

/-- The group that a setting belongs to. -/
def group : Setting → Text
  | .property | .quote | .transform => "rewrite".toList
  | .extensions | .ignored => "files".toList

/-- The name of a setting in its group. -/
def name : Setting → Text
  | .property => "property_name".toList
  | .quote => "quote_style".toList
  | .transform => "transform".toList
  | .extensions => "extensions".toList
  | .ignored => "ignore_patterns".toList

/-- The place of a setting in its group. -/
def place : Setting → Nat
  | .property | .extensions => 0
  | .quote | .ignored => 1
  | .transform => 2

/-- The key of a setting. -/
def key (f : Setting) : Text := f.group ++ '.' :: f.name

theorem key_injective {f g : Setting} (h : f.key = g.key) : f = g := by
  cases f <;> cases g <;> revert h <;> decide

theorem eq_of_group_of_name {f g : Setting} (hgroup : f.group = g.group) (hname : f.name = g.name) :
    f = g := key_injective (by rw [key, key, hgroup, hname])

theorem steps_key (f : Setting) : steps f.key = [.member f.group, .member f.name] := by
  cases f <;> decide +kernel

theorem isSmall_name (f : Setting) : Text.IsSmall f.name := by
  cases f <;> decide +kernel

/-- The default of a setting, as a value. -/
def standard : Setting → Datum
  | .property => .text ({} : Settings).fold.property
  | .quote => .text ({} : Settings).fold.quote.word.toList
  | .transform => .text ({} : Settings).fold.transform.word.toList
  | .extensions => .list (({} : Settings).files.extensions.map Datum.text)
  | .ignored => .list (({} : Settings).files.ignored.map Datum.text)

/-- The settings have for this one what a value says; without a value they have the default. -/
def Holds (f : Setting) (value : Option Datum) (s : Settings) : Prop :=
  let d : Settings := {}
  match f with
  | .property => Settings.orDefault Datum.asText? d.fold.property value = some s.fold.property
  | .quote =>
    Settings.orDefault (Settings.convertChoice? Quote.ofWord?) d.fold.quote value = some s.fold.quote
  | .transform =>
    Settings.orDefault (Settings.convertChoice? TransformKind.ofWord?) d.fold.transform value =
      some s.fold.transform
  | .extensions =>
    Settings.orDefault Settings.convertTexts? d.files.extensions value = some s.files.extensions
  | .ignored => Settings.orDefault Settings.convertTexts? d.files.ignored value = some s.files.ignored

/-- Two settings agree on this one. -/
def Same (f : Setting) (s s' : Settings) : Prop :=
  match f with
  | .property => s.fold.property = s'.fold.property
  | .quote => s.fold.quote = s'.fold.quote
  | .transform => s.fold.transform = s'.fold.transform
  | .extensions => s.files.extensions = s'.files.extensions
  | .ignored => s.files.ignored = s'.files.ignored

theorem Holds.same {f : Setting} {value : Option Datum} {s s' : Settings} (h : f.Holds value s)
    (h' : f.Holds value s') : f.Same s s' := by
  cases f <;> exact Option.some.inj (h.symm.trans h')

theorem Holds.of_same {f : Setting} {value : Option Datum} {s s' : Settings} (h : f.Holds value s)
    (hsame : f.Same s s') : f.Holds value s' := by
  cases f <;> exact h.trans (congrArg some hsame)

/-- The defaults as values are read as the defaults. -/
theorem holds_standard (f : Setting) (value : Option Datum) (s : Settings) :
    f.Holds (some (value.getD f.standard)) s ↔ f.Holds value s := by
  cases value with
  | some value => rfl
  | none => cases f <;> exact Settings.orDefault_eq_some_iff (by decide +kernel) _

/-- Where the value of a group has the setting. -/
def field? (f : Setting) : Datum → Option Datum
  | .table members => get? f.name members
  | .list items => items[f.place]?
  | _ => none

end Setting

/-- Can a value be that of a group? -/
def Datum.isGroup : Datum → Bool
  | .table _ | .list _ => true
  | _ => false

namespace Settings

/-! ## Reading groups -/

theorem groupFields?_foldNames (value : Datum) :
    groupFields? foldNames value =
      if value.isGroup then some [Setting.property.field? value, Setting.quote.field? value,
        Setting.transform.field? value] else none := by
  cases value <;> rfl

theorem groupFields?_fileNames (value : Datum) :
    groupFields? fileNames value =
      if value.isGroup then some [Setting.extensions.field? value, Setting.ignored.field? value]
      else none := by
  cases value <;> rfl

theorem convertFold?_eq_some_iff (value : Datum) (s : Settings) :
    convertFold? value = some s.fold ↔ value.isGroup = true ∧
      Setting.property.Holds (Setting.property.field? value) s ∧
      Setting.quote.Holds (Setting.quote.field? value) s ∧
      Setting.transform.Holds (Setting.transform.field? value) s := by
  rw [convertFold?, groupFields?_foldNames]
  cases hgroup : value.isGroup with
  | false => simp
  | true =>
    simp only [if_true, Option.bind_eq_bind, Option.bind_some, Option.bind_eq_some_iff]
    constructor
    · rintro ⟨property, hproperty, quote, hquote, transform, htransform, heq⟩
      have hfold := Option.some.inj heq
      refine ⟨trivial, ?_, ?_, ?_⟩ <;> rw [Setting.Holds, ← hfold]
      · exact hproperty
      · exact hquote
      · exact htransform
    · rintro ⟨-, hproperty, hquote, htransform⟩
      exact ⟨_, hproperty, _, hquote, _, htransform, rfl⟩

theorem convertFiles?_eq_some_iff (value : Datum) (s : Settings) :
    convertFiles? value = some s.files ↔ value.isGroup = true ∧
      Setting.extensions.Holds (Setting.extensions.field? value) s ∧
      Setting.ignored.Holds (Setting.ignored.field? value) s := by
  rw [convertFiles?, groupFields?_fileNames]
  cases hgroup : value.isGroup with
  | false => simp
  | true =>
    simp only [if_true, Option.bind_eq_bind, Option.bind_some, Option.bind_eq_some_iff]
    constructor
    · rintro ⟨extensions, hextensions, ignored, hignored, heq⟩
      have hfiles := Option.some.inj heq
      refine ⟨trivial, ?_, ?_⟩ <;> rw [Setting.Holds, ← hfiles]
      · exact hextensions
      · exact hignored
    · rintro ⟨-, hextensions, hignored⟩
      exact ⟨_, hextensions, _, hignored, rfl⟩

theorem convert?_of_groups {members : List (Text × Datum)} {fold files : Datum}
    (hfold : get? "rewrite".toList members = some fold)
    (hfiles : get? "files".toList members = some files) (s : Settings) :
    convert? members = some s ↔
      convertFold? fold = some s.fold ∧ convertFiles? files = some s.files := by
  rw [convert?, hfold, hfiles]
  simp only [orDefault, Option.bind_eq_bind, Option.bind_eq_some_iff]
  constructor
  · rintro ⟨fold, hfold, files, hfiles, heq⟩
    rw [← Option.some.inj heq]
    exact ⟨hfold, hfiles⟩
  · rintro ⟨hfold, hfiles⟩
    exact ⟨_, hfold, _, hfiles, rfl⟩

/-- Where every group has a value, the settings are read setting by setting. -/
theorem convert?_eq_some_iff {members : List (Text × Datum)} {value : Setting → Datum}
    (h : ∀ f, get? f.group members = some (value f)) (s : Settings) :
    convert? members = some s ↔ ∀ f, (value f).isGroup = true ∧ f.Holds (f.field? (value f)) s := by
  have hgroup : ∀ f g : Setting, f.group = g.group → value f = value g := fun f g hfg =>
    Option.some.inj ((h f).symm.trans (hfg ▸ h g))
  have hquote := hgroup .quote .property rfl
  have htransform := hgroup .transform .property rfl
  have hignored := hgroup .ignored .extensions rfl
  rw [convert?_of_groups (h .property) (h .extensions), convertFold?_eq_some_iff,
    convertFiles?_eq_some_iff]
  constructor
  · rintro ⟨⟨hfold, hp, hq, ht⟩, hfiles, he, hi⟩ f
    cases f
    · exact ⟨hfold, hp⟩
    · rw [hquote]
      exact ⟨hfold, hq⟩
    · rw [htransform]
      exact ⟨hfold, ht⟩
    · exact ⟨hfiles, he⟩
    · rw [hignored]
      exact ⟨hfiles, hi⟩
  · intro hall
    exact ⟨⟨(hall .property).1, (hall .property).2, hquote ▸ (hall .quote).2,
      htransform ▸ (hall .transform).2⟩, (hall .extensions).1, (hall .extensions).2,
      hignored ▸ (hall .ignored).2⟩

end Settings

/-! ## Laying a tree over the defaults -/

theorem Datum.overlayAll_table (members under : List (Text × Datum)) :
    ∃ result, overlayAll members (.table under) = .table result := by
  induction members generalizing under with
  | nil => exact ⟨under, by rw [overlayAll]⟩
  | cons m members ih =>
    obtain ⟨result, hresult⟩ := ih (Datum.overlay m.1 under m.2)
    exact ⟨result, by rw [overlayAll, ← hresult]; rfl⟩

namespace Setting

/-- The defaults of the group of a setting. -/
def defaults (f : Setting) : List (Text × Datum) :=
  ((get? f.group Settings.defaultLayer).getD .nothing).members

theorem get?_defaultLayer (f : Setting) :
    get? f.group Settings.defaultLayer = some (.table f.defaults) := by
  cases f <;> rfl

theorem get?_defaults (f : Setting) : get? f.name f.defaults = some f.standard := by
  cases f <;> rfl

theorem members_standard (f : Setting) : f.standard.members = [] := by
  cases f <;> rfl

/-- What the value of a group gives for a setting. -/
def given? (f : Setting) : Datum → Option Datum
  | .table members => (get? f.name members).bind stated?
  | .list items => items[f.place]?
  | _ => none

theorem field?_overlayAll (f : Setting) {members : List (Text × Datum)} (h : Tidy (.table members)) :
    f.field? (overlayAll members (.table f.defaults)) =
      some (((get? f.name members).bind stated?).getD f.standard) := by
  obtain ⟨result, hresult⟩ := Datum.overlayAll_table members f.defaults
  have hget := Datum.get?_overlayAll h (.table f.defaults) f.name
  rw [hresult, Datum.members_table, Datum.members_table, f.get?_defaults] at hget
  rw [hresult, field?, hget]
  cases hvalue : get? f.name members with
  | none => rfl
  | some value =>
    exact congrArg some ((h.get? hvalue).laid_of_members_nil f.members_standard)

/-- A group that is laid over its defaults gives what it gave before. -/
theorem holds_laid (f : Setting) {value : Datum} (h : Tidy value) (s : Settings) :
    ((laid value (some (.table f.defaults))).isGroup = true ∧
        f.Holds (f.field? (laid value (some (.table f.defaults)))) s) ↔
      value.isGroup = true ∧ f.Holds (f.given? value) s := by
  cases value with
  | table members =>
    obtain ⟨result, hresult⟩ := Datum.overlayAll_table members f.defaults
    have hgroup : (overlayAll members (.table f.defaults)).isGroup = true := by rw [hresult]; rfl
    rw [laid, Option.getD_some, hgroup, f.field?_overlayAll h, f.holds_standard]
    rfl
  | _ => rfl

/-- What a tree gives for a setting. -/
def inTree? (f : Setting) (tree : Datum) : Option Datum := (get? f.group tree.members).bind f.given?

/-- A tree can be read for a setting: its group is not there, or it can be one. -/
def Fits (f : Setting) (tree : Datum) : Prop :=
  ∀ value, get? f.group tree.members = some value → value.isGroup = true

end Setting

namespace Settings

/-- What an orderly tree gives decides each setting, and the default where it gives nothing. -/
theorem convert?_overlayLayer_iff {tree : Datum} (h : Orderly tree) (s : Settings) :
    convert? (overlayLayer (.table defaultLayer) tree.members).members = some s ↔
      ∀ f : Setting, f.Fits tree ∧ f.Holds (f.inTree? tree) s := by
  have hget : ∀ f : Setting, get? f.group (overlayLayer (.table defaultLayer) tree.members).members =
      some ((get? f.group tree.members).elim (.table f.defaults)
        fun value => laid value (some (.table f.defaults))) := by
    intro f
    rw [Datum.overlayLayer_of_settled h.settled, Datum.get?_overlayAll h.tidy.members]
    rw [Datum.members_table, f.get?_defaultLayer]
    cases get? f.group tree.members <;> rfl
  rw [convert?_eq_some_iff hget]
  refine forall_congr' fun f => ?_
  cases hgroup : get? f.group tree.members with
  | none =>
    have hnone : f.Holds (f.field? (.table f.defaults)) s ↔ f.Holds none s := by
      rw [Setting.field?, f.get?_defaults]
      exact f.holds_standard none s
    simp [Setting.Fits, Setting.inTree?, hgroup, Datum.isGroup, hnone]
  | some value =>
    simp only [Option.elim_some, Setting.Fits, Setting.inTree?, hgroup, Option.bind_some,
      Option.some.injEq, forall_eq']
    exact f.holds_laid (h.tidy.members.get? hgroup) s

theorem ofLayers_eq_ok_iff (file : List (Text × Datum)) (environment : List (Text × Text))
    (s : Settings) :
    ofLayers file environment = .ok s ↔
      ∀ f : Setting, f.Fits (overlayLayer (.table []) (file ++ environmentLayer environment)) ∧
        f.Holds (f.inTree? (overlayLayer (.table []) (file ++ environmentLayer environment))) s := by
  rw [← convert?_overlayLayer_iff (Datum.orderly_nil.overlayLayer _), ofLayers]
  split
  · rename_i hnone
    simp [hnone]
  · rename_i s' hs'
    simp [hs']

end Settings

/-! ## A layer that assigns settings -/

/-- A layer that gives plain values to settings, to each at most once. -/
structure IsAssignment (layer : List (Text × Datum)) : Prop where
  once : (layer.map Prod.fst).Nodup
  key : ∀ m ∈ layer, ∃ f : Setting, m.1 = f.key
  plain : ∀ m ∈ layer, m.2.members? = none

theorem IsAssignment.tail {m : Text × Datum} {layer : List (Text × Datum)}
    (h : IsAssignment (m :: layer)) : IsAssignment layer where
  once := (List.nodup_cons.mp h.once).2
  key := fun m hm => h.key m (List.mem_cons_of_mem _ hm)
  plain := fun m hm => h.plain m (List.mem_cons_of_mem _ hm)

namespace Setting

/-- The named members of the group of a setting. -/
def inGroup (f : Setting) (tree : Datum) : List (Text × Datum) :=
  ((get? f.group tree.members).getD .nothing).members

theorem overlayAt_key (f : Setting) {value : Datum} (h : value.members? = none) (tree : Datum) :
    overlayAt value (steps f.key) tree =
      .table (put f.group (.table (put f.name value (f.inGroup tree))) tree.members) := by
  rw [f.steps_key, overlayAt, overlayAt, Datum.overlay_eq, Text.lower_of_isSmall f.isSmall_name,
    Datum.laid_of_plain h]
  · rfl
  · simp

/-- An assigned setting makes its group a table and leaves the other group alone. -/
theorem get?_group_overlayAt (f g : Setting) {value : Datum} (h : value.members? = none)
    (tree : Datum) :
    get? g.group (overlayAt value (steps f.key) tree).members =
      if g.group = f.group then some (.table (put f.name value (g.inGroup tree)))
      else get? g.group tree.members := by
  rw [f.overlayAt_key h, Datum.members_table, Members.get?_put]
  split
  · rename_i heq
    rw [inGroup, inGroup, heq]
  · rfl

theorem get?_inGroup_overlayAt (f g : Setting) {value : Datum} (h : value.members? = none)
    (tree : Datum) :
    get? g.name (g.inGroup (overlayAt value (steps f.key) tree)) =
      if g = f then some value else get? g.name (g.inGroup tree) := by
  rw [inGroup, f.get?_group_overlayAt g h]
  by_cases hgroup : g.group = f.group
  · rw [if_pos hgroup, Option.getD_some, Datum.members_table, Members.get?_put]
    by_cases hname : g.name = f.name
    · rw [if_pos hname, if_pos (eq_of_group_of_name hgroup hname)]
    · rw [if_neg hname, if_neg fun heq => hname (congrArg name heq)]
  · rw [if_neg hgroup, if_neg fun heq => hgroup (congrArg group heq), inGroup]

theorem overlayLayer_cons {m : Text × Datum} {f : Setting} (h : m.1 = f.key)
    (layer : List (Text × Datum)) (tree : Datum) :
    overlayLayer tree (m :: layer) = overlayLayer (overlayAt m.2 (steps f.key) tree) layer := by
  rw [← h]
  rfl

/-- By name, an assignment wins over what was there. -/
theorem get?_inGroup_overlayLayer {layer : List (Text × Datum)} (h : IsAssignment layer) (g : Setting)
    (tree : Datum) :
    get? g.name (g.inGroup (overlayLayer tree layer)) =
      (get? g.key layer).or (get? g.name (g.inGroup tree)) := by
  induction layer generalizing tree with
  | nil => rfl
  | cons m layer ih =>
    obtain ⟨f, hf⟩ := h.key m List.mem_cons_self
    have hfresh : get? m.1 layer = none := Members.get?_eq_none_iff.mpr (List.nodup_cons.mp h.once).1
    have hstep := f.get?_inGroup_overlayAt g (h.plain m List.mem_cons_self) tree
    rw [overlayLayer_cons hf, ih h.tail, hstep, Members.get?_cons]
    by_cases heq : g = f
    · subst heq
      rw [if_pos hf, if_pos rfl, ← hf, hfresh]
      rfl
    · rw [if_neg heq, if_neg fun hkey => heq (key_injective (hkey.symm.trans hf))]

/-- What an assignment does to a whole group: one that it has no setting of stays, any other one
becomes a table. -/
theorem get?_group_overlayLayer {layer : List (Text × Datum)} (h : IsAssignment layer) (g : Setting)
    (tree : Datum) :
    ((∀ f : Setting, f.group = g.group → get? f.key layer = none) ∧
        get? g.group (overlayLayer tree layer).members = get? g.group tree.members) ∨
      (∃ f : Setting, f.group = g.group ∧ get? f.key layer ≠ none) ∧
        ∃ members, get? g.group (overlayLayer tree layer).members = some (.table members) := by
  -- The tree is generalised: what the first assignment makes of the group is what the others find.
  induction layer generalizing tree with
  | nil => exact Or.inl ⟨fun _ _ => rfl, rfl⟩
  | cons m layer ih =>
    obtain ⟨f, hf⟩ := h.key m List.mem_cons_self
    have hstep := f.get?_group_overlayAt g (h.plain m List.mem_cons_self) tree
    rw [overlayLayer_cons hf]
    rcases ih h.tail (overlayAt m.2 (steps f.key) tree) with
      ⟨hnone, hkept⟩ | ⟨⟨f', hgroup, hset⟩, htable⟩
    · rw [hkept, hstep]
      by_cases hgroup : g.group = f.group
      · rw [if_pos hgroup]
        refine Or.inr ⟨⟨f, hgroup.symm, ?_⟩, _, rfl⟩
        rw [Members.get?_cons, if_pos hf]
        simp
      · rw [if_neg hgroup]
        refine Or.inl ⟨fun f' hf' => ?_, rfl⟩
        have hne : m.1 ≠ f'.key := fun hkey =>
          hgroup (key_injective (hkey.symm.trans hf) ▸ hf'.symm)
        rw [Members.get?_cons, if_neg hne, hnone f' hf']
    · refine Or.inr ⟨⟨f', hgroup, ?_⟩, htable⟩
      rw [Members.get?_cons]
      split
      · simp
      · exact hset

end Setting

/-! ## The environment over a file -/

namespace Settings

/-- An environment whose variables name settings, each of them at most once. Variables that do
not count are not looked at. -/
def OneEach (environment : List (Text × Text)) : Prop :=
  ((environmentLayer environment).map Prod.fst).Nodup ∧
    ∀ m ∈ environmentLayer environment, m.1 ∈ Setting.all.map Setting.key

instance (environment : List (Text × Text)) : Decidable (OneEach environment) :=
  inferInstanceAs (Decidable (_ ∧ _))

theorem variableValue_plain (key value : Text) : (variableValue key value).members? = none := by
  unfold variableValue
  dsimp only
  repeat' split
  all_goals rfl

theorem OneEach.isAssignment {environment : List (Text × Text)} (h : OneEach environment) :
    IsAssignment (environmentLayer environment) where
  once := h.1
  key := fun m hm => by
    obtain ⟨f, -, hf⟩ := List.mem_map.mp (h.2 m hm)
    exact ⟨f, hf.symm⟩
  plain := fun m hm => by
    obtain ⟨⟨name, value⟩, -, hm⟩ := List.mem_filterMap.mp hm
    obtain ⟨key, -, rfl⟩ := Option.map_eq_some_iff.mp hm
    exact variableValue_plain key value

end Settings

namespace Setting

/-- What the environment gives for a setting. -/
def inEnvironment? (f : Setting) (environment : List (Text × Text)) : Option Datum :=
  get? f.key (Settings.environmentLayer environment)

/-- Does the environment give a setting of the same group? -/
def groupIsSet (f : Setting) (environment : List (Text × Text)) : Bool :=
  all.any fun g => g.group = f.group && (g.inEnvironment? environment).isSome

/-- What a file gives for a setting. A list gives it by its place, but it does not count once the
environment has a setting of the group. -/
def inFile? (f : Setting) (file : List (Text × Datum)) (environment : List (Text × Text)) :
    Option Datum :=
  match get? f.group (overlayLayer (.table []) file).members with
  | some (.list items) => if f.groupIsSet environment then none else items[f.place]?
  | some value => f.given? value
  | none => none

theorem groupIsSet_iff (f : Setting) (environment : List (Text × Text)) :
    f.groupIsSet environment = true ↔
      ∃ g : Setting, g.group = f.group ∧ g.inEnvironment? environment ≠ none := by
  simp only [groupIsSet, List.any_eq_true, Bool.and_eq_true, decide_eq_true_eq,
    Option.isSome_iff_ne_none]
  exact ⟨fun ⟨g, _, hg⟩ => ⟨g, hg⟩, fun ⟨g, hg⟩ => ⟨g, mem_all g, hg⟩⟩

variable {environment : List (Text × Text)}

theorem groupIsSet_congr {f : Setting} {environment' : List (Text × Text)}
    (h : ∀ g : Setting, g.group = f.group →
      g.inEnvironment? environment = g.inEnvironment? environment') :
    f.groupIsSet environment = f.groupIsSet environment' := by
  rw [Bool.eq_iff_iff, groupIsSet_iff, groupIsSet_iff]
  refine exists_congr fun g => and_congr_right fun hgroup => ?_
  rw [h g hgroup]

theorem inEnvironment?_cons {name key : Text} (h : Settings.variableKey? name = some key) (f : Setting)
    (value : Text) :
    f.inEnvironment? ((name, value) :: environment) =
      if key = f.key then some (Settings.variableValue key value)
      else f.inEnvironment? environment := by
  have hlayer : Settings.environmentLayer ((name, value) :: environment) =
      (key, Settings.variableValue key value) :: Settings.environmentLayer environment := by
    simp [Settings.environmentLayer, h]
  rw [inEnvironment?, hlayer, Members.get?_cons]
  rfl

theorem overlayLayer_append (file : List (Text × Datum)) :
    overlayLayer (.table []) (file ++ Settings.environmentLayer environment) =
      overlayLayer (overlayLayer (.table []) file) (Settings.environmentLayer environment) :=
  List.foldl_append

theorem inFile?_of_unset {f : Setting} (h : f.groupIsSet environment = false)
    (file : List (Text × Datum)) :
    f.inFile? file environment = f.inTree? (overlayLayer (.table []) file) := by
  rw [inFile?, inTree?, h]
  cases get? f.group (overlayLayer (.table []) file).members with
  | none => rfl
  | some value => cases value <;> rfl

theorem inFile?_of_set {f : Setting} (h : f.groupIsSet environment = true)
    (file : List (Text × Datum)) :
    f.inFile? file environment =
      (get? f.name (f.inGroup (overlayLayer (.table []) file))).bind stated? := by
  rw [inFile?, inGroup, h]
  cases get? f.group (overlayLayer (.table []) file).members with
  | none => rfl
  | some value => cases value <;> rfl

/-- Does a file give the group of a setting as a list? -/
def isListed (f : Setting) (file : List (Text × Datum)) : Bool :=
  match get? f.group (overlayLayer (.table []) file).members with
  | some (.list _) => true
  | _ => false

/-- What a file gives does not depend on the environment, unless it is a list. -/
theorem inFile?_of_not_listed {f : Setting} {file : List (Text × Datum)} (h : f.isListed file = false)
    (environment : List (Text × Text)) :
    f.inFile? file environment = f.inTree? (overlayLayer (.table []) file) := by
  rw [isListed] at h
  rw [inFile?, inTree?]
  cases hgroup : get? f.group (overlayLayer (.table []) file).members with
  | none => rfl
  | some value =>
    cases value with
    | list items => simp [hgroup] at h
    | _ => rfl

/-- What the environment does to a group of a tree. -/
theorem environment_cases (h : Settings.OneEach environment) (f : Setting) (tree : Datum) :
    (f.groupIsSet environment = false ∧ f.inEnvironment? environment = none ∧
        get? f.group (overlayLayer tree (Settings.environmentLayer environment)).members =
          get? f.group tree.members) ∨
      f.groupIsSet environment = true ∧ ∃ members,
        get? f.group (overlayLayer tree (Settings.environmentLayer environment)).members =
          some (.table members) ∧
        get? f.name members = (f.inEnvironment? environment).or (get? f.name (f.inGroup tree)) := by
  rcases get?_group_overlayLayer h.isAssignment f tree with ⟨hnone, hkept⟩ | ⟨hset, members, htable⟩
  · refine Or.inl ⟨?_, hnone f rfl, hkept⟩
    rw [Bool.eq_false_iff, Ne, groupIsSet_iff]
    rintro ⟨g, hgroup, hg⟩
    exact hg (hnone g hgroup)
  · refine Or.inr ⟨(f.groupIsSet_iff environment).mpr hset, members, htable, ?_⟩
    have hname := get?_inGroup_overlayLayer h.isAssignment f tree
    rwa [inGroup, htable, Option.getD_some, Datum.members_table] at hname

/-- The environment wins over the file, setting by setting. -/
theorem inTree?_environment (h : Settings.OneEach environment) (f : Setting)
    (file : List (Text × Datum)) :
    f.inTree? (overlayLayer (.table []) (file ++ Settings.environmentLayer environment)) =
      (f.inEnvironment? environment).or (f.inFile? file environment) := by
  rw [overlayLayer_append, inTree?]
  rcases environment_cases h f (overlayLayer (.table []) file) with
    ⟨hunset, hnone, hkept⟩ | ⟨hset, members, htable, hname⟩
  · rw [hkept, hnone, inFile?_of_unset hunset]
    rfl
  · rw [htable, Option.bind_some, given?, hname, inFile?_of_set hset]
    cases hvalue : f.inEnvironment? environment with
    | none => rfl
    | some value =>
      -- A variable never gives an empty table, so its value always states something.
      have hplain := h.isAssignment.plain _ (Members.mem_of_get? hvalue)
      cases value with
      | table members => simp [Datum.members?] at hplain
      | _ => rfl

theorem fits_environment (h : Settings.OneEach environment) (f : Setting) (file : List (Text × Datum)) :
    f.Fits (overlayLayer (.table []) (file ++ Settings.environmentLayer environment)) ↔
      f.groupIsSet environment = true ∨ f.Fits (overlayLayer (.table []) file) := by
  rw [overlayLayer_append, Fits]
  rcases environment_cases h f (overlayLayer (.table []) file) with
    ⟨hunset, -, hkept⟩ | ⟨hset, members, htable, -⟩
  · simp [hkept, hunset, Fits]
  · simp [htable, hset, Datum.isGroup]

end Setting

namespace Settings

/-! ## Loading -/

/-- What the file of settings says; without a file at the usual place, nothing. -/
def fileLayer? (store : Store) (path : Option Text) : Option (List (Text × Datum)) :=
  if store.has (path.getD fileName) then document? store (path.getD fileName)
  else if path.isNone then some [] else none

theorem load_eq_ok_iff (store : Store) (path : Option Text) (environment : List (Text × Text))
    (s : Settings) :
    load store path environment = .ok s ↔
      ∃ file, fileLayer? store path = some file ∧ ofLayers file environment = .ok s := by
  unfold load fileLayer? ofFile
  cases path with
  | none =>
    simp only [Option.getD_none, Option.isNone_none, if_true]
    by_cases hhas : store.has fileName = true
    · simp only [hhas, if_true]
      cases document? store fileName <;> simp
    · simp [hhas]
  | some path =>
    simp only [Option.getD_some, Option.isNone_some, Bool.false_eq_true, if_false]
    by_cases hhas : store.has path = true
    · simp only [hhas, if_true]
      cases document? store path <;> simp
    · simp [hhas]

/-- Loading gives exactly the settings in which each one has the value of its first source. -/
theorem load_eq_ok_iff_holds {environment : List (Text × Text)} (h : OneEach environment)
    (store : Store) (path : Option Text) (s : Settings) :
    load store path environment = .ok s ↔ ∃ file, fileLayer? store path = some file ∧
      ∀ f : Setting, (f.groupIsSet environment = true ∨ f.Fits (overlayLayer (.table []) file)) ∧
        f.Holds ((f.inEnvironment? environment).or (f.inFile? file environment)) s := by
  simp only [load_eq_ok_iff, ofLayers_eq_ok_iff, Setting.inTree?_environment h,
    Setting.fits_environment h]

theorem holds_of_load {environment : List (Text × Text)} (h : OneEach environment) {store : Store}
    {path : Option Text} {s : Settings} (hload : load store path environment = .ok s)
    {file : List (Text × Datum)} (hfile : fileLayer? store path = some file) (f : Setting) :
    f.Holds ((f.inEnvironment? environment).or (f.inFile? file environment)) s := by
  obtain ⟨file', hfile', hholds⟩ := (load_eq_ok_iff_holds h store path s).mp hload
  obtain rfl := Option.some.inj (hfile'.symm.trans hfile)
  exact (hholds f).2

/-- The environment, the file and the defaults are merged key by key. Loading succeeds exactly if
the file can be read and each of its groups is a table or a list, or is replaced by the
environment. Then each setting has the value of the environment, else that of the file, else the
default, where a group that the file gives as a list counts by place and only if the environment
has no setting of the group. So a change of the sources of one setting leaves the others as they
are, unless a list stands in its way. -/
theorem sources_merge_key_by_key {environment : List (Text × Text)} (honce : OneEach environment)
    (store : Store) (path : Option Text) (s : Settings) :
    (load store path environment = .ok s ↔ ∃ file, fileLayer? store path = some file ∧
      ∀ f : Setting, (f.groupIsSet environment = true ∨ f.Fits (overlayLayer (.table []) file)) ∧
        f.Holds ((f.inEnvironment? environment).or (f.inFile? file environment)) s) ∧
    ∀ (store' : Store) (path' : Option Text) (environment' : List (Text × Text)) (s' : Settings)
      (file file' : List (Text × Datum)) (g : Setting), OneEach environment' →
      load store path environment = .ok s → load store' path' environment' = .ok s' →
      fileLayer? store path = some file → fileLayer? store' path' = some file' →
      (∀ f, f ≠ g → f.inEnvironment? environment = f.inEnvironment? environment' ∧
        f.inTree? (overlayLayer (.table []) file) = f.inTree? (overlayLayer (.table []) file')) →
      ∀ f, f ≠ g →
        (file = file' ∧ f.group ≠ g.group ∨ f.isListed file = false ∧ f.isListed file' = false) →
        f.Same s s' := by
  refine ⟨load_eq_ok_iff_holds honce store path s, ?_⟩
  intro store' path' environment' s' file file' g honce' hload hload' hfile hfile' hothers f hne hlist
  have hholds := holds_of_load honce hload hfile f
  have hfrom : f.inFile? file environment = f.inFile? file' environment' := by
    -- In the other group no variable has changed, so a list there counts as it did.
    rcases hlist with ⟨rfl, hgroup⟩ | ⟨hlist, hlist'⟩
    · have hset : f.groupIsSet environment = f.groupIsSet environment' :=
        Setting.groupIsSet_congr fun f' hf' => (hothers f' fun heq => hgroup (heq ▸ hf'.symm)).1
      rw [Setting.inFile?, Setting.inFile?, hset]
    · rw [Setting.inFile?_of_not_listed hlist, Setting.inFile?_of_not_listed hlist', (hothers f hne).2]
  rw [(hothers f hne).1, hfrom] at hholds
  exact hholds.same (holds_of_load honce' hload' hfile' f)

theorem eq_ok_of_toOption {result : Except SettingsError Settings} {s : Settings}
    (h : result.toOption = some s) : result = .ok s := by
  cases result with
  | error e => simp [Except.toOption] at h
  | ok s' => exact congrArg Except.ok (Option.some.inj h)

/-- A store with a file that has some of the settings. -/
def mixedStore : Store :=
  { entries := [([fileName], .file (.text
      "[rewrite]\nproperty_name = \"html\"\n[files]\nextensions = [\"vue\"]\n".toList))] }

/-- An environment with a setting that the file has too. -/
def textVariable : List (Text × Text) := [("TPLFOLD__REWRITE__PROPERTY_NAME".toList, "text".toList)]

/-- Settings with some property and the extensions of that file. -/
def vueSettings (property : String) : Settings :=
  { fold := { property := property.toList }, files := { extensions := ["vue".toList] } }

theorem load_mixedStore : load mixedStore none [] = .ok (vueSettings "html") :=
  eq_ok_of_toOption (by decide +kernel)

theorem sources_merge_in_mixedStore :
    OneEach textVariable ∧ OneEach [] ∧
    load mixedStore none textVariable = .ok (vueSettings "text") ∧
    load mixedStore none [] = .ok (vueSettings "html") ∧
    (∃ file, fileLayer? mixedStore none = some file ∧ ∀ f : Setting,
      (f.groupIsSet textVariable = true ∨ f.Fits (overlayLayer (.table []) file)) ∧
        f.Holds ((f.inEnvironment? textVariable).or (f.inFile? file textVariable))
          (vueSettings "text")) ∧
    ∀ f, f ≠ Setting.property → f.Same (vueSettings "text") (vueSettings "html") := by
  have honce : OneEach textVariable := by decide +kernel
  have hload : load mixedStore none textVariable = .ok (vueSettings "text") :=
    eq_ok_of_toOption (by decide +kernel)
  obtain ⟨hsources, hchange⟩ := sources_merge_key_by_key honce mixedStore none (vueSettings "text")
  obtain ⟨file, hfile, hholds⟩ := hsources.mp hload
  have hkey : variableKey? "TPLFOLD__REWRITE__PROPERTY_NAME".toList = some Setting.property.key := by
    decide +kernel
  have hlists : ((fileLayer? mixedStore none).all fun file =>
      Setting.all.all fun f => !f.isListed file) = true := by
    decide +kernel
  rw [hfile, Option.all_some, List.all_eq_true] at hlists
  refine ⟨honce, by decide, hload, load_mixedStore, ⟨file, hfile, hholds⟩, fun f hne => ?_⟩
  have hlist : f.isListed file = false := by simpa using hlists f f.mem_all
  refine hchange mixedStore none [] (vueSettings "html") file file .property (by decide) hload
    load_mixedStore hfile hfile (fun f hne => ⟨?_, rfl⟩) f hne (Or.inr ⟨hlist, hlist⟩)
  rw [textVariable, Setting.inEnvironment?_cons hkey,
    if_neg fun heq => hne (Setting.key_injective heq).symm]

/-- A store whose file gives a group as a list. -/
def listStore : Store :=
  { entries := [([fileName], .file (.text "rewrite = [\"html\", \"single\"]\n".toList))] }

/-- A variable for one setting takes away what a list says about the other settings of its
group. -/
theorem variable_replaces_list :
    OneEach [("TPLFOLD__REWRITE__TRANSFORM".toList, "identity".toList)] ∧
    load listStore none [] = .ok { fold := { property := "html".toList, quote := .single } } ∧
    load listStore none [("TPLFOLD__REWRITE__TRANSFORM".toList, "identity".toList)] =
      .ok { fold := { property := "template".toList, quote := .double, transform := .identity } } :=
  ⟨by decide +kernel, eq_ok_of_toOption (by decide +kernel), eq_ok_of_toOption (by decide +kernel)⟩

end Settings

end LiteralFolding
