-- Variables that set a setting. The two parts of a key and the start that all variables share
-- are joined by two underscores each. A variable of such a name sets its setting and no other
-- one; with a single underscore after the start it sets nothing.
import LiteralFolding.Proofs.Precedence

namespace LiteralFolding

/-! ## Names of variables -/

namespace Setting

/-- The variable of a setting, after a start that all variables share. -/
def variableAfter (start : String) (f : Setting) : Text :=
  start.toList ++ (f.group ++ "__".toList ++ f.name).map Char.toUpper

example : quote.variableAfter "TPLFOLD_" = "TPLFOLD_REWRITE__QUOTE_STYLE".toList := by decide

theorem variableKey?_one_underscore (f : Setting) :
    Settings.variableKey? (f.variableAfter "TPLFOLD_") = none := by
  cases f <;> decide +kernel

theorem variableKey?_two_underscores (f : Setting) :
    Settings.variableKey? (f.variableAfter "TPLFOLD__") = some f.key := by
  cases f <;> decide +kernel

end Setting

namespace Settings

/-- A variable that names no key changes nothing, wherever it stands. -/
theorem load_of_variableKey?_eq_none {name : Text} (h : variableKey? name = none) (value : Text)
    (store : Store) (path : Option Text) (before after : List (Text × Text)) :
    load store path (before ++ (name, value) :: after) = load store path (before ++ after) := by
  have hlayer : environmentLayer (before ++ (name, value) :: after) =
      environmentLayer (before ++ after) := by
    simp [environmentLayer, h]
  have hlayers : ∀ file, ofLayers file (before ++ (name, value) :: after) =
      ofLayers file (before ++ after) := by
    intro file
    rw [ofLayers, ofLayers, hlayer]
  simp only [load, ofFile, hlayers]

/-! ## Values of variables -/

/-- Is the value of a variable neither a truth value nor a number? -/
def isPlain (value : Text) : Bool :=
  Text.lower value ≠ "true".toList && Text.lower value ≠ "false".toList &&
    (Datum.readWord? 10 value).isNone && (Number.read? value).isNone

theorem variableValue_of_isPlain {value : Text} (h : isPlain value = true) (key : Text) :
    variableValue key value =
      if listKeys.contains key then .list ((Text.splitAt ',' value).map Datum.text)
      else .text value := by
  simp only [isPlain, Bool.and_eq_true, decide_eq_true_eq, Option.isNone_iff_eq_none] at h
  obtain ⟨⟨⟨htrue, hfalse⟩, hword⟩, hnumber⟩ := h
  rw [variableValue]
  simp only [if_neg htrue, if_neg hfalse, hword, hnumber]

theorem convertTexts?_text (texts : List Text) :
    convertTexts? (.list (texts.map Datum.text)) = some texts := by
  rw [convertTexts?]
  induction texts with
  | nil => rfl
  | cons t texts ih => simp [Datum.asText?, ih]

end Settings

namespace Setting

/-- The settings with the value of a variable for one of them: a text, a word in any case, or
texts between commas. -/
def assigned? (f : Setting) (value : Text) (s : Settings) : Option Settings :=
  match f with
  | .property => some { s with fold := { s.fold with property := value } }
  | .quote =>
    (Quote.ofWord? (Text.lower value)).map fun quote => { s with fold := { s.fold with quote } }
  | .transform =>
    (TransformKind.ofWord? (Text.lower value)).map fun transform =>
      { s with fold := { s.fold with transform } }
  | .extensions => some { s with files := { s.files with extensions := Text.splitAt ',' value } }
  | .ignored => some { s with files := { s.files with ignored := Text.splitAt ',' value } }

variable {f : Setting} {value : Text} {s s' : Settings}

theorem holds_of_assigned? (hplain : Settings.isPlain value = true)
    (h : f.assigned? value s = some s') :
    f.Holds (some (Settings.variableValue f.key value)) s' := by
  rw [Settings.variableValue_of_isPlain hplain]
  cases f
  · obtain rfl := Option.some.inj h
    rfl
  · obtain ⟨quote, hquote, rfl⟩ := Option.map_eq_some_iff.mp h
    exact hquote
  · obtain ⟨transform, htransform, rfl⟩ := Option.map_eq_some_iff.mp h
    exact htransform
  · obtain rfl := Option.some.inj h
    exact Settings.convertTexts?_text _
  · obtain rfl := Option.some.inj h
    exact Settings.convertTexts?_text _

theorem same_of_assigned? (h : f.assigned? value s = some s') {g : Setting} (hne : g ≠ f) :
    g.Same s s' := by
  cases f <;> cases g <;> grind [assigned?, Same, Option.map_eq_some_iff]

end Setting

namespace Settings

/-! ## One variable -/

variable {f : Setting} {value : Text}

/-- An environment with the variable of one setting. -/
def oneVariable (f : Setting) (value : Text) : List (Text × Text) :=
  [(f.variableAfter "TPLFOLD__", value)]

theorem oneEach_nil : OneEach [] := by decide

theorem oneEach_oneVariable (f : Setting) (value : Text) : OneEach (oneVariable f value) := by
  simp only [OneEach, oneVariable, environmentLayer, List.filterMap_cons, List.filterMap_nil,
    f.variableKey?_two_underscores, Option.map_some, List.map_cons, List.map_nil, List.mem_singleton]
  exact ⟨by simp, fun m hm => hm ▸ List.mem_map_of_mem f.mem_all⟩

theorem inEnvironment?_oneVariable (f g : Setting) (value : Text) :
    g.inEnvironment? (oneVariable f value) =
      if f.key = g.key then some (variableValue f.key value) else none :=
  Setting.inEnvironment?_cons f.variableKey?_two_underscores g value

theorem groupIsSet_nil (g : Setting) : g.groupIsSet [] = false := by
  cases g <;> rfl

theorem groupIsSet_oneVariable {g : Setting} (h : f.group ≠ g.group) :
    g.groupIsSet (oneVariable f value) = false := by
  rw [Bool.eq_false_iff, Ne, Setting.groupIsSet_iff]
  rintro ⟨g', hgroup, hset⟩
  rw [inEnvironment?_oneVariable] at hset
  by_cases hkey : f.key = g'.key
  · exact h (Setting.key_injective hkey ▸ hgroup)
  · exact hset (if_neg hkey)

/-- Beside a variable of one setting the file gives what it gave before, unless it has the group of
that setting as a list. -/
theorem inFile?_oneVariable {file : List (Text × Datum)} (hlist : f.isListed file = false)
    (g : Setting) :
    g.inFile? file (oneVariable f value) = g.inFile? file [] := by
  by_cases hgroup : f.group = g.group
  · have hlist' : g.isListed file = false := by
      rwa [Setting.isListed, hgroup] at hlist
    rw [Setting.inFile?_of_not_listed hlist', Setting.inFile?_of_not_listed hlist']
  · rw [Setting.inFile?_of_unset (groupIsSet_oneVariable hgroup),
      Setting.inFile?_of_unset (groupIsSet_nil g)]

/-- The variable of a setting sets it, and no other one. -/
theorem load_oneVariable {store : Store} {path : Option Text} {s s' : Settings}
    (hload : load store path [] = .ok s) (hplain : isPlain value = true)
    (hvalue : f.assigned? value s = some s')
    (hlist : ∀ file, fileLayer? store path = some file → f.isListed file = false) :
    load store path (oneVariable f value) = .ok s' := by
  obtain ⟨file, hfile, hholds⟩ := (load_eq_ok_iff_holds oneEach_nil store path s).mp hload
  rw [load_eq_ok_iff_holds (oneEach_oneVariable f value)]
  refine ⟨file, hfile, fun g => ⟨Or.inr ((hholds g).1.resolve_left (by simp [groupIsSet_nil])), ?_⟩⟩
  -- Each setting keeps its source, except the one that the variable is for.
  rw [inEnvironment?_oneVariable, inFile?_oneVariable (hlist file hfile)]
  by_cases heq : g = f
  · subst heq
    rw [if_pos rfl, Option.some_or]
    exact Setting.holds_of_assigned? hplain hvalue
  · rw [if_neg fun hkey => heq (Setting.key_injective hkey).symm]
    exact (hholds g).2.of_same (Setting.same_of_assigned? hvalue heq)

/-- A variable sets its setting if two underscores follow the start of its name. Then loading
succeeds where it did without the variable, and all other settings are as before, unless the file
gives the group of the setting as a list. With one underscore the variable changes nothing. -/
theorem override_counts_after_two_underscores (store : Store) (path : Option Text) (f : Setting)
    (value : Text) :
    (∀ before after, load store path (before ++ (f.variableAfter "TPLFOLD_", value) :: after) =
      load store path (before ++ after)) ∧
    ∀ s s' : Settings, load store path [] = .ok s → isPlain value = true →
      f.assigned? value s = some s' →
      (∀ file, fileLayer? store path = some file → f.isListed file = false) →
      load store path [(f.variableAfter "TPLFOLD__", value)] = .ok s' :=
  ⟨load_of_variableKey?_eq_none f.variableKey?_one_underscore value store path,
    fun _ _ => load_oneVariable⟩

theorem extensions_of_mixedStore_are_overridden :
    load mixedStore none [] = .ok (vueSettings "html") ∧
    load mixedStore none [("TPLFOLD__FILES__EXTENSIONS".toList, "ts,mts".toList)] =
      .ok { vueSettings "html" with files := { extensions := ["ts".toList, "mts".toList] } } := by
  have hlist :
      ((fileLayer? mixedStore none).all fun file => !Setting.extensions.isListed file) = true := by
    decide +kernel
  refine ⟨load_mixedStore, (override_counts_after_two_underscores mixedStore none .extensions
    "ts,mts".toList).2 _ _ load_mixedStore (by decide +kernel) rfl fun file hfile => ?_⟩
  rw [hfile] at hlist
  simpa using hlist

/-- With one underscore after the start the property stays the default. -/
theorem one_underscore_overrides_nothing :
    load {} none [("TPLFOLD_REWRITE__PROPERTY_NAME".toList, "html".toList)] =
      .ok { fold := { property := "template".toList } } :=
  eq_ok_of_toOption (by decide +kernel)

end Settings

end LiteralFolding
