-- Finding the sources of a project. The files that some paths stand for are exactly the files
-- among the paths and the sources below the directories among them, in the order of paths and
-- each once; so neither the order nor the repetition of the paths matters.
import LiteralFolding.Proofs.Effects
import LiteralFolding.Proofs.Paths
import Mathlib.Data.List.Induction
import Mathlib.Data.List.Nodup

namespace LiteralFolding

/-! ## Trees of files -/

namespace Store

variable {store : Store} {place : Place} {entry : FileEntry} {names : List Text}

/-- The store is a tree of files: no place is there twice, what is above a place is a directory,
and every step of a place is a name. -/
structure IsTree (store : Store) : Prop where
  distinct : (store.entries.map (·.1)).Nodup
  above : ∀ e ∈ store.entries, store.get? e.1.dropLast = some .directory
  names : ∀ e ∈ store.entries, ∀ name ∈ e.1, Path.IsName name

instance (store : Store) : Decidable store.IsTree :=
  decidable_of_iff
    ((store.entries.map (·.1)).Nodup ∧
      (∀ e ∈ store.entries, store.get? e.1.dropLast = some .directory) ∧
      ∀ e ∈ store.entries, ∀ name ∈ e.1, Path.IsName name)
    ⟨fun h => ⟨h.1, h.2.1, h.2.2⟩, fun h => ⟨h.distinct, h.above, h.names⟩⟩

theorem mem_entries (hplace : place ≠ []) (h : store.get? place = some entry) :
    (place, entry) ∈ store.entries := by
  rw [get?, if_neg hplace] at h
  obtain ⟨e, he, rfl⟩ := Option.map_eq_some_iff.mp h
  have heq : e.1 = place := by simpa using List.find?_some he
  rw [← heq]
  exact List.mem_of_find?_eq_some he

theorem IsTree.entry_of_mem (htree : store.IsTree) (hplace : place ≠ [])
    (h : (place, entry) ∈ store.entries) : store.get? place = some entry := by
  rw [get?, if_neg hplace]
  cases hfind : store.entries.find? fun e => e.1 = place with
  | none => simpa using List.find?_eq_none.mp hfind _ h
  | some e =>
    have heq : e.1 = place := by simpa using List.find?_some hfind
    have hsame := List.inj_on_of_nodup_map htree.distinct (List.mem_of_find?_eq_some hfind) h heq
    rw [hsame]
    rfl

theorem IsTree.directory_above (htree : store.IsTree) {name : Text}
    (h : (store.get? (place ++ [name])).isSome) : store.get? place = some .directory := by
  obtain ⟨entry, hentry⟩ := Option.isSome_iff_exists.mp h
  simpa using htree.above _ (mem_entries (by simp) hentry)

theorem IsTree.isName (htree : store.IsTree) (hnames : names ≠ [])
    (h : store.get? (place ++ names) = some entry) : ∀ name ∈ names, Path.IsName name := by
  intro name hname
  have hmem := mem_entries (by simp [hnames]) h
  exact htree.names _ hmem name (List.mem_append_right _ hname)

theorem mem_filesBelow_iff :
    names ∈ store.filesBelow place ↔ ∃ content, (place ++ names, .file content) ∈ store.entries := by
  unfold filesBelow
  rw [List.mem_filterMap]
  constructor
  · rintro ⟨⟨p, entry⟩, hmem, h⟩
    cases entry with
    | directory => cases h
    | file content =>
      dsimp only at h
      split at h
      · rename_i hbelow
        obtain ⟨rest, rfl⟩ := hbelow
        obtain rfl : rest = names := by simpa using h
        exact ⟨content, hmem⟩
      · cases h
  · rintro ⟨content, h⟩
    exact ⟨_, h, by simp⟩

theorem IsTree.mem_filesBelow_iff (htree : store.IsTree) (hnames : names ≠ []) :
    names ∈ store.filesBelow place ↔
      ∃ content, store.get? (place ++ names) = some (.file content) := by
  rw [Store.mem_filesBelow_iff]
  constructor
  · rintro ⟨content, h⟩
    exact ⟨content, htree.entry_of_mem (by simp [hnames]) h⟩
  · rintro ⟨content, h⟩
    exact ⟨content, mem_entries (by simp [hnames]) h⟩

/-! ## A walk -/

/-- A walk from a directory visits what these names lead to. It takes the start whatever its name
is, goes into the directories it visits, and passes over every entry whose name is left out. -/
inductive Visits (store : Store) (filter : FileFilter) (start : Place) : List Text → Prop
  | start (h : store.get? start = some .directory) : Visits store filter start []
  | entry {names : List Text} {name : Text} (hvisit : Visits store filter start names)
      (hdirectory : store.get? (start ++ names) = some .directory)
      (hentry : (store.get? (start ++ names ++ [name])).isSome)
      (hname : filter.ignores name = false) : Visits store filter start (names ++ [name])

variable {filter : FileFilter}

theorem Visits.start_is_directory (h : Visits store filter place names) :
    store.get? place = some .directory := by
  induction h with
  | start h => exact h
  | entry _ _ _ _ ih => exact ih

/-- In a tree a walk visits everything below its start unless a name on the way is left out. -/
theorem IsTree.visits_iff (htree : store.IsTree) (hplace : store.get? place = some .directory)
    (h : (store.get? (place ++ names)).isSome) :
    Visits store filter place names ↔ ∀ name ∈ names, filter.ignores name = false := by
  constructor
  · intro hvisit
    clear h
    induction hvisit with
    | start => simp
    | entry _ _ _ hname ih =>
      intro name hmem
      rcases List.mem_append.mp hmem with hmem | hmem
      · exact ih name hmem
      · rw [List.mem_singleton.mp hmem]
        exact hname
  · intro hnames
    induction names using List.reverseRecOn with
    | nil => exact .start hplace
    | append_singleton names name ih =>
      rw [← List.append_assoc] at h
      have hdirectory := htree.directory_above h
      have hvisit := ih (by rw [hdirectory]; rfl) fun n hn => hnames n (by simp [hn])
      exact .entry hvisit hdirectory h (hnames name (by simp))

end Store

namespace Project

variable {store : Store} {filter : FileFilter} {path file directory : Text} {paths files : List Text}

/-! ## What is to be found -/

/-- The path has one of the filter's extensions, capital or small. -/
def HasExtension (filter : FileFilter) (path : Text) : Prop :=
  ∃ ext, Path.extension? path = some ext ∧
    ∃ known ∈ filter.extensions, Text.lowerAscii known = Text.lowerAscii ext

/-- The path is that of a source below a directory: names lead from the directory down to a file
with one of the extensions, and no pattern accepts any of them. -/
def IsSourceBelow (store : Store) (filter : FileFilter) (directory path : Text) : Prop :=
  ∃ place names, store.follow directory = .ok place ∧ store.get? place = some .directory ∧
    (∃ content, store.get? (place ++ names) = some (.file content)) ∧
    (∀ name ∈ names, ∀ pattern ∈ filter.ignored, pattern.accepts name = false) ∧
    path = names.foldl Path.join directory ∧ HasExtension filter path

/-- The path is to be found: it is given and names a file, or it is that of a source below a
given directory. -/
def Wanted (store : Store) (filter : FileFilter) (paths : List Text) (path : Text) : Prop :=
  (path ∈ paths ∧ store.isFile path = true) ∨
    ∃ directory ∈ paths, IsSourceBelow store filter directory path

theorem isSource_iff : filter.isSource path = true ↔ HasExtension filter path := by
  simp [FileFilter.isSource, HasExtension, Option.any_eq_true]

theorem ignores_eq_false_iff {name : Text} :
    filter.ignores name = false ↔ ∀ pattern ∈ filter.ignored, pattern.accepts name = false := by
  simp [FileFilter.ignores]

/-! ## One path -/

theorem filesOf_cases (store : Store) (filter : FileFilter) (path : Text) :
    (store.lookup path = none ∧ filesOf store filter path = .error (.noPath path)) ∨
    (store.isFile path = true ∧ filesOf store filter path = .ok [path]) ∨
    ∃ place, store.follow path = .ok place ∧ store.get? place = some .directory ∧
      filesOf store filter path =
        .ok (((store.filesBelow place).filter (keeps filter)).map (·.foldl Path.join path)) := by
  unfold filesOf Store.isFile Store.lookup
  cases hfollow : store.follow path with
  | error e => exact .inl ⟨rfl, rfl⟩
  | ok place =>
    dsimp only
    cases hentry : store.get? place with
    | none => exact .inl ⟨rfl, rfl⟩
    | some entry =>
      cases entry with
      | file content => exact .inr (.inl ⟨rfl, rfl⟩)
      | directory => exact .inr (.inr ⟨place, rfl, hentry, rfl⟩)

theorem keeps_iff {names : List Text} : keeps filter names = true ↔
    (∀ name ∈ names, filter.ignores name = false) ∧
      ∃ last, names.getLast? = some last ∧ filter.isSource last = true := by
  simp [keeps, Option.any_eq_true]

theorem isSource_joinAll {names : List Text} {last : Text} (hdirectory : directory ≠ [])
    (hnames : ∀ name ∈ names, Path.IsName name) (hlast : names.getLast? = some last) :
    filter.isSource (names.foldl Path.join directory) = filter.isSource last := by
  obtain ⟨front, rfl⟩ := List.getLast?_eq_some_iff.mp hlast
  rw [FileFilter.isSource, Path.extension?_joinAll hdirectory hnames]
  rfl

/-- What a walk keeps below a directory are the sources below it. -/
theorem mem_kept_iff (htree : store.IsTree) {place : Place} (hfollow : store.follow directory = .ok place)
    (hplace : store.get? place = some .directory) :
    file ∈ ((store.filesBelow place).filter (keeps filter)).map (·.foldl Path.join directory) ↔
      IsSourceBelow store filter directory file := by
  have hdirectory := Store.ne_nil_of_follow hfollow
  simp only [List.mem_map, List.mem_filter, keeps_iff, ignores_eq_false_iff]
  constructor
  · rintro ⟨names, ⟨hbelow, hkept, last, hlast, hsource⟩, rfl⟩
    have hne : names ≠ [] := by
      rintro rfl
      cases hlast
    obtain ⟨content, hfile⟩ := (htree.mem_filesBelow_iff hne).mp hbelow
    refine ⟨place, names, hfollow, hplace, ⟨content, hfile⟩, hkept, rfl, ?_⟩
    rw [← isSource_iff, isSource_joinAll hdirectory (htree.isName hne hfile) hlast]
    exact hsource
  · rintro ⟨place', names, hfollow', -, ⟨content, hfile⟩, hkept, rfl, hextension⟩
    obtain rfl := Except.ok.inj (hfollow.symm.trans hfollow')
    have hne : names ≠ [] := by
      rintro rfl
      rw [List.append_nil, hplace] at hfile
      cases hfile
    have hlast := List.getLast?_eq_some_getLast hne
    refine ⟨names, ⟨(htree.mem_filesBelow_iff hne).mpr ⟨content, hfile⟩, hkept, _, hlast, ?_⟩, rfl⟩
    rw [← isSource_joinAll hdirectory (htree.isName hne hfile) hlast, isSource_iff]
    exact hextension

/-- A path stands for itself if it leads to a file, and for the sources below it if it leads to a
directory. -/
theorem mem_filesOf_iff (htree : store.IsTree) (h : filesOf store filter path = .ok files) :
    file ∈ files ↔
      (file = path ∧ store.isFile path = true) ∨ IsSourceBelow store filter path file := by
  rcases filesOf_cases store filter path with ⟨-, heq⟩ | ⟨hfile, heq⟩ | ⟨place, hfollow, hplace, heq⟩
  · rw [heq] at h
    cases h
  · rw [heq] at h
    cases h
    have hnot : ¬ IsSourceBelow store filter path file := by
      rintro ⟨place, names, hfollow, hplace, -⟩
      simp [Store.isFile, Store.lookup, hfollow, hplace] at hfile
    simp [hfile, hnot]
  · rw [heq] at h
    cases h
    have hnot : store.isFile path = false := by
      simp [Store.isFile, Store.lookup, hfollow, hplace]
    simp only [hnot, Bool.false_eq_true, and_false, false_or]
    exact mem_kept_iff htree hfollow hplace

/-! ## In order and each once -/

theorem mem_of_mem_dropRepeats (h : file ∈ dropRepeats paths) : file ∈ paths := by
  fun_induction dropRepeats paths with
  | case1 a b rest _ ih =>
    rcases List.mem_cons.mp (ih h) with rfl | h
    · exact List.mem_cons_self ..
    · exact List.mem_cons_of_mem _ (List.mem_cons_of_mem _ h)
  | case2 a b rest _ ih =>
    rcases List.mem_cons.mp h with rfl | h
    · exact List.mem_cons_self ..
    · exact List.mem_cons_of_mem _ (ih h)
  | case3 => exact h

/-- Of every path one spelling is left. -/
theorem exists_same_mem_dropRepeats (paths : List Text) :
    ∀ path ∈ paths, ∃ file ∈ dropRepeats paths, Path.Same file path := by
  fun_induction dropRepeats paths with
  | case1 a b rest hsame ih =>
    rw [List.forall_mem_cons] at ih
    obtain ⟨⟨file, hfile, hfirst⟩, hrest⟩ := ih
    rw [List.forall_mem_cons, List.forall_mem_cons]
    exact ⟨⟨file, hfile, hfirst⟩, ⟨file, hfile, hfirst.trans hsame⟩, hrest⟩
  | case2 a b rest _ ih =>
    rw [List.forall_mem_cons]
    refine ⟨⟨a, List.mem_cons_self .., rfl⟩, ?_⟩
    intro path hpath
    obtain ⟨file, hfile, hsame⟩ := ih path hpath
    exact ⟨file, List.mem_cons_of_mem _ hfile, hsame⟩
  | case3 paths => exact fun path hpath => ⟨path, hpath, rfl⟩

theorem before_of_le {a b c : Text}
    (hne : ¬ Path.components a = Path.components b)
    (hab : Path.le (Path.components a) (Path.components b) = true)
    (hbc : Path.le (Path.components b) (Path.components c) = true) : Path.Before a c := by
  have hbefore : Path.Before a b := (Path.le_iff.mp hab).resolve_left hne
  rcases Path.le_iff.mp hbc with heq | hlex
  · rw [Path.Before, ← heq]
    exact hbefore
  · exact Path.before_trans hbefore hlex

/-- What is in order with repetitions is strictly in order without them. -/
theorem pairwise_dropRepeats
    (h : paths.Pairwise fun a b => Path.le (Path.components a) (Path.components b) = true) :
    (dropRepeats paths).Pairwise Path.Before := by
  fun_induction dropRepeats paths with
  | case1 a b rest _ ih =>
    apply ih
    exact h.sublist (List.cons_sublist_cons.mpr (List.sublist_cons_self b rest))
  | case2 a b rest hne ih =>
    obtain ⟨hfirst, hrest⟩ := List.pairwise_cons.mp h
    refine List.pairwise_cons.mpr ⟨?_, ih hrest⟩
    intro c hc
    have hbc : Path.le (Path.components b) (Path.components c) = true := by
      rcases List.mem_cons.mp (mem_of_mem_dropRepeats hc) with rfl | hc
      · exact Path.le_iff.mpr (.inl rfl)
      · exact (List.pairwise_cons.mp hrest).1 c hc
    exact before_of_le hne (hfirst b (List.mem_cons_self ..)) hbc
  | case3 paths hshort =>
    rcases paths with _ | ⟨a, _ | ⟨b, rest⟩⟩
    · exact .nil
    · exact List.pairwise_singleton _ a
    · exact (hshort a b rest rfl).elim

/-! ## All paths -/

/-- All paths lead to files or directories, and their files are put together, or one leads
nowhere. -/
theorem discover_cases (store : Store) (filter : FileFilter) (paths : List Text) :
    (∃ found files, List.Forall₂ (fun path files => filesOf store filter path = .ok files) paths found ∧
      discover store filter paths = .ok files ∧
      files = dropRepeats (found.flatten.mergeSort fun a b =>
        Path.le (Path.components a) (Path.components b))) ∨
    (∃ e, discover store filter paths = .error e) ∧ ∃ path ∈ paths, store.lookup path = none := by
  unfold discover
  rcases mapM_cases (filesOf store filter) paths with
    ⟨found, hfound, hall⟩ | ⟨⟨e, he⟩, path, hpath, e', hfails⟩
  · refine .inl ⟨found, _, hall, ?_, rfl⟩
    rw [hfound]
    rfl
  · refine .inr ⟨⟨e, by rw [he]; rfl⟩, path, hpath, ?_⟩
    rcases filesOf_cases store filter path with ⟨hnone, -⟩ | ⟨-, heq⟩ | ⟨place, -, -, heq⟩
    · exact hnone
    · rw [heq] at hfails
      cases hfails
    · rw [heq] at hfails
      cases hfails

theorem mem_flatten_iff (htree : store.IsTree) {found : List (List Text)}
    (hfound : List.Forall₂ (fun path files => filesOf store filter path = .ok files) paths found) :
    file ∈ found.flatten ↔ Wanted store filter paths file := by
  rw [List.mem_flatten]
  constructor
  · rintro ⟨files, hfiles, hfile⟩
    obtain ⟨path, hpath, hok⟩ := exists_partner hfound.flip hfiles
    rcases (mem_filesOf_iff htree hok).mp hfile with ⟨rfl, hisFile⟩ | hbelow
    · exact .inl ⟨hpath, hisFile⟩
    · exact .inr ⟨path, hpath, hbelow⟩
  · rintro (⟨hpath, hisFile⟩ | ⟨directory, hpath, hbelow⟩)
    · obtain ⟨files, hfiles, hok⟩ := exists_partner hfound hpath
      exact ⟨files, hfiles, (mem_filesOf_iff htree hok).mpr (.inl ⟨rfl, hisFile⟩)⟩
    · obtain ⟨files, hfiles, hok⟩ := exists_partner hfound hpath
      exact ⟨files, hfiles, (mem_filesOf_iff htree hok).mpr (.inr hbelow)⟩

/-- The files found are the wanted ones, strictly in the order of paths. -/
theorem discover_spec (htree : store.IsTree) (h : discover store filter paths = .ok files) :
    files.Pairwise Path.Before ∧ (∀ file ∈ files, Wanted store filter paths file) ∧
      ∀ file, Wanted store filter paths file → ∃ file' ∈ files, Path.Same file' file := by
  rcases discover_cases store filter paths with ⟨found, files', hfound, hok, rfl⟩ | ⟨⟨e, he⟩, -⟩
  · obtain rfl := Except.ok.inj (h.symm.trans hok)
    refine ⟨pairwise_dropRepeats ?_, ?_, ?_⟩
    · apply List.pairwise_mergeSort
      · intro a b c
        exact Path.le_trans
      · intro a b
        exact Path.le_total _ _
    · intro file hfile
      rw [← mem_flatten_iff htree hfound]
      exact List.mem_mergeSort.mp (mem_of_mem_dropRepeats hfile)
    · intro file hwanted
      rw [← mem_flatten_iff htree hfound] at hwanted
      exact exists_same_mem_dropRepeats _ file (List.mem_mergeSort.mpr hwanted)
  · rw [h] at he
    cases he

theorem discover_eq_error_iff :
    (∃ e, discover store filter paths = .error e) ↔ ∃ path ∈ paths, store.lookup path = none := by
  rcases discover_cases store filter paths with ⟨found, files, hfound, hok, -⟩ | ⟨herror, hnone⟩
  · refine iff_of_false (by simp [hok]) ?_
    rintro ⟨path, hpath, hnone⟩
    obtain ⟨files, -, hfiles⟩ := exists_partner hfound hpath
    rcases filesOf_cases store filter path with ⟨-, heq⟩ | ⟨hfile, -⟩ | ⟨place, hfollow, hplace, -⟩
    · rw [heq] at hfiles
      cases hfiles
    · simp [Store.isFile, hnone] at hfile
    · simp [Store.lookup, hfollow, hplace] at hnone
  · exact iff_of_true herror hnone

/-! ## Which paths were given -/

/-- Every path of the first list is in the second, perhaps spelled otherwise. -/
def Among (paths paths' : List Text) : Prop := ∀ path ∈ paths, ∃ path' ∈ paths', Path.Same path' path

/-- Another spelling of a path that leads somewhere leads to the same place, or nowhere. -/
theorem follow_of_same {path' : Text} {place : Place} (hsame : Path.Same path' path)
    (hfollow : store.follow path = .ok place) (hexists : (store.lookup path').isSome) :
    store.follow path' = .ok place := by
  unfold Store.lookup at hexists
  cases hfollow' : store.follow path' with
  | error e => simp [hfollow'] at hexists
  | ok place' => rw [Store.follow_of_same hsame hfollow' hfollow]

theorem isSourceBelow_of_same (htree : store.IsTree) {directory' : Text}
    (hsame : Path.Same directory' directory) (hexists : (store.lookup directory').isSome)
    (h : IsSourceBelow store filter directory file) :
    ∃ file', IsSourceBelow store filter directory' file' ∧ Path.Same file' file := by
  obtain ⟨place, names, hfollow, hplace, ⟨content, hfile⟩, hkept, rfl, hextension⟩ := h
  have hfollow' := follow_of_same hsame hfollow hexists
  have hne : names ≠ [] := by
    rintro rfl
    rw [List.append_nil, hplace] at hfile
    cases hfile
  have hnames := htree.isName hne hfile
  have hcomponents : Path.Same (names.foldl Path.join directory') (names.foldl Path.join directory) := by
    rw [Path.Same, Path.components_joinAll (Store.ne_nil_of_follow hfollow') hnames,
      Path.components_joinAll (Store.ne_nil_of_follow hfollow) hnames, hsame]
  refine ⟨_, ⟨place, names, hfollow', hplace, ⟨content, hfile⟩, hkept, rfl, ?_⟩, hcomponents⟩
  unfold HasExtension Path.extension? Path.fileName? at hextension ⊢
  rwa [hcomponents]

theorem wanted_of_among (htree : store.IsTree) {paths' : List Text} (hamong : Among paths paths')
    (hexists : ∀ path ∈ paths', (store.lookup path).isSome) (h : Wanted store filter paths file) :
    ∃ file', Wanted store filter paths' file' ∧ Path.Same file' file := by
  rcases h with ⟨hpath, hfile⟩ | ⟨directory, hpath, hbelow⟩
  · obtain ⟨path', hpath', hsame⟩ := hamong file hpath
    refine ⟨path', .inl ⟨hpath', ?_⟩, hsame⟩
    unfold Store.isFile Store.lookup at hfile ⊢
    cases hfollow : store.follow file with
    | error e => simp [hfollow] at hfile
    | ok place =>
      rw [follow_of_same hsame hfollow (hexists path' hpath')]
      rwa [hfollow] at hfile
  · obtain ⟨directory', hpath', hsame⟩ := hamong directory hpath
    obtain ⟨file', hbelow', hsame'⟩ :=
      isSourceBelow_of_same htree hsame (hexists directory' hpath') hbelow
    exact ⟨file', .inr ⟨directory', hpath', hbelow'⟩, hsame'⟩

/-- Two lists strictly in order that have the same paths are the same list of paths. -/
theorem map_components_eq {files' : List Text} (h : files.Pairwise Path.Before)
    (h' : files'.Pairwise Path.Before) (hsub : Among files files') (hsub' : Among files' files) :
    files.map Path.components = files'.map Path.components := by
  have hpairwise : (files.map Path.components).Pairwise (List.Lex Component.Before) :=
    List.pairwise_map.mpr h
  have hpairwise' : (files'.map Path.components).Pairwise (List.Lex Component.Before) :=
    List.pairwise_map.mpr h'
  have hne : ∀ {xs ys : List Component}, List.Lex Component.Before xs ys → xs ≠ ys := by
    rintro xs ys hlex rfl
    exact List.lex_irrefl Component.before_irrefl xs hlex
  have hmem : ∀ cs, cs ∈ files.map Path.components ↔ cs ∈ files'.map Path.components := by
    intro cs
    simp only [List.mem_map]
    constructor
    · rintro ⟨file, hfile, rfl⟩
      exact hsub file hfile
    · rintro ⟨file, hfile, rfl⟩
      exact hsub' file hfile
  have hperm := (List.perm_ext_iff_of_nodup (hpairwise.imp hne) (hpairwise'.imp hne)).mpr hmem
  refine List.Perm.eq_of_pairwise ?_ hpairwise hpairwise' hperm
  intro xs ys _ _ hxy hyx
  have hxx := List.lex_trans (r := Component.Before) Component.before_trans hxy hyx
  exact absurd hxx (List.lex_irrefl Component.before_irrefl xs)

theorem lookup_of_discover (h : discover store filter paths = .ok files) :
    ∀ path ∈ paths, (store.lookup path).isSome := by
  intro path hpath
  rw [← Option.ne_none_iff_isSome]
  intro hnone
  obtain ⟨e, he⟩ := discover_eq_error_iff.mpr ⟨path, hpath, hnone⟩
  rw [h] at he
  cases he

theorem among_of_discover (htree : store.IsTree) {paths' files' : List Text}
    (hamong : Among paths paths') (h : discover store filter paths = .ok files)
    (h' : discover store filter paths' = .ok files') : Among files files' := by
  intro file hfile
  obtain ⟨-, hsound, -⟩ := discover_spec htree h
  obtain ⟨-, -, hcomplete⟩ := discover_spec htree h'
  obtain ⟨wanted, hwanted, hsame⟩ :=
    wanted_of_among htree hamong (lookup_of_discover h') (hsound file hfile)
  obtain ⟨file', hfile', hsame'⟩ := hcomplete wanted hwanted
  exact ⟨file', hfile', hsame'.trans hsame⟩

/-- The sources below a directory are the files with one of the extensions that a walk from the
directory visits. -/
theorem isSourceBelow_iff_visits (htree : store.IsTree) :
    IsSourceBelow store filter directory file ↔
      ∃ place names, store.follow directory = .ok place ∧ store.Visits filter place names ∧
        (∃ content, store.get? (place ++ names) = some (.file content)) ∧
        file = names.foldl Path.join directory ∧ HasExtension filter file := by
  constructor
  · rintro ⟨place, names, hfollow, hplace, ⟨content, hfile⟩, hkept, hpath, hextension⟩
    refine ⟨place, names, hfollow, ?_, ⟨content, hfile⟩, hpath, hextension⟩
    rw [htree.visits_iff hplace (by rw [hfile]; rfl)]
    exact fun name hname => ignores_eq_false_iff.mpr (hkept name hname)
  · rintro ⟨place, names, hfollow, hvisits, ⟨content, hfile⟩, hpath, hextension⟩
    have hplace := hvisits.start_is_directory
    refine ⟨place, names, hfollow, hplace, ⟨content, hfile⟩, ?_, hpath, hextension⟩
    rw [htree.visits_iff hplace (by rw [hfile]; rfl)] at hvisits
    exact fun name hname => ignores_eq_false_iff.mp (hvisits name hname)

/-- Finding fails exactly if a given path leads neither to a file nor to a directory. Otherwise
the files found are strictly in the order of paths, and they are the given paths that lead to
files and the paths of the sources below the given directories, each in one spelling. The sources
below a directory are what a walk finds that leaves out names together with all below them. The
same paths in any order, number and spelling give the same files. -/
theorem discover_finds_exactly_the_wanted (htree : store.IsTree) (filter : FileFilter)
    (paths : List Text) :
    ((∃ e, discover store filter paths = .error e) ↔ ∃ path ∈ paths, store.lookup path = none) ∧
    (∀ files, discover store filter paths = .ok files →
      files.Pairwise Path.Before ∧
      (∀ file ∈ files, Wanted store filter paths file) ∧
      (∀ file, Wanted store filter paths file → ∃ file' ∈ files, Path.Same file' file) ∧
      ∀ paths' files', Among paths paths' → Among paths' paths →
        discover store filter paths' = .ok files' →
        files'.map Path.components = files.map Path.components) ∧
    (∀ directory file, IsSourceBelow store filter directory file ↔
      ∃ place names, store.follow directory = .ok place ∧ store.Visits filter place names ∧
        (∃ content, store.get? (place ++ names) = some (.file content)) ∧
        file = names.foldl Path.join directory ∧ HasExtension filter file) := by
  refine ⟨discover_eq_error_iff, ?_, fun directory file => isSourceBelow_iff_visits htree⟩
  intro files h
  obtain ⟨hpairwise, hsound, hcomplete⟩ := discover_spec htree h
  refine ⟨hpairwise, hsound, hcomplete, ?_⟩
  intro paths' files' hamong hamong' h'
  exact map_components_eq (discover_spec htree h').1 hpairwise
    (among_of_discover htree hamong' h' h) (among_of_discover htree hamong h h')

/-- A directory with a source, and a directory below it that is left out and holds another. -/
def nestedStore : Store where
  entries :=
    [([['s']], .directory), ([['s'], ['d']], .directory),
      ([['s'], ['d'], "b.ts".toList], .file (.text [])), ([['s'], "a.ts".toList], .file (.text []))]

/-- Sources are files with the extension `ts`, and what is named `d` is left out. -/
def nestedFilter : FileFilter := { extensions := [['t', 's']], ignored := [⟨[.exactly 'd']⟩] }

/-- The source below the directory that is left out is found under its own path, and the paths
turned round, repeated and spelled otherwise give the same files. -/
theorem discover_nestedStore :
    nestedStore.IsTree ∧
      ∃ files, discover nestedStore nestedFilter ["s/d/b.ts".toList, ['s']] = .ok files ∧
        files.Pairwise Path.Before ∧
        (∃ file ∈ files, Path.Same file "s/a.ts".toList) ∧
        (∃ file ∈ files, Path.Same file "s/d/b.ts".toList) ∧
        ∀ files', discover nestedStore nestedFilter [['s'], "s//d/b.ts".toList, ['s']] = .ok files' →
          files'.map Path.components = files.map Path.components := by
  have htree : nestedStore.IsTree := by decide
  obtain ⟨hfails, hfound, -⟩ :=
    discover_finds_exactly_the_wanted htree nestedFilter ["s/d/b.ts".toList, ['s']]
  cases hdiscover : discover nestedStore nestedFilter ["s/d/b.ts".toList, ['s']] with
  | error e =>
    obtain ⟨path, hpath, hnone⟩ := hfails.mp ⟨e, hdiscover⟩
    have hthere : ∀ path ∈ ["s/d/b.ts".toList, ['s']], nestedStore.lookup path ≠ none := by decide
    exact absurd hnone (hthere path hpath)
  | ok files =>
    obtain ⟨hsorted, -, hcomplete, hany⟩ := hfound files hdiscover
    have hgiven : Wanted nestedStore nestedFilter ["s/d/b.ts".toList, ['s']] "s/d/b.ts".toList :=
      .inl ⟨by decide, by decide⟩
    have hbelow : Wanted nestedStore nestedFilter ["s/d/b.ts".toList, ['s']] "s/a.ts".toList := by
      refine .inr ⟨['s'], by decide, [['s']], ["a.ts".toList], rfl, rfl, ⟨.text [], rfl⟩, by decide,
        rfl, ['t', 's'], by decide, ['t', 's'], by decide, rfl⟩
    refine ⟨htree, files, rfl, hsorted, hcomplete _ hbelow, hcomplete _ hgiven, ?_⟩
    refine fun files' hfiles' => hany _ files' ?_ ?_ hfiles'
    · unfold Among Path.Same
      decide
    · unfold Among Path.Same
      decide

end Project

end LiteralFolding
