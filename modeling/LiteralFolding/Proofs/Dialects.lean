-- Files and their dialects. The default extensions are those of the dialects, and telling them
-- apart by ASCII letters or by all letters makes no difference to them. So every file that a walk
-- finds by default has a dialect, and only a file that is asked for by its path can lack one.
import LiteralFolding.Proofs.Discovery
import LiteralFolding.Proofs.SmallLetters

namespace LiteralFolding

/-! ## Extensions -/

namespace Dialect

variable {ext : Text}

theorem mem_all (dialect : Dialect) : dialect ∈ [typeScript, tsx, javaScript] := by
  cases dialect <;> decide

/-- The default extensions are those of the dialects. -/
theorem mem_default_extensions_iff :
    ext ∈ ({} : FileSettings).extensions ↔ ∃ dialect : Dialect, ext ∈ dialect.extensions := by
  have hperm : ({} : FileSettings).extensions.Perm
      ([typeScript, tsx, javaScript].flatMap extensions) := by
    decide
  rw [hperm.mem_iff, List.mem_flatMap]
  exact exists_congr fun dialect => and_iff_right (mem_all dialect)

theorem extensions_plain (dialect : Dialect) :
    (dialect.extensions.all fun ext => ext.all Text.isPlain) = true := by
  cases dialect <;> decide

theorem lower_mem_extensions_iff {dialect : Dialect} :
    Text.lower ext ∈ dialect.extensions ↔ Text.lowerAscii ext ∈ dialect.extensions := by
  have hplain := List.all_eq_true.mp (extensions_plain dialect)
  constructor
  · intro h
    rwa [(Text.lower_eq_iff (hplain _ h) ext).mp rfl]
  · intro h
    rwa [(Text.lower_eq_iff (hplain _ h) ext).mpr rfl]

/-- An extension has a dialect exactly if its ASCII small letters are one of the default
extensions. -/
theorem isSome_ofExtension?_iff :
    (ofExtension? ext).isSome ↔ Text.lowerAscii ext ∈ ({} : FileSettings).extensions := by
  rw [ofExtension?, List.find?_isSome, mem_default_extensions_iff]
  constructor
  · rintro ⟨dialect, _, h⟩
    exact ⟨dialect, lower_mem_extensions_iff.mp (List.contains_iff_mem.mp h)⟩
  · rintro ⟨dialect, h⟩
    exact ⟨dialect, mem_all dialect, List.contains_iff_mem.mpr (lower_mem_extensions_iff.mpr h)⟩

theorem isSome_ofPath?_iff {path : Text} :
    (ofPath? path).isSome ↔
      ∃ ext, Path.extension? path = some ext ∧
        Text.lowerAscii ext ∈ ({} : FileSettings).extensions := by
  unfold ofPath?
  cases Path.extension? path with
  | none => simp
  | some ext => simp [isSome_ofExtension?_iff]

end Dialect

namespace FileFilter

variable {settings : FileSettings} {filter : FileFilter}

theorem extensions_of_ofSettings (h : ofSettings settings = .ok filter) :
    filter.extensions = settings.extensions.map Text.lower := by
  unfold ofSettings at h
  cases hpatterns : settings.ignored.mapM readPattern with
  | error e =>
    rw [hpatterns] at h
    cases h
  | ok ignored =>
    rw [hpatterns] at h
    cases h
    rfl

/-- A filter with the default extensions takes the files that have a dialect. -/
theorem isSource_iff_isSome_ofPath?
    (hextensions : settings.extensions = ({} : FileSettings).extensions)
    (h : ofSettings settings = .ok filter) (path : Text) :
    filter.isSource path = true ↔ (Dialect.ofPath? path).isSome := by
  have hsmall : ({} : FileSettings).extensions.map Text.lower = ({} : FileSettings).extensions := by
    decide +kernel
  have hascii :
      (({} : FileSettings).extensions.all fun ext => Text.lowerAscii ext = ext) = true := by
    decide
  rw [Project.isSource_iff, Project.HasExtension, extensions_of_ofSettings h, hextensions, hsmall,
    Dialect.isSome_ofPath?_iff]
  refine exists_congr fun ext => and_congr_right fun _ => ?_
  constructor
  · rintro ⟨known, hknown, heq⟩
    have hsame : Text.lowerAscii known = known := by
      simpa using List.all_eq_true.mp hascii known hknown
    rwa [← heq, hsame]
  · intro hmem
    have hsame : Text.lowerAscii (Text.lowerAscii ext) = Text.lowerAscii ext := by
      simpa using List.all_eq_true.mp hascii _ hmem
    exact ⟨_, hmem, hsame⟩

end FileFilter

/-! ## Files -/

namespace Project

variable {store : Store} {grammar : Grammar} {filter : FileFilter} {path file directory : Text}
  {paths files : List Text}

/-- What a walk finds are sources by their paths too. -/
theorem isSource_of_mem_filesOf (h : filesOf store filter directory = .ok files)
    (hdirectory : store.isFile directory = false) (hfile : file ∈ files) :
    filter.isSource file = true := by
  rcases filesOf_cases store filter directory with
    ⟨-, heq⟩ | ⟨hisFile, -⟩ | ⟨place, hfollow, -, heq⟩
  · rw [heq] at h
    cases h
  · rw [hdirectory] at hisFile
    cases hisFile
  · obtain rfl := Except.ok.inj (h.symm.trans heq)
    obtain ⟨names, hnames, rfl⟩ := List.mem_map.mp hfile
    obtain ⟨_, last, hlast, hsource⟩ := keeps_iff.mp (List.mem_filter.mp hnames).2
    obtain ⟨front, rfl⟩ := List.getLast?_eq_some_iff.mp hlast
    obtain ⟨ext, hext, hknown⟩ := isSource_iff.mp hsource
    have hfront := Path.joinAll_ne_nil (Store.ne_nil_of_follow hfollow) front
    rw [List.foldl_append]
    exact isSource_iff.mpr ⟨ext, Path.extension?_join hfront hext, hknown⟩

/-- A file lacks a grammar only if its path has no dialect. -/
theorem loadSource_eq_noGrammar {path' : Text}
    (h : loadSource store grammar file = .error (.noSource path (.noGrammar path'))) :
    path = file ∧ Dialect.ofPath? file = none := by
  unfold loadSource at h
  split at h
  · cases h
  · split at h
    · rename_i e hread
      cases h
      refine ⟨rfl, ?_⟩
      unfold Source.read at hread
      split at hread
      · assumption
      · split at hread <;> cases hread
    · cases h

/-- Finding files fails only at a pattern or at a path that leads nowhere. -/
theorem discoverWith_ne_noSource {settings : FileSettings} {e : SourceError} :
    discoverWith store settings paths ≠ .error (.noSource path e) := by
  intro h
  unfold discoverWith filterOf at h
  cases hfilter : FileFilter.ofSettings settings with
  | error e =>
    rw [hfilter] at h
    cases h
  | ok filter =>
    rw [hfilter] at h
    change discover store filter paths = _ at h
    unfold discover at h
    cases hfound : paths.mapM (filesOf store filter) with
    | ok found =>
      rw [hfound] at h
      cases h
    | error e' =>
      rw [hfound] at h
      cases h
      obtain ⟨path', _, hfails⟩ := exists_error_of_mapM hfound
      rcases filesOf_cases store filter path' with ⟨-, heq⟩ | ⟨-, heq⟩ | ⟨place, -, -, heq⟩
      all_goals
        rw [heq] at hfails
        cases hfails

/-- A file that is found was asked for by its path, or it is a source by its path. -/
theorem given_or_isSource (h : discover store filter paths = .ok files) (hfile : file ∈ files) :
    (file ∈ paths ∧ store.isFile file = true) ∨ filter.isSource file = true := by
  rcases discover_cases store filter paths with ⟨found, files', hfound, hok, rfl⟩ | ⟨⟨e, he⟩, -⟩
  · obtain rfl := Except.ok.inj (h.symm.trans hok)
    have hmem := List.mem_mergeSort.mp (mem_of_mem_dropRepeats hfile)
    obtain ⟨part, hpart, hfile⟩ := List.mem_flatten.mp hmem
    obtain ⟨path, hpath, hfiles⟩ := exists_partner hfound.flip hpart
    cases hisFile : store.isFile path with
    | false => exact .inr (isSource_of_mem_filesOf hfiles hisFile hfile)
    | true =>
      rcases filesOf_cases store filter path with ⟨-, heq⟩ | ⟨-, heq⟩ | ⟨place, hfollow, hplace, -⟩
      · rw [heq] at hfiles
        cases hfiles
      · rw [heq] at hfiles
        cases hfiles
        obtain rfl := List.mem_singleton.mp hfile
        exact .inl ⟨hpath, hisFile⟩
      · simp [Store.isFile, Store.lookup, hfollow, hplace] at hisFile
  · rw [h] at he
    cases he

/-- A run that lacks a grammar lacks that of a file it found. -/
theorem exists_noGrammar_of_run {settings : Settings} {path' : Text}
    (h : run store grammar settings paths = .error (.noSource path (.noGrammar path'))) :
    ∃ files, discoverWith store settings.files paths = .ok files ∧ path ∈ files ∧
      Dialect.ofPath? path = none := by
  unfold run at h
  cases hfiles : discoverWith store settings.files paths with
  | error e =>
    rw [hfiles] at h
    cases h
    exact absurd hfiles discoverWith_ne_noSource
  | ok files =>
    rw [hfiles] at h
    change (load store grammar files).bind _ = _ at h
    unfold load at h
    cases hsources : files.mapM (loadSource store grammar) with
    | ok sources =>
      rw [hsources] at h
      cases h
    | error e =>
      rw [hsources] at h
      cases h
      obtain ⟨file, hfile, hfails⟩ := exists_error_of_mapM hsources
      obtain ⟨rfl, hnone⟩ := loadSource_eq_noGrammar hfails
      exact ⟨files, rfl, hfile, hnone⟩

/-- With the default extensions, a path is that of a source exactly if it has a dialect. So what
is found by walking a directory never lacks a grammar, and a run lacks one only for a file that it
was given by its path. -/
theorem walked_files_have_a_dialect {settings : FileSettings} {filter : FileFilter}
    (hextensions : settings.extensions = ({} : FileSettings).extensions)
    (hfilter : FileFilter.ofSettings settings = .ok filter) :
    (∀ path, filter.isSource path = true ↔ (Dialect.ofPath? path).isSome) ∧
    (∀ store directory files, filesOf store filter directory = .ok files →
      store.isFile directory = false → ∀ file ∈ files, (Dialect.ofPath? file).isSome ∧
        ∀ grammar path path',
          loadSource store grammar file ≠ .error (.noSource path (.noGrammar path'))) ∧
    ∀ store grammar fold paths path path',
      run store grammar { fold, files := settings } paths =
        .error (.noSource path (.noGrammar path')) →
      path ∈ paths ∧ store.isFile path = true ∧ Dialect.ofPath? path = none := by
  have hsource := FileFilter.isSource_iff_isSome_ofPath? hextensions hfilter
  refine ⟨hsource, ?_, ?_⟩
  · intro store directory files hfiles hdirectory file hfile
    have hdialect := (hsource file).mp (isSource_of_mem_filesOf hfiles hdirectory hfile)
    refine ⟨hdialect, fun grammar path path' hfails => ?_⟩
    rw [(loadSource_eq_noGrammar hfails).2] at hdialect
    cases hdialect
  · intro store grammar fold paths path path' h
    obtain ⟨files, hfiles, hmem, hnone⟩ := exists_noGrammar_of_run h
    have hdiscover : discover store filter paths = .ok files := by
      unfold discoverWith filterOf at hfiles
      rw [hfilter] at hfiles
      exact hfiles
    rcases given_or_isSource hdiscover hmem with ⟨hgiven, hisFile⟩ | hisSource
    · exact ⟨hgiven, hisFile, hnone⟩
    · rw [hsource, hnone] at hisSource
      cases hisSource

/-- A file with a capital extension is a source by default, one whose extension only looks like
`ts` is none, and walking a directory lacks no grammar. -/
theorem walked_files_have_a_dialect_by_default :
    ∃ filter, FileFilter.ofSettings {} = .ok filter ∧
      filter.isSource "s/.a.min.TS".toList = true ∧
      filter.isSource ['a', '.', 't', '\u017f'] = false ∧
      ∀ grammar path path',
        run nestedStore grammar {} [['s']] ≠ .error (.noSource path (.noGrammar path')) := by
  have hread : (FileFilter.ofSettings {}).toOption.isSome = true := by decide +kernel
  cases hfilter : FileFilter.ofSettings {} with
  | error e =>
    rw [hfilter] at hread
    cases hread
  | ok filter =>
    obtain ⟨hsource, -, hrun⟩ := walked_files_have_a_dialect rfl hfilter
    refine ⟨filter, rfl, (hsource _).mpr (by decide +kernel), ?_, ?_⟩
    · rw [Bool.eq_false_iff, Ne, hsource]
      decide +kernel
    · intro grammar path path' h
      obtain ⟨hpath, hisFile, -⟩ := hrun nestedStore grammar {} [['s']] path path' h
      obtain rfl := List.mem_singleton.mp hpath
      exact absurd hisFile (by decide)

end Project

end LiteralFolding
