-- What the command does to the files it works on. All is found, read and folded before the first
-- file is written, so a run that fails there leaves every file as it was; any other run writes the
-- changed sources and nothing else, up to the first that its file does not take. A check tells
-- which sources these would be.
import LiteralFolding.Command.Run
import LiteralFolding.Proofs.Outcomes
import LiteralFolding.Proofs.Writing
import Mathlib.Data.List.Forall2

namespace LiteralFolding

/-! ## All sources or none -/

/-- Either every member gives a result, or one fails and so does the whole. -/
theorem mapM_cases {α β ε : Type} (f : α → Except ε β) (xs : List α) :
    (∃ ys, xs.mapM f = .ok ys ∧ List.Forall₂ (fun x y => f x = .ok y) xs ys) ∨
      (∃ e, xs.mapM f = .error e) ∧ ∃ x ∈ xs, ∃ e, f x = .error e := by
  induction xs with
  | nil => exact .inl ⟨[], rfl, .nil⟩
  | cons x xs ih =>
    rw [List.mapM_cons]
    cases hx : f x with
    | error e => exact .inr ⟨⟨e, rfl⟩, x, List.mem_cons_self .., e, hx⟩
    | ok y =>
      rcases ih with ⟨ys, hys, hall⟩ | ⟨⟨e, he⟩, x', hx', hfails⟩
      · exact .inl ⟨y :: ys, by rw [hys]; rfl, .cons hx hall⟩
      · exact .inr ⟨⟨e, by rw [he]; rfl⟩, x', List.mem_cons_of_mem _ hx', hfails⟩

/-- The failure of the whole is that of one member. -/
theorem exists_error_of_mapM {α β ε : Type} {f : α → Except ε β} {xs : List α} {e : ε}
    (h : xs.mapM f = .error e) : ∃ x ∈ xs, f x = .error e := by
  induction xs with
  | nil => cases h
  | cons x xs ih =>
    rw [List.mapM_cons] at h
    cases hx : f x with
    | error e' =>
      rw [hx] at h
      cases h
      exact ⟨x, List.mem_cons_self .., hx⟩
    | ok y =>
      rw [hx] at h
      cases hxs : xs.mapM f with
      | ok ys =>
        rw [hxs] at h
        cases h
      | error e' =>
        rw [hxs] at h
        cases h
        obtain ⟨x', hx', hfails⟩ := ih hxs
        exact ⟨x', List.mem_cons_of_mem _ hx', hfails⟩

/-- In lists that are related member by member each member has a partner. -/
theorem exists_partner {α β : Type} {R : α → β → Prop} {xs : List α} {ys : List β} {x : α}
    (h : List.Forall₂ R xs ys) (hx : x ∈ xs) : ∃ y ∈ ys, R x y := by
  induction h with
  | nil => simp at hx
  | cons hxy _ ih =>
    rcases List.mem_cons.mp hx with rfl | hx
    · exact ⟨_, List.mem_cons_self .., hxy⟩
    · obtain ⟨y, hy, hR⟩ := ih hx
      exact ⟨y, List.mem_cons_of_mem _ hy, hR⟩

namespace Project

variable {store : Store} {grammar : Grammar} {settings : Settings} {paths : List Text}

/-- A run folds the files it finds, unless they cannot be found or one of them cannot be read as
a source. -/
theorem run_cases (store : Store) (grammar : Grammar) (settings : Settings) (paths : List Text) :
    (∃ files sources, discoverWith store settings.files paths = .ok files ∧
      List.Forall₂ (fun path s => loadSource store grammar path = .ok s) files sources ∧
      run store grammar settings paths = .ok (fold settings.fold (Program.ofSources sources))) ∨
    (∃ e, run store grammar settings paths = .error e) ∧
      ((∃ e, discoverWith store settings.files paths = .error e) ∨
        ∃ files, discoverWith store settings.files paths = .ok files ∧
          ∃ path ∈ files, ∃ e, loadSource store grammar path = .error e) := by
  cases hfiles : discoverWith store settings.files paths with
  | error e =>
    have hrun : run store grammar settings paths = .error e := by
      simp only [run, hfiles]
      rfl
    exact .inr ⟨⟨e, hrun⟩, .inl ⟨e, rfl⟩⟩
  | ok files =>
    have hrun : run store grammar settings paths =
        ((files.mapM (loadSource store grammar)).map Program.ofSources).bind fun program =>
          .ok (fold settings.fold program) := by
      simp only [run, hfiles]
      rfl
    rcases mapM_cases (loadSource store grammar) files with
      ⟨sources, hsources, hall⟩ | ⟨⟨e, he⟩, path, hpath, hfails⟩
    · refine .inl ⟨files, sources, rfl, hall, ?_⟩
      rw [hrun, hsources]
      rfl
    · refine .inr ⟨⟨e, ?_⟩, .inr ⟨files, rfl, path, hpath, hfails⟩⟩
      rw [hrun, he]
      rfl

theorem path_of_loadSource {path : Text} {s : Source} (h : loadSource store grammar path = .ok s) :
    s.path = path ∧ ∃ place, store.LeadsToFile path place := by
  unfold loadSource at h
  split at h
  · cases h
  · rename_i text hread
    split at h
    · cases h
    · rename_i source hsource
      cases h
      refine ⟨?_, Store.exists_leadsToFile_of_read hread⟩
      unfold Source.read at hsource
      split at hsource
      · cases hsource
      · split at hsource
        · cases hsource
        · cases hsource
          rfl

theorem exists_path_of_mem_fold {fold' : FoldSettings} {sources : List Source} {f : FoldedSource}
    (h : f ∈ fold fold' (Program.ofSources sources)) : ∃ s ∈ sources, f.path = s.path := by
  unfold fold Program.foldAll Program.ofSources Source.number at h
  obtain ⟨s, hs, rfl⟩ := List.mem_map.mp h
  obtain ⟨⟨original, i⟩, hmem, rfl⟩ := List.mem_map.mp hs
  exact ⟨original, List.fst_mem_of_mem_zipIdx hmem, rfl⟩

end Project

namespace Command

/-! ## Runs that stop and runs that fold -/

/-- Does the request write files? -/
def Request.writes (request : Request) : Bool := request.task = .fold && request.write

/-- The request that checks what another one would write. -/
def Request.checking (request : Request) : Request := { request with write := false, check := true }

/-- The settings cannot be had, the files cannot be found, or one of them cannot be read as a
source. -/
inductive Stops (world : World) (request : Request) : Prop
  | settings {e : Failure} (h : settingsFor world request = .error e)
  | discovery {settings : Settings} {e : ProjectError}
      (hsettings : settingsFor world request = .ok settings)
      (h : Project.discoverWith world.store settings.files request.paths = .error e)
  | loading {settings : Settings} {files : List Text} {path : Text} {e : ProjectError}
      (hsettings : settingsFor world request = .ok settings)
      (hfiles : Project.discoverWith world.store settings.files request.paths = .ok files)
      (hpath : path ∈ files) (h : Project.loadSource world.store world.grammar path = .error e)

/-- The sources that a request is about, folded. -/
inductive Folds (world : World) (request : Request) : List FoldedSource → Prop
  | intro {settings : Settings} {files : List Text} {sources : List Source}
      (hsettings : settingsFor world request = .ok settings)
      (hfiles : Project.discoverWith world.store settings.files request.paths = .ok files)
      (hsources : List.Forall₂
        (fun path s => Project.loadSource world.store world.grammar path = .ok s) files sources) :
      Folds world request (Project.fold settings.fold (Program.ofSources sources))

/-- The folded sources of a request, or why there are none. -/
def units (world : World) (request : Request) : Except Failure (List FoldedSource) := do
  let settings ← settingsFor world request
  ofProject (Project.run world.store world.grammar settings request.paths)

variable {world : World} {request : Request} {args : List Text} {folded : List FoldedSource}

theorem Folds.not_stops (h : Folds world request folded) : ¬ Stops world request := by
  obtain ⟨hsettings, hfiles, hsources⟩ := h
  intro hstops
  cases hstops with
  | settings h =>
    rw [hsettings] at h
    cases h
  | discovery hsettings' h =>
    obtain rfl := Except.ok.inj (hsettings.symm.trans hsettings')
    rw [hfiles] at h
    cases h
  | loading hsettings' hfiles' hpath h =>
    obtain rfl := Except.ok.inj (hsettings.symm.trans hsettings')
    obtain rfl := Except.ok.inj (hfiles.symm.trans hfiles')
    obtain ⟨s, _, hok⟩ := exists_partner hsources hpath
    rw [h] at hok
    cases hok

/-- There is one result only. -/
theorem Folds.unique {folded' : List FoldedSource} (h : Folds world request folded)
    (h' : Folds world request folded') : folded = folded' := by
  obtain ⟨hsettings, hfiles, hsources⟩ := h
  obtain ⟨hsettings', hfiles', hsources'⟩ := h'
  obtain rfl := Except.ok.inj (hsettings.symm.trans hsettings')
  obtain rfl := Except.ok.inj (hfiles.symm.trans hfiles')
  have hunique : Relator.RightUnique fun path s =>
      Project.loadSource world.store world.grammar path = .ok s := by
    intro path s s' hs hs'
    exact Except.ok.inj (hs.symm.trans hs')
  rw [hunique.forall₂ hsources hsources']

/-- Every request folds its sources or stops. -/
theorem units_cases (world : World) (request : Request) :
    (∃ folded, units world request = .ok folded ∧ Folds world request folded) ∨
      (∃ e, units world request = .error e) ∧ Stops world request := by
  cases hsettings : settingsFor world request with
  | error e =>
    have hunits : units world request = .error e := by
      simp only [units, hsettings]
      rfl
    exact .inr ⟨⟨e, hunits⟩, .settings hsettings⟩
  | ok settings =>
    have hunits : units world request =
        ofProject (Project.run world.store world.grammar settings request.paths) := by
      simp only [units, hsettings]
      rfl
    rcases Project.run_cases world.store world.grammar settings request.paths with
      ⟨files, sources, hfiles, hsources, hrun⟩ | ⟨⟨e, hrun⟩, hfails⟩
    · exact .inl ⟨_, by rw [hunits, hrun]; rfl, .intro hsettings hfiles hsources⟩
    · refine .inr ⟨⟨.project e, by rw [hunits, hrun]; rfl⟩, ?_⟩
      rcases hfails with ⟨e', h⟩ | ⟨files, hfiles, path, hpath, e', h⟩
      · exact .discovery hsettings h
      · exact .loading hsettings hfiles hpath h

/-- The path of every folded source leads to a file. -/
theorem Folds.exists_leadsToFile (h : Folds world request folded) {f : FoldedSource}
    (hf : f ∈ folded) : ∃ place, world.store.LeadsToFile f.path place := by
  obtain ⟨_, _, hsources⟩ := h
  obtain ⟨s, hs, hpath⟩ := Project.exists_path_of_mem_fold hf
  obtain ⟨path, _, hload⟩ := exists_partner hsources.flip hs
  obtain ⟨rfl, hplace⟩ := Project.path_of_loadSource hload
  rwa [hpath]

/-! ## What is left behind -/

/-- What a request does with its folded sources. -/
def conclude (world : World) (request : Request) (folded : List FoldedSource) :
    Except Failure Outcome :=
  match request.task with
  | .report =>
    .ok { code := 0
          output := match request.form with
            | .text => Report.text folded
            | .json => Report.json folded
          store := world.store }
  | .fold =>
    if request.write then
      match Project.write world.store folded with
      | .ok store => .ok { code := 0, store }
      | .error failure => .ok (failed (.project failure) failure.store)
    else if request.check then
      .ok { code := if (Project.changed folded).isEmpty then 0 else 1
            output := pathLines (Project.changed folded)
            store := world.store }
    else .ok { code := 0, output := listing (Project.changed folded), store := world.store }

theorem perform_eq (world : World) (request : Request) :
    perform world request = (units world request).bind (conclude world request) := by
  unfold perform units
  cases settingsFor world request with
  | error e => rfl
  | ok settings =>
    simp only [bind, Except.bind]
    cases ofProject (Project.run world.store world.grammar settings request.paths) with
    | error e => rfl
    | ok folded => rfl

theorem run_of_error {e : Failure} (hargs : Request.read args = .ok request)
    (h : units world request = .error e) :
    (run world args).code = 1 ∧ (run world args).output = [] ∧
      (run world args).store = world.store := by
  simp only [run, hargs, perform_eq, h, Except.bind, failed, and_self]

/-- A request that does not write leaves the store as it was. -/
theorem store_conclude {outcome : Outcome} (hwrites : request.writes = false)
    (h : conclude world request folded = .ok outcome) : outcome.store = world.store := by
  unfold conclude at h
  split at h
  · cases h
    rfl
  · rename_i htask
    have hwrite : request.write = false := by simpa [Request.writes, htask] using hwrites
    rw [hwrite] at h
    simp only [Bool.false_eq_true, if_false] at h
    split at h
    · cases h
      rfl
    · cases h
      rfl

theorem store_run_of_not_writes
    (h : ∀ request, Request.read args = .ok request → request.writes = false) :
    (run world args).store = world.store := by
  unfold run
  split
  · rfl
  · rfl
  · rfl
  · rename_i request hargs
    split
    · rename_i outcome hperform
      rw [perform_eq] at hperform
      cases hunits : units world request with
      | error e =>
        rw [hunits] at hperform
        cases hperform
      | ok folded =>
        rw [hunits] at hperform
        exact store_conclude (h request hargs) hperform
    · rfl

/-- A request that writes, and does not stop, rewrites the changed sources up to the first that
its file does not take. -/
theorem run_writing (hargs : Request.read args = .ok request) (hwrites : request.writes)
    (hunits : units world request = .ok folded) (hfolds : Folds world request folded) :
    ∃ written unwritten middle, Project.changed folded = written ++ unwritten ∧
      (∀ f ∈ written, world.store.Takes f.path f.text) ∧ world.store.Rewritten written middle ∧
      (unwritten = [] → (run world args).code = 0 ∧ (run world args).store = middle) ∧
      ∀ f rest, unwritten = f :: rest → ¬ world.store.Takes f.path f.text ∧
        (run world args).code = 1 ∧ middle.Refuses f.path f.text (run world args).store := by
  obtain ⟨htask, hwrite⟩ : request.task = .fold ∧ request.write = true := by
    simpa [Request.writes] using hwrites
  have hrun : run world args =
      match Project.write world.store folded with
      | .ok store => { code := 0, store }
      | .error failure => failed (.project failure) failure.store := by
    simp only [run, hargs, perform_eq, hunits, Except.bind, conclude, htask, hwrite, if_true]
    cases Project.write world.store folded <;> rfl
  rw [hrun]
  unfold Project.write
  have hfiles : ∀ f ∈ Project.changed folded, ∃ place, world.store.LeadsToFile f.path place :=
    fun f hf => hfolds.exists_leadsToFile (List.mem_filter.mp hf).1
  obtain ⟨written, unwritten, middle, hsplit, htaken, hmiddle, hend⟩ := Store.writeOne_cases hfiles
  refine ⟨written, unwritten, middle, hsplit, htaken, hmiddle, ?_⟩
  rcases hend with ⟨rfl, hall⟩ | ⟨f, rest, failure, rfl, hrefuses, hfails⟩
  · rw [hall]
    exact ⟨fun _ => ⟨rfl, rfl⟩, fun f rest h => (by cases h)⟩
  · rw [hfails]
    refine ⟨fun h => (by cases h), ?_⟩
    rintro f rest ⟨⟩
    refine ⟨?_, rfl, hrefuses⟩
    intro htakes
    exact hrefuses.not_takes (htakes.of_sameShape hmiddle.shape)

/-- A request that checks tells the changed sources. -/
theorem run_checking {checking : List Text} (hargs : Request.read checking = .ok request.checking)
    (htask : request.task = .fold) (hunits : units world request = .ok folded) :
    (run world checking).code = (if Project.changed folded = [] then 0 else 1) ∧
      (run world checking).output = pathLines (Project.changed folded) := by
  have hunits' : units world request.checking = .ok folded := hunits
  have htask' : request.checking.task = .fold := htask
  have hwrite : request.checking.write = false := rfl
  have hcheck : request.checking.check = true := rfl
  simp only [run, hargs, perform_eq, hunits', Except.bind, conclude, htask', hwrite, hcheck,
    Bool.false_eq_true, if_false, if_true, List.isEmpty_iff, and_self]

/-- The command changes only what it reports. Without the option to write it leaves the store as
it was. With it, a run that stops at the settings, the search for files or one of the files leaves
the store as it was too. Any other run rewrites the sources with a replacement and nothing else, up
to the first whose file does not take the new text: it fails there, and leaves that file as it was
or with the bytes that fit. The check of the same request fails without a word where the run stops,
and otherwise tells the paths of all sources with a replacement in their order, and succeeds if
there are none. -/
theorem command_changes_only_what_it_reports (world : World) :
    (∀ args, (∀ request, Request.read args = .ok request → request.writes = false) →
      (run world args).store = world.store) ∧
    ∀ args request, Request.read args = .ok request → request.writes = true →
      (Stops world request →
        (run world args).code = 1 ∧ (run world args).store = world.store ∧
        ∀ checking, Request.read checking = .ok request.checking →
          (run world checking).code = 1 ∧ (run world checking).output = []) ∧
      (¬ Stops world request →
        ∃ folded, Folds world request folded ∧
          (∃ written unwritten middle, folded.filter (·.replacements ≠ []) = written ++ unwritten ∧
            (∀ f ∈ written, world.store.Takes f.path f.text) ∧
            world.store.Rewritten written middle ∧
            (unwritten = [] → (run world args).code = 0 ∧ (run world args).store = middle) ∧
            ∀ f rest, unwritten = f :: rest → ¬ world.store.Takes f.path f.text ∧
              (run world args).code = 1 ∧ middle.Refuses f.path f.text (run world args).store) ∧
          ∀ checking, Request.read checking = .ok request.checking →
            (run world checking).code =
              (if folded.filter (·.replacements ≠ []) = [] then 0 else 1) ∧
            (run world checking).output = pathLines (folded.filter (·.replacements ≠ []))) := by
  refine ⟨fun args h => store_run_of_not_writes h, ?_⟩
  intro args request hargs hwrites
  have htask : request.task = .fold := by
    simp only [Request.writes, Bool.and_eq_true, decide_eq_true_eq] at hwrites
    exact hwrites.1
  rcases units_cases world request with ⟨folded, hunits, hfolds⟩ | ⟨⟨e, hunits⟩, hstops⟩
  · refine ⟨fun hstops => absurd hstops hfolds.not_stops, fun _ => ⟨folded, hfolds, ?_⟩⟩
    have hchanged : Project.changed folded = folded.filter (·.replacements ≠ []) := by
      unfold Project.changed FoldedSource.isChanged
      congr 1
      funext f
      cases f.replacements <;> rfl
    rw [← hchanged]
    exact ⟨run_writing hargs hwrites hunits hfolds,
      fun checking hchecking => run_checking hchecking htask hunits⟩
  · refine ⟨fun _ => ?_, fun hnot => absurd hstops hnot⟩
    obtain ⟨hcode, _, hstore⟩ := run_of_error hargs hunits
    refine ⟨hcode, hstore, ?_⟩
    intro checking hchecking
    have hunits' : units world request.checking = .error e := hunits
    obtain ⟨hcode', houtput, _⟩ := run_of_error hchecking hunits'
    exact ⟨hcode', houtput⟩

/-- The text `t:'a'`, a property at the top. -/
def singleQuotes (index : Nat) (path : Text) : Source where
  index := index
  path := path
  dialect := .typeScript
  text := ['t', ':', '\'', 'a', '\'']
  tree := .piece .pair none 0 5
    [.piece .propertyIdentifier (some .key) 0 1 [], .piece .string (some .value) 2 5 []]

/-- Two files with that text. The new text just fits into the first, and the second can only be
read. -/
def singleQuotesWorld : World where
  store :=
    { entries := [([['a', '.', 't', 's']], .file (.text (singleQuotes 0 []).text)),
        ([['b', '.', 't', 's']], .file (.text (singleQuotes 0 []).text))]
      obstacles := [([['a', '.', 't', 's']], .room 5), ([['b', '.', 't', 's']], .readOnly)] }
  grammar := fun _ _ => some (singleQuotes 0 []).tree

/-- The arguments `rewrite MODE -t identity -p t a.ts b.ts`. -/
def singleQuotesArguments (mode : String) : List Text :=
  ["rewrite", mode, "-t", "identity", "-p", "t", "a.ts", "b.ts"].map String.toList

/-- What they ask for when the mode is to write. -/
def singleQuotesRequest : Request where
  config := none
  verbose := false
  transform := some .identity
  property := some ['t']
  task := .fold
  paths := [['a', '.', 't', 's'], ['b', '.', 't', 's']]
  write := true
  check := false
  form := .text

/-- The pass over the text, whatever references mean. -/
def singleQuotesFold (resolver : Resolver) (index : Nat) (path : Text) : FoldContext where
  source := singleQuotes index path
  resolver := resolver
  transform := .done
  options := { property := ['t'], quote := .double }

theorem fold_singleQuotes (resolver : Resolver) (index : Nat) (path : Text) :
    (singleQuotesFold resolver index path).fold.replacements ≠ [] ∧
      (singleQuotesFold resolver index path).fold.text = ['t', ':', '"', 'a', '"'] := by
  obtain ⟨value, hvalue, hreplaced, hspan, hpasses⟩ :
      ∃ value, (singleQuotesFold resolver index path).value?
          (.top (singleQuotes index path).tree) = some value ∧
        (singleQuotes index path).textOf value.node = ['\'', 'a', '\''] ∧
        value.node.span = ⟨2, 5⟩ ∧
        (singleQuotesFold resolver index path).Passes value ['a'] := by
    refine ⟨_, rfl, rfl, rfl, FoldContext.passes_of_literalText? rfl ?_ ?_ rfl⟩
    · simp [Position.node, Tree.piece, Tree.node, singleQuotes, Position.top]
    · show (singleQuotes 0 []).literalText? (.piece .string (some .value) 2 5 []) = some ['a']
      decide +kernel
  have hencode : Literal.encode .double ['a'] = ['"', 'a', '"'] := by decide
  have hreplacements : (singleQuotesFold resolver index path).fold.replacements =
      [Outcome.writing (singleQuotes index path) value ['"', 'a', '"']] := by
    have houtcomes := FoldContext.outcomesAt_of_ok hvalue
      (FoldContext.verdict_eq_ok_iff.mpr hpasses)
    rw [FoldContext.fold_replacements, FoldContext.outcomes]
    change List.filterMap (Outcome.replacement? (singleQuotes index path))
      ((singleQuotesFold resolver index path).outcomesAt (.top (singleQuotes index path).tree)) = _
    rw [houtcomes]
    change List.filterMap (Outcome.replacement? (singleQuotes index path))
      [.folded value (Literal.encode .double ['a'])] = _
    simp [hencode, Outcome.replacement?, hreplaced]
  refine ⟨by simp [hreplacements], ?_⟩
  change Edit.splice (singleQuotes index path).text
    ((singleQuotesFold resolver index path).fold.replacements.map (·.toEdit)) = _
  rw [hreplacements]
  simp only [List.map_cons, List.map_nil, Outcome.writing, hspan]
  show Edit.splice ['t', ':', '\'', 'a', '\''] [⟨⟨2, 5⟩, ['"', 'a', '"']⟩] = _
  decide +kernel

theorem folds_singleQuotes :
    ∃ f g, Folds singleQuotesWorld singleQuotesRequest [f, g] ∧
      f.path = ['a', '.', 't', 's'] ∧ g.path = ['b', '.', 't', 's'] ∧
      (f.replacements ≠ [] ∧ f.text = ['t', ':', '"', 'a', '"']) ∧ g.replacements ≠ [] := by
  have hsettings : settingsFor singleQuotesWorld singleQuotesRequest =
      .ok { fold := { property := ['t'], transform := .identity } } := by
    decide +kernel
  have hfiles : Project.discoverWith singleQuotesWorld.store {} singleQuotesRequest.paths =
      .ok [['a', '.', 't', 's'], ['b', '.', 't', 's']] := by
    obtain ⟨filter, hfilter⟩ : ∃ filter, Project.filterOf {} = .ok filter := by
      have hok : (Project.filterOf {}).isOk = true := by decide +kernel
      cases h : Project.filterOf {} with
      | ok filter => exact ⟨filter, rfl⟩
      | error e =>
        rw [h] at hok
        cases hok
    have hfound : singleQuotesRequest.paths.mapM
        (Project.filesOf singleQuotesWorld.store filter) =
          .ok [[['a', '.', 't', 's']], [['b', '.', 't', 's']]] := rfl
    simp only [Project.discoverWith, hfilter, Project.discover, bind, Except.bind, hfound]
    rw [List.mergeSort_of_pairwise (by decide)]
    simp only [List.flatten_cons, List.flatten_nil, List.cons_append, List.nil_append,
      Project.dropRepeats]
    rw [if_neg (by decide)]
  have hfirst : Project.loadSource singleQuotesWorld.store singleQuotesWorld.grammar
      ['a', '.', 't', 's'] = .ok (singleQuotes 0 ['a', '.', 't', 's']) := rfl
  have hsecond : Project.loadSource singleQuotesWorld.store singleQuotesWorld.grammar
      ['b', '.', 't', 's'] = .ok (singleQuotes 0 ['b', '.', 't', 's']) := rfl
  have hfold := fold_singleQuotes (Program.ofSources [singleQuotes 0 ['a', '.', 't', 's'],
    singleQuotes 0 ['b', '.', 't', 's']]).resolver
  exact ⟨_, _, .intro hsettings hfiles (.cons hfirst (.cons hsecond .nil)), rfl, rfl, hfold 0 _,
    (hfold 1 _).1⟩

/-- The first file is rewritten with double quotes and the second is left alone, though the check
tells the paths of both. -/
theorem write_rewrites_singleQuotes :
    Request.read (singleQuotesArguments "--write") = .ok singleQuotesRequest ∧
      Request.read (singleQuotesArguments "--check") = .ok singleQuotesRequest.checking ∧
      (run singleQuotesWorld (singleQuotesArguments "--write")).code = 1 ∧
      (run singleQuotesWorld (singleQuotesArguments "--write")).store.get?
        [['a', '.', 't', 's']] = some (.file (.text ['t', ':', '"', 'a', '"'])) ∧
      (run singleQuotesWorld (singleQuotesArguments "--write")).store.get?
        [['b', '.', 't', 's']] = some (.file (.text ['t', ':', '\'', 'a', '\''])) ∧
      (run singleQuotesWorld (singleQuotesArguments "--check")).code = 1 ∧
      (run singleQuotesWorld (singleQuotesArguments "--check")).output =
        ['a', '.', 't', 's', '\n', 'b', '.', 't', 's', '\n'] ∧
      (run singleQuotesWorld (singleQuotesArguments "--check")).store =
        singleQuotesWorld.store := by
  have hargs : Request.read (singleQuotesArguments "--write") = .ok singleQuotesRequest := by
    decide +kernel
  have hchecking : Request.read (singleQuotesArguments "--check") =
      .ok singleQuotesRequest.checking := by
    decide +kernel
  obtain ⟨f, g, hfolds, hf, hg, ⟨hreplaced, htext⟩, hreplaced'⟩ := folds_singleQuotes
  obtain ⟨hquiet, hwrite⟩ := command_changes_only_what_it_reports singleQuotesWorld
  obtain ⟨folded, hfolds', ⟨written, unwritten, middle, hsplit, htaken, hmiddle, -, hfails⟩,
    hcheck⟩ := (hwrite _ _ hargs rfl).2 hfolds.not_stops
  obtain rfl := hfolds'.unique hfolds
  have hchanged : [f, g].filter (·.replacements ≠ []) = [f, g] := by simp [hreplaced, hreplaced']
  rw [hchanged] at hsplit hcheck
  have hfollow : singleQuotesWorld.store.follow f.path = .ok [['a', '.', 't', 's']] := by
    rw [hf]
    decide +kernel
  have hfollow' : singleQuotesWorld.store.follow g.path = .ok [['b', '.', 't', 's']] := by
    rw [hg]
    decide +kernel
  have htakes : singleQuotesWorld.store.Takes f.path f.text := by
    refine ⟨_, ⟨hfollow, _, rfl⟩, .inr ⟨5, rfl, ?_⟩⟩
    rw [htext]
    decide +kernel
  have hsecond : singleQuotesWorld.store.LeadsToFile g.path [['b', '.', 't', 's']] :=
    ⟨hfollow', _, rfl⟩
  have hrefused : ¬ singleQuotesWorld.store.Takes g.path g.text :=
    (Store.Refuses.readOnly hsecond rfl).not_takes
  -- so the first source is written, and the second is where the writing ends
  obtain ⟨rfl, rfl⟩ : written = [f] ∧ unwritten = [g] := by
    match written, hsplit with
    | [], hsplit => exact absurd htakes (hfails f [g] hsplit.symm).1
    | [_], hsplit =>
      obtain ⟨rfl, hrest⟩ := List.cons.inj hsplit
      exact ⟨rfl, hrest.symm⟩
    | _ :: _ :: _, hsplit =>
      obtain ⟨rfl, hrest⟩ := List.cons.inj hsplit
      obtain ⟨rfl, -⟩ := List.cons.inj hrest
      exact absurd (htaken g (by simp)) hrefused
  obtain ⟨-, hcode, hrefuses⟩ := hfails g [] rfl
  have hstore : (run singleQuotesWorld (singleQuotesArguments "--write")).store = middle := by
    apply hrefuses.eq_of_readOnly (hsecond.of_sameShape hmiddle.shape)
    rw [hmiddle.shape.obstacle?_eq]
    rfl
  obtain ⟨hcode', houtput⟩ := hcheck _ hchecking
  refine ⟨hargs, hchecking, hcode, ?_, ?_, hcode', ?_, ?_⟩
  · rw [hstore, ← htext]
    exact hmiddle.last [] f [] _ rfl hfollow (by simp)
  · rw [hstore]
    refine hmiddle.kept _ ?_
    simp [hfollow]
  · rw [houtput, pathLines]
    simp [hf, hg]
  · apply hquiet
    intro request hrequest
    rw [hchecking] at hrequest
    cases hrequest
    rfl

/-- A path that leads nowhere: nothing would be written, and still the check fails. -/
theorem check_fails_though_nothing_would_be_written :
    let world : World := { store := {}, grammar := fun _ _ => none }
    (run world (["rewrite", "--write", "a.ts"].map String.toList)).store.entries = [] ∧
      (run world (["rewrite", "--check", "a.ts"].map String.toList)).output = [] ∧
      (run world (["rewrite", "--check", "a.ts"].map String.toList)).code = 1 := by
  decide +kernel

end Command

end LiteralFolding
