-- A project: the sources that some paths name, found in a store, folded, and written back.
import LiteralFolding.Files.Filter
import LiteralFolding.Files.Store
import LiteralFolding.Program

namespace LiteralFolding

/-- Why a project cannot be folded. -/
inductive ProjectError where
  | badPattern (pattern : Text) (error : GlobError)
  | noPath (path : Text)
  | unreadable (path : Text) (error : AccessError)
  | noSource (path : Text) (error : SourceError)
  | unwritable (path : Text) (error : AccessError)
  deriving DecidableEq, Repr

def ProjectError.message : ProjectError → Text
  | .badPattern pattern e => patternMessage pattern e
  | .noPath path => "Path does not exist: ".toList ++ path
  | .unreadable path e => "Failed to read ".toList ++ path ++ ": ".toList ++ e.message.toList
  | .noSource path e => "Failed to parse ".toList ++ path ++ ": ".toList ++ e.message
  | .unwritable path e => "Failed to write ".toList ++ path ++ ": ".toList ++ e.message.toList

/-- Why sources were not all written back, and what is left of the store. -/
structure WriteFailure where
  error : ProjectError
  store : Store

instance : Coe WriteFailure ProjectError := ⟨WriteFailure.error⟩

namespace Project

/-! ## Finding sources -/

/-- Is the file below a walked directory one of the sources? No name on the way may be left
out. -/
def keeps (filter : FileFilter) (names : Place) : Bool :=
  !names.any filter.ignores && names.getLast?.any filter.isSource

/-- The files that a path stands for: itself, or the sources below it. -/
def filesOf (store : Store) (filter : FileFilter) (path : Text) : Except ProjectError (List Text) :=
  match store.follow path with
  | .error _ => .error (.noPath path)
  | .ok place =>
    match store.get? place with
    | none => .error (.noPath path)
    | some (.file _) => .ok [path]
    | some .directory =>
      .ok (((store.filesBelow place).filter (keeps filter)).map (·.foldl Path.join path))

/-- Drops every path that equals the one before it. -/
def dropRepeats : List Text → List Text
  | a :: b :: rest =>
    if Path.components a = Path.components b then dropRepeats (a :: rest)
    else a :: dropRepeats (b :: rest)
  | paths => paths
termination_by paths => paths.length

/-- The files that some paths stand for, in order and each once. -/
def discover (store : Store) (filter : FileFilter) (paths : List Text) : Except ProjectError (List Text) := do
  let found ← paths.mapM (filesOf store filter)
  let ordered := found.flatten.mergeSort fun a b => Path.le (Path.components a) (Path.components b)
  .ok (dropRepeats ordered)

/-! ## Folding -/

def loadSource (store : Store) (grammar : Grammar) (path : Text) : Except ProjectError Source :=
  match store.read path with
  | .error e => .error (.unreadable path e)
  | .ok text =>
    match Source.read grammar path text with
    | .error e => .error (.noSource path e)
    | .ok source => .ok source

def load (store : Store) (grammar : Grammar) (files : List Text) : Except ProjectError Program :=
  (files.mapM (loadSource store grammar)).map Program.ofSources

def fold (settings : FoldSettings) (program : Program) : List FoldedSource :=
  program.foldAll program.resolver settings.transform.transform settings.options

def filterOf (settings : FileSettings) : Except ProjectError FileFilter :=
  match FileFilter.ofSettings settings with
  | .ok filter => .ok filter
  | .error (pattern, e) => .error (.badPattern pattern e)

def discoverWith (store : Store) (settings : FileSettings) (paths : List Text) :
    Except ProjectError (List Text) := do
  discover store (← filterOf settings) paths

/-- Finds, reads and folds what some paths name. -/
def run (store : Store) (grammar : Grammar) (settings : Settings) (paths : List Text) :
    Except ProjectError (List FoldedSource) := do
  let files ← discoverWith store settings.files paths
  let program ← load store grammar files
  .ok (fold settings.fold program)

def changed (folded : List FoldedSource) : List FoldedSource := folded.filter (·.isChanged)

def writeOne (store : Store) (f : FoldedSource) : Except WriteFailure Store :=
  match store.write f.path f.text with
  | .ok store => .ok store
  | .error (e, left) => .error { error := .unwritable f.path e, store := left }

/-- Writes the changed sources back, up to the first that cannot be written. -/
def write (store : Store) (folded : List FoldedSource) : Except WriteFailure Store :=
  (changed folded).foldlM writeOne store

end Project

end LiteralFolding
