-- A store of files: directories and files by their names from the root down. Paths are
-- followed step by step, and every step but the last has to be a directory. A file that can be
-- read need not take what is written to it.
import LiteralFolding.Text.Encoded

namespace LiteralFolding

/-- The names from the root of a store down to one of its places. -/
abbrev Place := List Text

inductive Content where
  | text (t : Text)
  /-- Bytes that are no text. -/
  | bytes (bs : List UInt8)
  deriving DecidableEq, Repr

namespace Content

def ofBytes (bs : List UInt8) : Content :=
  match Text.decoded? bs with
  | some t => .text t
  | none => .bytes bs

/-- What can be read of the content. -/
def legible : Content → Text
  | .text t => t
  | .bytes bs => Text.legible bs

end Content

/-- What is at a place. -/
inductive FileEntry where
  | directory
  | file (content : Content)
  deriving DecidableEq, Repr

/-- What keeps a file from taking a text. -/
inductive Obstacle where
  | readOnly
  /-- So many bytes can be written and no more. -/
  | room (bytes : Nat)
  deriving DecidableEq, Repr

/-- Why a path gives no text, or takes none. -/
inductive AccessError where
  | missing
  | notDirectory
  | isDirectory
  | notText
  | denied
  | full
  deriving DecidableEq, Repr

def AccessError.message : AccessError → String
  | .missing => "No such file or directory (os error 2)"
  | .notDirectory => "Not a directory (os error 20)"
  | .isDirectory => "Is a directory (os error 21)"
  | .notText => "stream did not contain valid UTF-8"
  | .denied => "Permission denied (os error 13)"
  | .full => "No space left on device (os error 28)"

/-- Files and directories, and where relative paths start. -/
structure Store where
  working : Place := []
  entries : List (Place × FileEntry) := []
  /-- The places of files that do not take every text. -/
  obstacles : List (Place × Obstacle) := []

namespace Store

/-! ## Looking -/

/-- What is at a place. The root is always there. -/
def get? (store : Store) (place : Place) : Option FileEntry :=
  if place = [] then some .directory
  else (store.entries.find? fun e => e.1 = place).map (·.2)

def obstacle? (store : Store) (place : Place) : Option Obstacle :=
  (store.obstacles.find? fun o => o.1 = place).map (·.2)

def step (store : Store) (place : Place) (piece : Text) : Except AccessError Place :=
  match store.get? place with
  | none => .error .missing
  | some (.file _) => .error .notDirectory
  | some .directory =>
    if piece = [] ∨ piece = ['.'] then .ok place
    else if piece = ['.', '.'] then .ok place.dropLast
    else if (store.get? (place ++ [piece])).isSome then .ok (place ++ [piece])
    else .error .missing

/-- The place that a path leads to. -/
def follow (store : Store) (path : Text) : Except AccessError Place :=
  match path with
  | [] => .error .missing
  | c :: _ =>
    (Text.splitAt '/' path).foldlM store.step (if c = '/' then [] else store.working)

/-- What a path leads to. -/
def lookup (store : Store) (path : Text) : Option FileEntry :=
  match store.follow path with
  | .ok place => store.get? place
  | .error _ => none

def has (store : Store) (path : Text) : Bool := (store.lookup path).isSome

def isFile (store : Store) (path : Text) : Bool :=
  match store.lookup path with
  | some (.file _) => true
  | _ => false

def content (store : Store) (path : Text) : Except AccessError Content := do
  let place ← store.follow path
  match store.get? place with
  | some (.file content) => .ok content
  | some .directory => .error .isDirectory
  | none => .error .missing

def read (store : Store) (path : Text) : Except AccessError Text := do
  match ← store.content path with
  | .text t => .ok t
  | .bytes _ => .error .notText

/-- The places of files below a directory, each as the names that lead there. -/
def filesBelow (store : Store) (directory : Place) : List Place :=
  store.entries.filterMap fun (place, entry) =>
    match entry with
    | .directory => none
    | .file _ =>
      if directory <+: place then some (place.drop directory.length) else none

/-! ## Changing -/

/-- Puts an entry at a place, over the one that was there. -/
def put (store : Store) (place : Place) (entry : FileEntry) : Store :=
  { store with entries := store.entries.filter (fun e => e.1 ≠ place) ++ [(place, entry)] }

/-- The places above a place and the place itself, the topmost first. -/
def along : Place → List Place
  | [] => []
  | name :: names => [name] :: (along names).map (name :: ·)

/-- Makes a directory with all that are above it. -/
def addDirectory (store : Store) (place : Place) : Store :=
  (along place).foldl
    (fun s p => if (s.get? p).isSome then s else s.put p .directory) store

/-- Makes a file and the directories above it. -/
def addFile (store : Store) (place : Place) (content : Content) : Store :=
  (store.addDirectory place.dropLast).put place (.file content)

/-- Gives the file at a place a new text, or as much of it as there is room for. A failure tells
what is left of the store. -/
def writeAt (store : Store) (place : Place) (text : Text) : Except (AccessError × Store) Store :=
  match store.obstacle? place with
  | none => .ok (store.put place (.file (.text text)))
  | some .readOnly => .error (.denied, store)
  | some (.room n) =>
    let bytes := Text.encoded text
    if bytes.length ≤ n then .ok (store.put place (.file (.text text)))
    else .error (.full, store.put place (.file (.ofBytes (bytes.take n))))

/-- Gives the file that a path leads to a new text. -/
def write (store : Store) (path text : Text) : Except (AccessError × Store) Store :=
  match store.follow path with
  | .error e => .error (e, store)
  | .ok place =>
    match store.get? place with
    | some (.file _) => store.writeAt place text
    | some .directory => .error (.isDirectory, store)
    | none => .error (.missing, store)

/-- The files whose text differs from what it was, with their new text. -/
def changedSince (store before : Store) : List (Place × Text) :=
  store.entries.filterMap fun (place, entry) =>
    match entry with
    | .file (.text text) => if before.get? place = some entry then none else some (place, text)
    | _ => none

end Store

end LiteralFolding
