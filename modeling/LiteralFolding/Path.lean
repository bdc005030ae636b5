-- Paths of files, read as the components between their slashes.
import LiteralFolding.Text.Basic

namespace LiteralFolding

/-- One step of a path. -/
inductive Component where
  | root
  | current
  | parent
  | normal (name : Text)
  deriving DecidableEq, Repr

namespace Component

/-- The order of components: the marked ones first, then by name. -/
def le : Component → Component → Bool
  | .root, _ => true
  | .current, .root => false
  | .current, _ => true
  | .parent, .root | .parent, .current => false
  | .parent, _ => true
  | .normal a, .normal b => !(decide (b < a))
  | .normal _, _ => false

end Component

namespace Path

/-- The step that a piece between slashes stands for; an empty one and `.` are no step. -/
def component? (piece : Text) : Option Component :=
  if piece = [] ∨ piece = ['.'] then none
  else if piece = ['.', '.'] then some .parent
  else some (.normal piece)

/-- The components of a path. Repeated slashes and inner `.` vanish; a leading slash and a
leading `.` stay. -/
def components (path : Text) : List Component :=
  let pieces := Text.splitAt '/' path
  let steps := pieces.filterMap component?
  match path with
  | '/' :: _ => .root :: steps
  | _ => if pieces.head? = some ['.'] then .current :: steps else steps

def fileName? (path : Text) : Option Text :=
  match (components path).getLast? with
  | some (.normal name) => some name
  | _ => none

/-- What follows the last dot of a name, unless that dot comes first. -/
def extensionOfName? (name : Text) : Option Text :=
  match name.reverse.dropWhile (· ≠ '.') with
  | [] => none
  | [_] => none
  | _ => some (name.reverse.takeWhile (· ≠ '.')).reverse

def extension? (path : Text) : Option Text := (fileName? path).bind extensionOfName?

def join (directory name : Text) : Text :=
  if directory = [] ∨ directory.getLast? = some '/' then directory ++ name
  else directory ++ '/' :: name

def le (a b : List Component) : Bool :=
  match a, b with
  | [], _ => true
  | _ :: _, [] => false
  | x :: xs, y :: ys => if x = y then le xs ys else x.le y

end Path

end LiteralFolding
