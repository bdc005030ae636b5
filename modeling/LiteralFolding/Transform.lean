-- Transforms of a folded text: as it is, in capitals, or with the white space and comments
-- of its markup reduced.
import LiteralFolding.Text.Blank
import LiteralFolding.Text.Case.Upper

namespace LiteralFolding

/-- Why a transform gave no text. -/
inductive TransformError where
  /-- The transform refused the text. -/
  | rejected (message : Text)
  /-- The transform broke off. -/
  | brokeOff (message : Text)
  deriving DecidableEq, Repr

def TransformError.message : TransformError → Text
  | .rejected m => "transform rejected the template: ".toList ++ m
  | .brokeOff m => "transform panicked: ".toList ++ m

/-- What comes of one use of a transform. -/
inductive Attempt where
  | done (text : Text)
  | refused (message : Text)
  /-- It broke off, with a message if it left one. -/
  | broke (message : Option Text)
  deriving DecidableEq, Repr

abbrev Transform := Text → Attempt

/-- Uses a transform; every failure becomes an error. -/
def Transform.run (f : Transform) (t : Text) : Except TransformError Text :=
  match f t with
  | .done text => .ok text
  | .refused m => .error (.rejected m)
  | .broke m => .error (.brokeOff (m.getD "unknown panic payload".toList))

/-- The transforms that settings can name. -/
inductive TransformKind where
  | identity
  | uppercase
  | minify
  deriving DecidableEq, Repr

namespace Markup

def commentOpen : Text := ['<', '!', '-', '-']

def commentClose : Text := ['-', '-', '>']

/-- The text outside comments; none when a comment does not end. -/
def stripComments? (t : Text) : Option Text :=
  match h : Text.cutAt commentOpen t with
  | none => some t
  | some (before, body) =>
    match h' : Text.cutAt commentClose body with
    | none => none
    | some (_, rest) =>
      have : rest.length < t.length := by
        rw [Text.eq_of_cutAt h, Text.eq_of_cutAt h']
        simp [commentOpen]
        omega
      (stripComments? rest).map (before ++ ·)
termination_by t.length

/-- Writes the characters left to right: a run of white space becomes one space, and none
stays at the ends or between `>` and `<`. `last` is the last character written and `gap` says
that white space came after it. -/
def collapseAfter (last : Option Char) (gap : Bool) : Text → Text
  | [] => []
  | c :: t =>
    if Text.isBlank c then collapseAfter last true t
    else if gap && last.isSome && !(last = some '>' && c = '<') then
      ' ' :: c :: collapseAfter (some c) false t
    else c :: collapseAfter (some c) false t

/-- White space reduced to what separates words. -/
def collapse (t : Text) : Text := collapseAfter none false t

/-- Comments out, white space reduced. -/
def minify : Transform := fun t =>
  match stripComments? t with
  | none => .refused "unterminated HTML comment".toList
  | some stripped => .done (collapse stripped)

end Markup

def TransformKind.transform : TransformKind → Transform
  | .identity => .done
  | .uppercase => fun t => .done (Text.upper t)
  | .minify => Markup.minify

end LiteralFolding
