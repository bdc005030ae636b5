-- Patterns for file names. `?` stands for one character, `*` for any run of characters, `**`
-- for whole directories, and brackets for one character of a set. A slash is a character
-- like any other for the first two.
import LiteralFolding.Text.Basic

namespace LiteralFolding

/-- A member of a bracketed set. -/
inductive CharClass where
  | single (c : Char)
  | range (first last : Char)
  deriving DecidableEq, Repr

def CharClass.has (c : Char) : CharClass → Bool
  | .single d => c = d
  | .range first last => first ≤ c && c ≤ last

/-- One piece of a pattern. -/
inductive GlobToken where
  | exactly (c : Char)
  /-- Any one character. -/
  | anyChar
  /-- Any run of characters. -/
  | anyRun
  /-- Any run of whole directories; at the end of a pattern, anything. -/
  | directories
  /-- A character of the classes, or with `negated` one outside them. -/
  | set (negated : Bool) (classes : List CharClass)
  deriving DecidableEq, Repr

/-- Does the piece stand for this one character? -/
def GlobToken.admits (c : Char) : GlobToken → Bool
  | .exactly d => d = c
  | .anyChar => true
  | .set negated classes => classes.any (·.has c) != negated
  | .anyRun | .directories => false

/-- Why a text is no pattern. -/
inductive GlobFault where
  /-- Three stars or more stand together. -/
  | tooManyStars
  /-- Two stars share their component with something else. -/
  | partialDirectories
  /-- A bracket opens no set. -/
  | badSet
  deriving DecidableEq, Repr

/-- A fault and the number of characters before it. -/
structure GlobError where
  position : Nat
  fault : GlobFault
  deriving DecidableEq, Repr

def GlobFault.message : GlobFault → String
  | .tooManyStars => "wildcards are either regular `*` or recursive `**`"
  | .partialDirectories => "recursive wildcards must form a single path component"
  | .badSet => "invalid range pattern"

def GlobError.message (e : GlobError) : Text :=
  s!"Pattern syntax error near position {e.position}: {e.fault.message}".toList

structure Glob where
  tokens : List GlobToken
  deriving DecidableEq, Repr

namespace Glob

/-! ## Reading -/

/-- The members of a set: `a-z` is a range, everything else stands for itself. -/
def classes : Text → List CharClass
  | a :: '-' :: b :: t => .range a b :: classes t
  | c :: t => .single c :: classes t
  | [] => []

/-- What follows an opening bracket: the set, how many characters it took, and the rest. The
first character of a set is a member whatever it is. -/
def set? : Text → Option (GlobToken × Nat × Text)
  | '!' :: first :: t =>
    (Text.cutAt [']'] t).map fun (more, rest) =>
      (.set true (classes (first :: more)), more.length + 3, rest)
  | '!' :: [] => none
  | first :: t =>
    (Text.cutAt [']'] t).map fun (more, rest) =>
      (.set false (classes (first :: more)), more.length + 2, rest)
  | [] => none

theorem set?_length_lt {t rest : Text} {token : GlobToken} {used : Nat}
    (h : set? t = some (token, used, rest)) : rest.length < t.length := by
  unfold set? at h
  split at h
  case h_1 | h_3 =>
    obtain ⟨⟨more, after⟩, hcut, heq⟩ := Option.map_eq_some_iff.mp h
    simp only [Prod.mk.injEq] at heq
    rw [Text.eq_of_cutAt hcut, ← heq.2.2]
    simp
    omega
  all_goals simp at h

/-- Reads the characters from number `position` on; `previous` is the one before them. -/
def readFrom (position : Nat) (previous : Option Char) : Text → Except GlobError (List GlobToken)
  | [] => .ok []
  | '?' :: t => (readFrom (position + 1) (some '?') t).map (.anyChar :: ·)
  | '*' :: '*' :: '*' :: _ => .error ⟨position + 2, .tooManyStars⟩
  | '*' :: '*' :: t =>
    if previous = none ∨ previous = some '/' then
      match t with
      | [] => .ok [.directories]
      | '/' :: t => (readFrom (position + 3) (some '/') t).map (.directories :: ·)
      | _ => .error ⟨position + 2, .partialDirectories⟩
    else .error ⟨position - 1, .partialDirectories⟩
  | '*' :: t => (readFrom (position + 1) (some '*') t).map (.anyRun :: ·)
  | '[' :: t =>
    match h : set? t with
    | none => .error ⟨position, .badSet⟩
    | some (token, used, rest) =>
      have := set?_length_lt h
      (readFrom (position + 1 + used) (some ']') rest).map (token :: ·)
  | c :: t => (readFrom (position + 1) (some c) t).map (.exactly c :: ·)
termination_by t => t.length

def read (pattern : Text) : Except GlobError Glob := (readFrom 0 none pattern).map Glob.mk

/-! ## Matching -/

/-- All ends of a text, from the whole to the empty one. -/
def ends : Text → List Text
  | [] => [[]]
  | c :: t => (c :: t) :: ends t

/-- What follows each slash of a text. -/
def afterSlashes : Text → List Text
  | [] => []
  | c :: t => if c = '/' then t :: afterSlashes t else afterSlashes t

/-- Do the pieces cover the whole text? -/
def cover : List GlobToken → Text → Bool
  | [], t => t.isEmpty
  | .anyRun :: tokens, t => (ends t).any (cover tokens)
  | .directories :: tokens, t =>
    tokens.isEmpty || cover tokens t || (afterSlashes t).any (cover tokens)
  | _ :: _, [] => false
  | token :: tokens, c :: t => token.admits c && cover tokens t

/-! Matching is decided for all ends of the text at once, so that no piece is tried twice at
one place. The answers stand in one row, the one for the whole text first. -/

/-- Of each answer in a row, is it or one after it true? -/
def someFrom : List Bool → List Bool
  | [] => []
  | b :: row =>
    let rest := someFrom row
    (b || rest.head?.getD false) :: rest

/-- For each end of the text, is the answer after one of its slashes true? -/
def someAfterSlash : Text → List Bool → List Bool
  | c :: t, _ :: row =>
    let rest := someAfterSlash t row
    ((c = '/' && row.head?.getD false) || rest.head?.getD false) :: rest
  | _, row => row.map fun _ => false

/-- For each end of the text, does the piece take its first character and leave an end whose
answer is true? -/
def takingOne (token : GlobToken) : Text → List Bool → List Bool
  | c :: t, _ :: row => (token.admits c && row.head?.getD false) :: takingOne token t row
  | _, row => row.map fun _ => false

/-- For each end of a text, do the pieces cover it? -/
def coverEnds : List GlobToken → Text → List Bool
  | [], t => (ends t).map List.isEmpty
  | .anyRun :: tokens, t => someFrom (coverEnds tokens t)
  | .directories :: tokens, t =>
    let row := coverEnds tokens t
    if tokens.isEmpty then row.map fun _ => true
    else List.zipWith (· || ·) row (someAfterSlash t row)
  | token :: tokens, t => takingOne token t (coverEnds tokens t)

/-- Does the pattern match the whole text? -/
def accepts (glob : Glob) (t : Text) : Bool := (coverEnds glob.tokens t).head?.getD false

/-! The row is what trying every end one by one gives. -/

theorem head?_map_ends (f : Text → Bool) (t : Text) : ((ends t).map f).head? = some (f t) := by
  cases t <;> rfl

theorem someFrom_map_ends (f : Text → Bool) (t : Text) :
    someFrom ((ends t).map f) = (ends t).map fun u => (ends u).any f := by
  induction t with
  | nil => simp [ends, someFrom]
  | cons c t ih =>
    rw [ends, List.map_cons, someFrom, ih, List.map_cons]
    simp only [head?_map_ends, Option.getD_some, ends, List.any_cons]

theorem someAfterSlash_map_ends (f : Text → Bool) (t : Text) :
    someAfterSlash t ((ends t).map f) = (ends t).map fun u => (afterSlashes u).any f := by
  induction t with
  | nil => simp [ends, someAfterSlash, afterSlashes]
  | cons c t ih =>
    rw [ends, List.map_cons, someAfterSlash, ih, List.map_cons]
    simp only [head?_map_ends, Option.getD_some, afterSlashes]
    by_cases h : c = '/' <;> simp [h]

theorem takingOne_map_ends (token : GlobToken) (f : Text → Bool) (t : Text) :
    takingOne token t ((ends t).map f) =
      (ends t).map fun u => u.head?.any (token.admits ·) && f u.tail := by
  induction t with
  | nil => simp [ends, takingOne]
  | cons c t ih =>
    rw [ends, List.map_cons, takingOne, ih, List.map_cons]
    simp only [head?_map_ends, Option.getD_some, List.head?_cons, Option.any_some, List.tail_cons]

theorem coverEnds_eq (tokens : List GlobToken) (t : Text) :
    coverEnds tokens t = (ends t).map (cover tokens) := by
  induction tokens with
  | nil => simp [coverEnds, cover]
  | cons token tokens ih =>
    cases token with
    | anyRun =>
      simp only [coverEnds, ih, someFrom_map_ends]
      exact List.map_congr_left fun u _ => by rw [cover]
    | directories =>
      simp only [coverEnds, ih, someAfterSlash_map_ends]
      cases tokens with
      | nil => simp [cover]
      | cons next tokens =>
        simp [List.zipWith_map, List.zipWith_self, cover]
    | exactly d =>
      rw [coverEnds, ih, takingOne_map_ends]
      · exact List.map_congr_left fun u _ => by cases u <;> simp [cover]
      all_goals simp
    | anyChar =>
      rw [coverEnds, ih, takingOne_map_ends]
      · exact List.map_congr_left fun u _ => by cases u <;> simp [cover]
      all_goals simp
    | set negated classes =>
      rw [coverEnds, ih, takingOne_map_ends]
      · exact List.map_congr_left fun u _ => by cases u <;> simp [cover]
      all_goals simp

theorem accepts_eq_cover (glob : Glob) (t : Text) : glob.accepts t = cover glob.tokens t := by
  rw [accepts, coverEnds_eq, head?_map_ends]
  rfl

end Glob

end LiteralFolding
