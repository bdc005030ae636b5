-- Reports of a pass, for people and for programs.
import LiteralFolding.Report.Value

namespace LiteralFolding

/-- Counts over all sources of a pass. -/
structure Totals where
  files : Nat
  changedFiles : Nat
  folded : Nat
  unchanged : Nat
  skipped : Nat
  deriving DecidableEq, Repr

namespace Totals

def of (folded : List FoldedSource) : Totals :=
  { files := folded.length
    changedFiles := folded.countP (·.isChanged)
    folded := (folded.map (·.replacements.length)).foldl Nat.add 0
    unchanged := (folded.map (·.unchanged)).foldl Nat.add 0
    skipped := (folded.map (·.skipped.length)).foldl Nat.add 0 }

def json (t : Totals) : JsonValue :=
  .object [("files", .number t.files), ("changed_files", .number t.changedFiles),
    ("folded", .number t.folded), ("unchanged", .number t.unchanged), ("skipped", .number t.skipped)]

def line (t : Totals) : Text :=
  s!"{t.folded} folded, {t.unchanged} already folded, {t.skipped} skipped in {t.changedFiles} of {t.files} files\n".toList

end Totals

namespace Report

/-- The start of a literal that is too long for a line. -/
def preview (literal : Text) : Text :=
  if literal.length ≤ 60 then literal else literal.take 60 ++ "...".toList

def sourceLines (f : FoldedSource) : Text :=
  f.path ++ ['\n'] ++
    (f.replacements.flatMap fun r =>
      "  ".toList ++ r.location.text ++ " folded to ".toList ++ preview r.literal ++ ['\n']) ++
    (f.skipped.flatMap fun s =>
      "  ".toList ++ s.location.text ++ " skipped: ".toList ++ s.reason.message ++ ['\n']) ++
    (if 0 < f.unchanged then s!"  {f.unchanged} already folded\n".toList else [])

/-- The sources that a report speaks of: those with any occurrence. -/
def listed (folded : List FoldedSource) : List FoldedSource :=
  folded.filter fun f => decide (0 < f.occurrences)

def text (folded : List FoldedSource) : Text :=
  (listed folded).flatMap sourceLines ++ (Totals.of folded).line

def json (folded : List FoldedSource) : Text :=
  JsonValue.pretty 0 (.object [("totals", (Totals.of folded).json),
    ("files", .array ((listed folded).map (·.json)))])

end Report

end LiteralFolding
