-- What a pass did, as JSON values.
import LiteralFolding.Folding
import LiteralFolding.Report.Json

namespace LiteralFolding

open JsonValue

def Location.json (l : Location) : JsonValue :=
  object [("start_line", number l.startLine), ("end_line", number l.endLine),
    ("start_column", number l.startColumn), ("end_column", number l.endColumn)]

def Span.json (s : Span) : JsonValue := object [("start", number s.start), ("end", number s.stop)]

def FragmentError.json : FragmentError → JsonValue
  | .unsupportedOperator operator location =>
    object [("kind", string "unsupported_operator".toList), ("operator", string operator.name.toList),
      ("location", location.json)]
  | .unresolvedReference path location =>
    object [("kind", string "unresolved_reference".toList), ("path", string path),
      ("location", location.json)]
  | .unsupportedNode kind text location =>
    object [("kind", string "non_traversable_node".toList), ("node_kind", string kind.name.toList),
      ("text", string text), ("location", location.json)]

def TransformError.json : TransformError → JsonValue
  | .rejected m => object [("kind", string "rejected".toList), ("message", string m)]
  | .brokeOff m => object [("kind", string "panicked".toList), ("message", string m)]

/-- The members that tell a reason to skip. -/
def Skip.members : Skip → List (String × JsonValue)
  | .notEntry kind =>
    [("reason", string "not_entry_node".toList), ("kind", string kind.name.toList)]
  | .traversal error => [("reason", string "traversal".toList), ("error", error.json)]
  | .syntaxError => [("reason", string "syntax_error".toList)]
  | .empty => [("reason", string "empty".toList)]
  | .transform error => [("reason", string "transform".toList), ("error", error.json)]

def Skip.json (reason : Skip) : JsonValue := object reason.members

def Replacement.json (r : Replacement) : JsonValue :=
  object [("location", r.location.json), ("range", r.span.json), ("original", string r.replaced),
    ("literal", string r.literal)]

def Skipped.json (s : Skipped) : JsonValue :=
  object (("location", s.location.json) :: s.reason.members)

/-- The value of a folded source, without its text. -/
def FoldedSource.json (f : FoldedSource) : JsonValue :=
  object [("path", string f.path), ("replacements", array (f.replacements.map (·.json))),
    ("skipped", array (f.skipped.map (·.json))), ("unchanged", number f.unchanged)]

end LiteralFolding
