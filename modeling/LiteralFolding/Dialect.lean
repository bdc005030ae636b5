-- Dialects: which grammar a file is written in, told by its extension.
import LiteralFolding.Path
import LiteralFolding.Text.Case.Lower

namespace LiteralFolding

/-- The grammar of a source. -/
inductive Dialect where
  | typeScript
  | tsx
  | javaScript
  deriving DecidableEq, Repr

namespace Dialect

/-- The extensions of a dialect, in small letters. -/
def extensions : Dialect → List Text
  | .typeScript => ["ts".toList, "mts".toList, "cts".toList]
  | .tsx => ["tsx".toList]
  | .javaScript => ["js".toList, "jsx".toList, "mjs".toList, "cjs".toList]

/-- The dialect that an extension in small letters stands for. -/
def ofExtension? (extension : Text) : Option Dialect :=
  [Dialect.typeScript, .tsx, .javaScript].find? (·.extensions.contains (Text.lower extension))

def ofPath? (path : Text) : Option Dialect := (Path.extension? path).bind ofExtension?

end Dialect

end LiteralFolding
