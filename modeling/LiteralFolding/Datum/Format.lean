-- The formats of documents, told apart by the extensions of their files.
import LiteralFolding.Datum.Ini
import LiteralFolding.Datum.Json5
import LiteralFolding.Datum.Ron
import LiteralFolding.Datum.Yaml.Node
import LiteralFolding.Toml.Document

namespace LiteralFolding.Datum

inductive Format where
  | toml
  | json
  | json5
  | ini
  | ron
  | yaml
  deriving DecidableEq, Repr

namespace Format

def extensions : List (String × Format) :=
  [("toml", .toml), ("json", .json), ("json5", .json5), ("ini", .ini), ("ron", .ron),
    ("yaml", .yaml), ("yml", .yaml)]

def ofExtension? (extension : Text) : Option Format :=
  (extensions.find? fun e => e.1.toList = extension).map (·.2)

def datum? : Format → Text → Option Datum
  | .toml, t => (Toml.read? t).map fun members => .table (Toml.datumMembers members)
  | .json, t => Json.read? t
  | .json5, t => Json5.read? t
  | .ini, t => Ini.read? t
  | .ron, t => Ron.read? t
  | .yaml, t => Yaml.read? t

/-- Reads the members of a document, which is a table as a whole. -/
def read? (format : Format) (t : Text) : Option (List (Text × Datum)) :=
  (format.datum? t).bind Datum.members?

end Format

end LiteralFolding.Datum
