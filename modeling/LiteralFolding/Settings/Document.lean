-- Settings of a document, read strictly: every value has the type of its setting, a setting
-- that is not there has its default, and a key that is no setting is passed over.
import LiteralFolding.Settings.Basic
import LiteralFolding.Toml.Document

namespace LiteralFolding.Settings

/-- The value of a setting, or its default where there is none. -/
def orDefault (read? : β → Option α) (default : α) : Option β → Option α
  | none => some default
  | some value => read? value

def text? : Toml → Option Text
  | .string t => some t
  | _ => none

def texts? : Toml → Option (List Text)
  | .array items => items.mapM text?
  | _ => none

def isHollow : Toml → Bool
  | .array items => items.isEmpty
  | .table _ members => members.isEmpty
  | _ => false

/-- One of some words, or a table that holds nothing but an empty value under the word. -/
def choice? (ofWord? : Text → Option α) : Toml → Option α
  | .string word => ofWord? word
  | .table _ [(word, value)] => if isHollow value then ofWord? word else none
  | _ => none

/-- Where the settings of a group are found, in the order of their names: a table has them by
name, a list by place, and a date has none. -/
def fields? (names : List String) : Toml → Option (List (Option Toml))
  | .table _ members => some (names.map fun name => Members.get? name.toList members)
  | .array items => some (names.zipIdx.map fun (_, i) => items[i]?)
  | .tables items => some (names.zipIdx.map fun (_, i) => (items[i]?).map (Toml.table .header))
  | .datetime _ => some (names.map fun _ => none)
  | _ => none

def foldNames : List String := ["property_name", "quote_style", "transform"]

def fileNames : List String := ["extensions", "ignore_patterns"]

def foldOf? (value : Toml) : Option FoldSettings := do
  let d : FoldSettings := {}
  let fields ← fields? foldNames value
  let property ← orDefault text? d.property (fields[0]?).join
  let quote ← orDefault (choice? Quote.ofWord?) d.quote (fields[1]?).join
  let transform ← orDefault (choice? TransformKind.ofWord?) d.transform (fields[2]?).join
  some { property, quote, transform }

def filesOf? (value : Toml) : Option FileSettings := do
  let d : FileSettings := {}
  let fields ← fields? fileNames value
  let extensions ← orDefault texts? d.extensions (fields[0]?).join
  let ignored ← orDefault texts? d.ignored (fields[1]?).join
  some { extensions, ignored }

def ofMembers? (members : List (Text × Toml)) : Option Settings := do
  let fold ← orDefault foldOf? {} (Members.get? "rewrite".toList members)
  let files ← orDefault filesOf? {} (Members.get? "files".toList members)
  some { fold, files }

def ofDocument (document : Text) : Except SettingsError Settings :=
  match (Toml.read? document).bind ofMembers? with
  | some s => .ok s
  | none => .error .badDocument

end LiteralFolding.Settings
