-- Settings in layers: the defaults, over them a file, over both the environment. Later layers
-- win key by key, keys are read in small letters, and values are converted where that is
-- harmless.
import LiteralFolding.Datum.Path
import LiteralFolding.Settings.Document

namespace LiteralFolding.Settings

/-! ## The layers -/

/-- The default settings as values. -/
def defaultLayer : List (Text × Datum) :=
  let d : Settings := {}
  let texts (ts : List Text) : Datum := .list (ts.map Datum.text)
  [("rewrite".toList, .table [
      ("property_name".toList, .text d.fold.property),
      ("quote_style".toList, .text d.fold.quote.word.toList),
      ("transform".toList, .text d.fold.transform.word.toList)]),
    ("files".toList, .table [
      ("extensions".toList, texts d.files.extensions),
      ("ignore_patterns".toList, texts d.files.ignored)])]

/-- Environment variables that count start so, in any case. -/
def variableStart : Text := "tplfold__".toList

/-- Two underscores in a row become a dot, from left to right. -/
def dotted : Text → Text
  | '_' :: '_' :: t => '.' :: dotted t
  | c :: t => c :: dotted t
  | [] => []

/-- The key that a variable sets, if it sets one. -/
def variableKey? (name : Text) : Option Text := (Text.strip? variableStart (Text.lower name)).map dotted

/-- The keys whose variables hold lists. -/
def listKeys : List Text := ["files.extensions".toList, "files.ignore_patterns".toList]

/-- The value of a variable: a truth value, a number, a list where one is wanted, or a text. -/
def variableValue (key value : Text) : Datum :=
  let small := Text.lower value
  if small = "true".toList then .boolean true
  else if small = "false".toList then .boolean false
  else
    match Datum.readWord? 10 value with
    | some n => .integer n
    | none =>
      match Number.read? value with
      | some x => .number x
      | none =>
        if listKeys.contains key then .list ((Text.splitAt ',' value).map Datum.text)
        else .text value

def environmentLayer (environment : List (Text × Text)) : List (Text × Datum) :=
  environment.filterMap fun (name, value) =>
    (variableKey? name).map fun key => (key, variableValue key value)

/-! ## Reading the result -/

def convertTexts? : Datum → Option (List Text)
  | .list items => items.mapM Datum.asText?
  | _ => none

/-- One of some words in any case, or a table with the word as its only key. -/
def convertChoice? (ofWord? : Text → Option α) : Datum → Option α
  | .text word => ofWord? (Text.lower word)
  | .table [(word, _)] => ofWord? (Text.lower word)
  | _ => none

/-- Where the settings of a group are found: a table has them by name, a list by place. -/
def groupFields? (names : List String) : Datum → Option (List (Option Datum))
  | .table members => some (names.map fun name => Members.get? name.toList members)
  | .list items => some (names.zipIdx.map fun (_, i) => items[i]?)
  | _ => none

def convertFold? (value : Datum) : Option FoldSettings := do
  let d : FoldSettings := {}
  let fields ← groupFields? foldNames value
  let property ← orDefault Datum.asText? d.property (fields[0]?).join
  let quote ← orDefault (convertChoice? Quote.ofWord?) d.quote (fields[1]?).join
  let transform ← orDefault (convertChoice? TransformKind.ofWord?) d.transform (fields[2]?).join
  some { property, quote, transform }

def convertFiles? (value : Datum) : Option FileSettings := do
  let d : FileSettings := {}
  let fields ← groupFields? fileNames value
  let extensions ← orDefault convertTexts? d.extensions (fields[0]?).join
  let ignored ← orDefault convertTexts? d.ignored (fields[1]?).join
  some { extensions, ignored }

/-- The settings that all layers together give. -/
def convert? (members : List (Text × Datum)) : Option Settings := do
  let fold ← orDefault convertFold? {} (Members.get? "rewrite".toList members)
  let files ← orDefault convertFiles? {} (Members.get? "files".toList members)
  some { fold, files }

/-- The settings of a file's values and an environment. Both are combined before they are laid
over the defaults. -/
def ofLayers (file : List (Text × Datum)) (environment : List (Text × Text)) :
    Except SettingsError Settings :=
  let given := Datum.overlayLayer (.table []) (file ++ environmentLayer environment)
  match convert? (Datum.overlayLayer (.table defaultLayer) given.members).members with
  | none => .error .badValue
  | some s => .ok s

end LiteralFolding.Settings
