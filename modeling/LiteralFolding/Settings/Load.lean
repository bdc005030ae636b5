-- Settings loaded from a store and the environment.
import LiteralFolding.Datum.Format
import LiteralFolding.Files.Store
import LiteralFolding.Path
import LiteralFolding.Settings.Layers

namespace LiteralFolding.Settings

/-- The file of settings that is read when none is named. -/
def fileName : Text := "tplfold.toml".toList

/-- A path without the slashes and dots that say nothing at its end. -/
def trimEnd (path : Text) : Text :=
  let rec trim : Text → Text
    | '/' :: t => trim t
    | '.' :: '/' :: t => trim ('/' :: t)
    | t => t
  (trim path.reverse).reverse

def fromRoot (store : Store) (path : Text) : Text :=
  if path.head? = some '/' then path
  else Path.join (store.working.foldl Path.join ['/']) path

/-- The file at a path and its format. What is no file stands for a file of the same name with
one of the known extensions. -/
def documentFile? (store : Store) (path : Text) : Option (Text × Datum.Format) :=
  let path := fromRoot store path
  if store.isFile path then
    ((Path.extension? path).bind Datum.Format.ofExtension?).map (path, ·)
  else if (Path.fileName? path).isNone then none
  else
    (Datum.Format.extensions.map fun (extension, format) =>
      (trimEnd path ++ '.' :: extension.toList, format)).find? fun (file, _) => store.isFile file

/-- What the document at a path says. Bytes that are no text, and a byte order mark in front,
do no harm. -/
def document? (store : Store) (path : Text) : Option (List (Text × Datum)) := do
  let (file, format) ← documentFile? store path
  let content ← (store.content file).toOption
  let text := content.legible
  format.read? ((Text.strip? ['\ufeff'] text).getD text)

def ofFile (store : Store) (path : Text) (environment : List (Text × Text)) :
    Except SettingsError Settings :=
  if store.has path then
    match document? store path with
    | none => .error .badSource
    | some members => ofLayers members environment
  else ofLayers [] environment

/-- Loads settings. A file that is asked for has to exist. -/
def load (store : Store) (path : Option Text) (environment : List (Text × Text)) :
    Except SettingsError Settings :=
  match path with
  | none => ofFile store fileName environment
  | some path => if store.has path then ofFile store path environment else .error (.noFile path)

end LiteralFolding.Settings
