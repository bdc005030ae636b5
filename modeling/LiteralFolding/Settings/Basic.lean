-- Settings: what is folded, how it is written, and which files are looked at.
import LiteralFolding.Folding
import LiteralFolding.Glob
import LiteralFolding.Text.Letter

namespace LiteralFolding

/-! ## Words -/

def Quote.word : Quote → String
  | .double => "double"
  | .single => "single"

def Quote.ofWord? (t : Text) : Option Quote :=
  [Quote.double, .single].find? fun q => q.word.toList = t

def TransformKind.word : TransformKind → String
  | .identity => "identity"
  | .uppercase => "uppercase"
  | .minify => "minify"

def TransformKind.ofWord? (t : Text) : Option TransformKind :=
  [TransformKind.identity, .uppercase, .minify].find? fun k => k.word.toList = t

/-! ## The settings -/

/-- What is folded and how. -/
structure FoldSettings where
  /-- The name of the properties whose values are folded. -/
  property : Text := "template".toList
  quote : Quote := .double
  transform : TransformKind := .minify
  deriving DecidableEq, Repr

/-- Which files are looked at. -/
structure FileSettings where
  /-- Extensions of source files, without their dot. -/
  extensions : List Text := ["ts", "tsx", "mts", "cts", "js", "jsx", "mjs", "cjs"].map String.toList
  /-- Patterns of names that are left out, with all that is below them. -/
  ignored : List Text := ["node_modules", "dist", ".git", "*.min.js"].map String.toList
  deriving DecidableEq, Repr

structure Settings where
  fold : FoldSettings := {}
  files : FileSettings := {}
  deriving DecidableEq, Repr

/-- The part of the settings that a folding pass takes. -/
def FoldSettings.options (s : FoldSettings) : FoldOptions := { property := s.property, quote := s.quote }

/-- Why there are no settings, or none that can be used. -/
inductive SettingsError where
  | badProperty (name : Text)
  | noExtensions
  | badExtension (ext : Text)
  | badPattern (pattern : Text) (error : GlobError)
  /-- The file that was asked for does not exist. -/
  | noFile (path : Text)
  /-- A document is not well formed, or a value in it does not fit. -/
  | badDocument
  /-- A file of settings is not well formed. -/
  | badSource
  /-- A value does not fit its setting. -/
  | badValue
  deriving DecidableEq, Repr

def patternMessage (pattern : Text) (e : GlobError) : Text :=
  "Invalid ignore pattern '".toList ++ pattern ++ "': ".toList ++ e.message

namespace SettingsError

def detail : SettingsError → Text
  | .badProperty name =>
    "Invalid property name '".toList ++ name ++ "'. Must be a JavaScript identifier".toList
  | .noExtensions => "files.extensions must list at least one extension".toList
  | .badExtension ext =>
    "Invalid extension '".toList ++ ext ++ "'. Use the bare extension, e.g. \"ts\"".toList
  | .badPattern pattern e => patternMessage pattern e
  | .noFile path => "Config file not found: ".toList ++ path
  | .badDocument => "Failed to parse TOML".toList
  | .badSource => "Failed to build config".toList
  | .badValue => "Failed to deserialize config".toList

def message (e : SettingsError) : Text := "Configuration error: ".toList ++ e.detail

end SettingsError

namespace Settings

def startsName (c : Char) : Bool := Text.isLetter c || c = '_' || c = '$'

def continuesName (c : Char) : Bool := startsName c || Text.isNumeral c

/-- Can this be a property's bare name? -/
def isPropertyName : Text → Bool
  | [] => false
  | c :: t => startsName c && t.all continuesName

/-- An extension is bare: there is something, and no dot leads it. -/
def isBareExtension (ext : Text) : Bool := !ext.isEmpty && ext.head? != some '.'

/-- The first pattern that cannot be read. -/
def badPattern? : List Text → Option SettingsError
  | [] => none
  | pattern :: rest =>
    match Glob.read pattern with
    | .error e => some (.badPattern pattern e)
    | .ok _ => badPattern? rest

/-- The first thing that makes the settings unusable. -/
def fault? (s : Settings) : Option SettingsError :=
  if !isPropertyName s.fold.property then some (.badProperty s.fold.property)
  else if s.files.extensions.isEmpty then some .noExtensions
  else
    match s.files.extensions.find? fun ext => !isBareExtension ext with
    | some ext => some (.badExtension ext)
    | none => badPattern? s.files.ignored

end Settings

end LiteralFolding
