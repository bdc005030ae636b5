-- The filter of a directory walk: which names are left out and which files are sources.
import LiteralFolding.Path
import LiteralFolding.Settings.Basic
import LiteralFolding.Text.Case.Lower

namespace LiteralFolding

/-- File settings with their patterns read. -/
structure FileFilter where
  extensions : List Text
  ignored : List Glob

namespace FileFilter

/-- Reads one pattern; a failure keeps the pattern's text. -/
def readPattern (pattern : Text) : Except (Text × GlobError) Glob :=
  match Glob.read pattern with
  | .ok glob => .ok glob
  | .error e => .error (pattern, e)

/-- The filter of some settings; the first unreadable pattern is the failure. -/
def ofSettings (s : FileSettings) : Except (Text × GlobError) FileFilter :=
  (s.ignored.mapM readPattern).map fun ignored =>
    { extensions := s.extensions.map Text.lower, ignored }

def ignores (f : FileFilter) (name : Text) : Bool := f.ignored.any (·.accepts name)

/-- Does the path name a source, by its extension? -/
def isSource (f : FileFilter) (path : Text) : Bool :=
  (Path.extension? path).any fun ext =>
    f.extensions.any fun e => Text.lowerAscii e = Text.lowerAscii ext

end FileFilter

end LiteralFolding
