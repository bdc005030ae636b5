-- Programs: the sources of one pass with their common symbol table.
import LiteralFolding.Folding
import LiteralFolding.Symbol.Collect
import LiteralFolding.Symbol.Resolve

namespace LiteralFolding

/-- Sources in their order, and the names they declare. -/
structure Program where
  sources : List Source
  symbols : SymbolTable

namespace Program

def ofSources (sources : List Source) : Program :=
  let sources := Source.number sources
  { sources, symbols := SymbolTable.ofSources sources }

/-- Reads paths with their texts; the first that cannot be read is the failure. -/
def read (grammar : Grammar) (files : List (Text × Text)) : Except SourceError Program :=
  (files.mapM fun (path, text) => Source.read grammar path text).map ofSources

def source? (program : Program) (index : Nat) : Option Source := program.sources[index]?

/-- Resolves references by the program's own names. -/
def resolver (program : Program) : Resolver := fun s p => (program.symbols.resolve? s p).map (·.text)

def foldAll (program : Program) (resolver : Resolver) (transform : Transform) (options : FoldOptions) :
    List FoldedSource :=
  program.sources.map fun source => FoldContext.fold { source, resolver, transform, options }

end Program

end LiteralFolding
