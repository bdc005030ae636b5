import LiteralFolding.Text.Basic
import LiteralFolding.Text.Digit
import LiteralFolding.Text.Encoded
import LiteralFolding.Members
import LiteralFolding.Reader
import LiteralFolding.Text.Ranges
import LiteralFolding.Text.Blank
import LiteralFolding.Text.Letter
import LiteralFolding.Text.Case.Mapping
import LiteralFolding.Text.Case.Upper
import LiteralFolding.Text.Case.Lower
import LiteralFolding.Text.Shown
import LiteralFolding.Number.Basic
import LiteralFolding.Number.Shortest
import LiteralFolding.Number.Written
import LiteralFolding.Number.Reading
import LiteralFolding.Literal.Numeric
import LiteralFolding.Literal.Escape
import LiteralFolding.Literal.Quoted
import LiteralFolding.Transform
import LiteralFolding.Location
import LiteralFolding.Replacement
import LiteralFolding.Tree.Kind
import LiteralFolding.Tree.Basic
import LiteralFolding.Tree.Position
import LiteralFolding.Tree.Row
import LiteralFolding.Path
import LiteralFolding.Dialect
import LiteralFolding.Source
import LiteralFolding.Expression
import LiteralFolding.Symbol.Declaration
import LiteralFolding.Symbol.Table
import LiteralFolding.Symbol.Pattern
import LiteralFolding.Symbol.Collect
import LiteralFolding.Symbol.Resolve
import LiteralFolding.Fragment
import LiteralFolding.Candidate
import LiteralFolding.Folding
import LiteralFolding.Program
import LiteralFolding.Report.Json
import LiteralFolding.Report.Value
import LiteralFolding.Report.Summary
import LiteralFolding.Glob
import LiteralFolding.Datum.Basic
import LiteralFolding.Datum.Path
import LiteralFolding.Number.Scaled
import LiteralFolding.Datum.Json
import LiteralFolding.Datum.Json5
import LiteralFolding.Datum.Ini
import LiteralFolding.Datum.Ron
import LiteralFolding.Datum.Yaml.Glyph
import LiteralFolding.Datum.Yaml.Scalar
import LiteralFolding.Datum.Yaml.Token
import LiteralFolding.Datum.Yaml.Scan
import LiteralFolding.Datum.Yaml.Node
import LiteralFolding.Toml.Datetime
import LiteralFolding.Toml.Value
import LiteralFolding.Toml.Scalar
import LiteralFolding.Toml.Quoted
import LiteralFolding.Toml.Document
import LiteralFolding.Datum.Format
import LiteralFolding.Settings.Basic
import LiteralFolding.Settings.Document
import LiteralFolding.Settings.Layers
import LiteralFolding.Files.Store
import LiteralFolding.Files.Filter
import LiteralFolding.Settings.Load
import LiteralFolding.Files.Project
import LiteralFolding.Command.Arguments
import LiteralFolding.Command.Run
import LiteralFolding.Command.Bundle
import LiteralFolding.Main
import LiteralFolding.Proofs.Positions
import LiteralFolding.Proofs.Fragments
import LiteralFolding.Proofs.Outcomes
import LiteralFolding.Proofs.RoundTrip
import LiteralFolding.Proofs.Slices
import LiteralFolding.Proofs.Meaning
import LiteralFolding.Proofs.Splices
import LiteralFolding.Proofs.Contraction
import LiteralFolding.Proofs.Reparsing
import LiteralFolding.Proofs.Images
import LiteralFolding.Proofs.Rereading
import LiteralFolding.Proofs.Idempotence
import LiteralFolding.Proofs.Declaring
import LiteralFolding.Proofs.Sequence
import LiteralFolding.Proofs.Collecting
import LiteralFolding.Proofs.Patterns
import LiteralFolding.Proofs.Integrity
import LiteralFolding.Proofs.Moments
import LiteralFolding.Proofs.Merging
import LiteralFolding.Proofs.Provenance
import LiteralFolding.Proofs.Extension
import LiteralFolding.Proofs.Renumbering
import LiteralFolding.Proofs.Separation
import LiteralFolding.Proofs.Shadowing
import LiteralFolding.Proofs.BindingForms
import LiteralFolding.Proofs.Minifying
import LiteralFolding.Proofs.Exchange
import LiteralFolding.Proofs.Marks
import LiteralFolding.Proofs.Origins
import LiteralFolding.Proofs.Writing
import LiteralFolding.Proofs.Effects
import LiteralFolding.Proofs.Gaps
import LiteralFolding.Proofs.Tokens
import LiteralFolding.Proofs.Digits
import LiteralFolding.Proofs.Escapes
import LiteralFolding.Proofs.CodeUnits
import LiteralFolding.Proofs.Rounding
import LiteralFolding.Proofs.Numerals
import LiteralFolding.Proofs.Overlaps
import LiteralFolding.Proofs.Division
import LiteralFolding.Proofs.Ratios
import LiteralFolding.Proofs.Decimals
import LiteralFolding.Proofs.Shortest
import LiteralFolding.Proofs.Layout
import LiteralFolding.Proofs.Canonical
import LiteralFolding.Proofs.LifeCycle
import LiteralFolding.Proofs.Paths
import LiteralFolding.Proofs.Discovery
import LiteralFolding.Proofs.SmallLetters
import LiteralFolding.Proofs.Dialects
import LiteralFolding.Proofs.Overlay
import LiteralFolding.Proofs.Precedence
import LiteralFolding.Proofs.Variables
