import Wordloom.Binary.Format
import Wordloom.Binary.Leading
import Wordloom.Binary.Notation
import Wordloom.Binary.Rounding
import Wordloom.Binary.Shortest
import Wordloom.Digits
import Wordloom.Document.Syntax
import Wordloom.Document.Token
import Wordloom.Files
import Wordloom.Generator.Basic
import Wordloom.Generator.Coercion
import Wordloom.Generator.Combiner
import Wordloom.Generator.Editing
import Wordloom.Generator.Evaluation
import Wordloom.Interner
import Wordloom.Linter.Checks
import Wordloom.Linter.Report
import Wordloom.Main
import Wordloom.Number.Basic
import Wordloom.Number.Conversion
import Wordloom.Number.Decimal
import Wordloom.Number.Decimal.Equality
import Wordloom.Output
import Wordloom.Preview.Shell
import Wordloom.Preview.Start
import Wordloom.Proofs.Binary.Nearest
import Wordloom.Proofs.Binary.Patterns
import Wordloom.Proofs.Binary.Products
import Wordloom.Proofs.Binary.Shortest
import Wordloom.Proofs.Binary.Sums
import Wordloom.Proofs.Binary.Texts
import Wordloom.Proofs.Binary.Units
import Wordloom.Proofs.Binary.Values
import Wordloom.Proofs.Document.Abridging
import Wordloom.Proofs.Document.Completeness
import Wordloom.Proofs.Document.Faults
import Wordloom.Proofs.Document.Lexemes
import Wordloom.Proofs.Document.Places
import Wordloom.Proofs.Document.Reading
import Wordloom.Proofs.Document.Scanning
import Wordloom.Proofs.Document.Soundness
import Wordloom.Proofs.Document.Spacing
import Wordloom.Proofs.Document.Written
import Wordloom.Proofs.Generator.Agreement
import Wordloom.Proofs.Generator.Batch
import Wordloom.Proofs.Generator.Depth
import Wordloom.Proofs.Generator.Entropy
import Wordloom.Proofs.Generator.Reads
import Wordloom.Proofs.Generator.Seeds
import Wordloom.Proofs.Generator.Texts
import Wordloom.Proofs.Generator.Typing
import Wordloom.Proofs.Linter.Influence
import Wordloom.Proofs.Linter.Listing
import Wordloom.Proofs.Linter.Recursion
import Wordloom.Proofs.Linter.Termination
import Wordloom.Proofs.Number.Decimal.Equality
import Wordloom.Proofs.Number.Decimal.Text
import Wordloom.Proofs.Number.Exact
import Wordloom.Proofs.Number.Floats
import Wordloom.Proofs.Number.Texts
import Wordloom.Proofs.Outcomes
import Wordloom.Proofs.Preview.Requests
import Wordloom.Proofs.Preview.Session
import Wordloom.Proofs.Registry.Abridging
import Wordloom.Proofs.Registry.Documents
import Wordloom.Proofs.Registry.Grammar
import Wordloom.Proofs.Registry.Limits
import Wordloom.Proofs.Registry.Merging
import Wordloom.Proofs.Registry.Nesting
import Wordloom.Proofs.Stream.Drawing
import Wordloom.Proofs.Stream.Uniform
import Wordloom.Proofs.Table.Exact
import Wordloom.Proofs.Table.Failure
import Wordloom.Proofs.Table.Flat
import Wordloom.Proofs.Table.Profiles
import Wordloom.Proofs.Table.Proportion
import Wordloom.Proofs.Table.Weights
import Wordloom.Proofs.Text.Numerals
import Wordloom.Proofs.Text.Trim
import Wordloom.Proofs.Text.Words
import Wordloom.Registry
import Wordloom.Settings.Basic
import Wordloom.Settings.Notation
import Wordloom.Stream.Basic
import Wordloom.Stream.Block
import Wordloom.Stream.Drawing
import Wordloom.Stream.Source
import Wordloom.Table.Basic
import Wordloom.Table.Strategy
import Wordloom.Text.Blank
import Wordloom.Text.CaseData
import Wordloom.Text.Lowercase
