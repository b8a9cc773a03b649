import TypedConfig.Binary64.Basic
import TypedConfig.Binary64.Layout
import TypedConfig.Binary64.Reading
import TypedConfig.Binary64.Shortest
import TypedConfig.Calendar.Moment
import TypedConfig.CommandLine.Argument
import TypedConfig.CommandLine.Command
import TypedConfig.CommandLine.Grammar
import TypedConfig.CommandLine.Run
import TypedConfig.CommandLine.Settings
import TypedConfig.Console.Line
import TypedConfig.Console.Table
import TypedConfig.Decimal.Numeral
import TypedConfig.Diff.Basic
import TypedConfig.Diff.Files
import TypedConfig.Diff.Report
import TypedConfig.Duration.Basic
import TypedConfig.Duration.Parts
import TypedConfig.Emission.Build
import TypedConfig.Emission.Emitter
import TypedConfig.Files.Path
import TypedConfig.Files.Reference
import TypedConfig.Files.Store
import TypedConfig.Files.Writing
import TypedConfig.Generation.Error
import TypedConfig.Generation.Formatter
import TypedConfig.Generation.Generator
import TypedConfig.Generation.Pipeline
import TypedConfig.Go.Accessor
import TypedConfig.Go.Literal
import TypedConfig.Go.Quoted
import TypedConfig.Go.Source
import TypedConfig.Go.Type
import TypedConfig.Log
import TypedConfig.Main
import TypedConfig.Naming.Identifier
import TypedConfig.Naming.Variable
import TypedConfig.Options.Field
import TypedConfig.Options.FileSize
import TypedConfig.Options.Generate
import TypedConfig.Options.PackageName
import TypedConfig.Options.Watch
import TypedConfig.Override.Basic
import TypedConfig.Override.Conversion
import TypedConfig.Proofs.Binary64.Nearest
import TypedConfig.Proofs.Diff.Equality
import TypedConfig.Proofs.Diff.Keys
import TypedConfig.Proofs.Diff.Places
import TypedConfig.Proofs.Diff.PrintedKeys
import TypedConfig.Proofs.Diff.Symmetry
import TypedConfig.Proofs.Duration.Canonical
import TypedConfig.Proofs.Duration.Grammar
import TypedConfig.Proofs.Duration.Literal
import TypedConfig.Proofs.Emission.Accessors
import TypedConfig.Proofs.Emission.Agreement
import TypedConfig.Proofs.Emission.Decoding
import TypedConfig.Proofs.Emission.Embedding
import TypedConfig.Proofs.Emission.Imports
import TypedConfig.Proofs.Emission.Int64
import TypedConfig.Proofs.Emission.KeyOrder
import TypedConfig.Proofs.Emission.Leaves
import TypedConfig.Proofs.Emission.Literals
import TypedConfig.Proofs.Emission.References
import TypedConfig.Proofs.Emission.Refusals
import TypedConfig.Proofs.Emission.Run
import TypedConfig.Proofs.Emission.Signatures
import TypedConfig.Proofs.Emission.Slices
import TypedConfig.Proofs.Emission.Typing
import TypedConfig.Proofs.Files.Containment
import TypedConfig.Proofs.Files.Links
import TypedConfig.Proofs.Files.Loading
import TypedConfig.Proofs.Files.Normal
import TypedConfig.Proofs.Files.NullByte
import TypedConfig.Proofs.Files.Session
import TypedConfig.Proofs.Files.Store
import TypedConfig.Proofs.Files.Transparency
import TypedConfig.Proofs.Files.Writing
import TypedConfig.Proofs.Generation.Escapes
import TypedConfig.Proofs.Generation.Int64
import TypedConfig.Proofs.Generation.KeyOrder
import TypedConfig.Proofs.Generation.Output
import TypedConfig.Proofs.Go.ByteRows
import TypedConfig.Proofs.Go.Constant
import TypedConfig.Proofs.Go.Datum
import TypedConfig.Proofs.Go.Elements
import TypedConfig.Proofs.Go.Interpreted
import TypedConfig.Proofs.Go.Number
import TypedConfig.Proofs.Go.Packages
import TypedConfig.Proofs.Go.Qualifier
import TypedConfig.Proofs.Go.Quoted
import TypedConfig.Proofs.Go.Scalar
import TypedConfig.Proofs.Go.Signature
import TypedConfig.Proofs.Go.Typing
import TypedConfig.Proofs.Naming.Exported
import TypedConfig.Proofs.Naming.Identifier
import TypedConfig.Proofs.Options.FileSize
import TypedConfig.Proofs.Options.PackageName
import TypedConfig.Proofs.Outcome
import TypedConfig.Proofs.Override.Composition
import TypedConfig.Proofs.Override.Conversion
import TypedConfig.Proofs.Override.Keys
import TypedConfig.Proofs.Override.Leaves
import TypedConfig.Proofs.Override.Pass
import TypedConfig.Proofs.Override.Replacement
import TypedConfig.Proofs.Override.Types
import TypedConfig.Proofs.Schema.Catalog
import TypedConfig.Proofs.Schema.Closure
import TypedConfig.Proofs.Schema.Outline
import TypedConfig.Proofs.Schema.Path
import TypedConfig.Proofs.Toml.Keys
import TypedConfig.Proofs.Value.Alike
import TypedConfig.Proofs.Value.Embedded
import TypedConfig.Proofs.Value.Equality
import TypedConfig.Proofs.Value.Keys
import TypedConfig.Proofs.Value.Kind
import TypedConfig.Proofs.Value.Reordered
import TypedConfig.Proofs.Value.Sorted
import TypedConfig.Proofs.Watch.Attachment
import TypedConfig.Proofs.Watch.Clockwork
import TypedConfig.Proofs.Watch.Currency
import TypedConfig.Proofs.Watch.Debounce
import TypedConfig.Proofs.Watch.History
import TypedConfig.Proofs.Watch.Label
import TypedConfig.Proofs.Watch.Retry
import TypedConfig.Proofs.Watch.Turns
import TypedConfig.Schema.Basic
import TypedConfig.Sorting
import TypedConfig.Text.Blank
import TypedConfig.Text.Cluster
import TypedConfig.Text.Digit
import TypedConfig.Text.LineEnd
import TypedConfig.Text.Printable
import TypedConfig.Text.Quoted
import TypedConfig.Text.Upper
import TypedConfig.Text.Width
import TypedConfig.Toml.Document
import TypedConfig.Toml.Scalar
import TypedConfig.Toml.Scan
import TypedConfig.Toml.Tree
import TypedConfig.Value.Basic
import TypedConfig.Value.Equality
import TypedConfig.Value.Kind
import TypedConfig.Watch.Coordinator
import TypedConfig.Watch.Event
import TypedConfig.Watch.Message
import TypedConfig.Watch.Run
