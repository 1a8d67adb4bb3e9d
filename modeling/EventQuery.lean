import EventQuery.Catalog.Basic
import EventQuery.Catalog.DataType
import EventQuery.Catalog.Demo
import EventQuery.Catalog.Event
import EventQuery.Catalog.File
import EventQuery.Command.Arguments
import EventQuery.Command.Run
import EventQuery.Compilation
import EventQuery.Dataset.Basic
import EventQuery.Dataset.Emission
import EventQuery.Dataset.Lowering
import EventQuery.Dataset.Written
import EventQuery.Digest
import EventQuery.Document.Format
import EventQuery.Document.Hexadecimal
import EventQuery.Document.JsonReader
import EventQuery.Document.JsonWriter
import EventQuery.Document.Toml.Reader
import EventQuery.Document.Toml.Scalar
import EventQuery.Document.Toml.Table
import EventQuery.Document.Toml.Text
import EventQuery.Document.Value
import EventQuery.Editor.Completion
import EventQuery.Editor.Context
import EventQuery.Editor.Diagnostic
import EventQuery.Editor.Documents
import EventQuery.Editor.Hover
import EventQuery.Editor.Protocol
import EventQuery.Editor.Session
import EventQuery.Editor.Wire
import EventQuery.Editor.Word
import EventQuery.Host.Basic
import EventQuery.Host.Environment
import EventQuery.Host.Memory
import EventQuery.Host.Path
import EventQuery.Main
import EventQuery.Number.Binary64
import EventQuery.Number.Layout
import EventQuery.Number.Reading
import EventQuery.Number.Rounding
import EventQuery.Number.Shortest
import EventQuery.Outcome
import EventQuery.Query.Basic
import EventQuery.Query.Fault
import EventQuery.Query.Node
import EventQuery.Query.Parser
import EventQuery.Query.Validation
import EventQuery.Settings.Basic
import EventQuery.Settings.Variables
import EventQuery.Source.Offset
import EventQuery.Source.Position
import EventQuery.Source.Token
import EventQuery.Source.Token.Lexer
import EventQuery.Sql.Expr
import EventQuery.Sql.Query
import EventQuery.Sql.Token
import EventQuery.Text.Blank
import EventQuery.Text.CodePoint
import EventQuery.Text.Identifier
import EventQuery.Text.Letter
import EventQuery.Text.LetterCase
import EventQuery.Text.Marks
import EventQuery.Text.Ranges
import EventQuery.Text.Search
import EventQuery.Text.Split
import EventQuery.Text.Units
import EventQuery.Url.Basic
import EventQuery.Url.Domain
import EventQuery.Url.Escape
import EventQuery.Url.HostName
import EventQuery.Url.IpAddress
import EventQuery.Url.Parser
import EventQuery.Url.Path
import EventQuery.Url.Punycode
import EventQuery.Warehouse.Basic
import EventQuery.Warehouse.Probe
import EventQuery.Proofs.Outcome
import EventQuery.Proofs.Text.Runs
import EventQuery.Proofs.Query.Fitting
import EventQuery.Proofs.Catalog.Soundness
import EventQuery.Proofs.Catalog.Lookup
import EventQuery.Proofs.Catalog.Extension
import EventQuery.Proofs.Catalog.Construction
import EventQuery.Proofs.Catalog.Files
import EventQuery.Proofs.Catalog.Resolution
import EventQuery.Proofs.Settings.Expansion
import EventQuery.Proofs.Warehouse.Drafts
import EventQuery.Proofs.Dataset.Agreement
import EventQuery.Proofs.Dataset.Anchors
import EventQuery.Proofs.Dataset.BaseRows
import EventQuery.Proofs.Dataset.Columns
import EventQuery.Proofs.Dataset.Selected
import EventQuery.Proofs.Dataset.Correctness
import EventQuery.Proofs.Dataset.Grouping
import EventQuery.Proofs.Dataset.References
import EventQuery.Proofs.Dataset.Extension
import EventQuery.Proofs.Dataset.Places
import EventQuery.Proofs.Dataset.SourceTables
import EventQuery.Proofs.Dataset.Shape
import EventQuery.Proofs.Sql.Reading
import EventQuery.Proofs.Sql.Numerals
import EventQuery.Proofs.Sql.Rendering
import EventQuery.Proofs.Sql.Separation
import EventQuery.Proofs.Number.Nearest
import EventQuery.Proofs.Number.Written
import EventQuery.Proofs.Sql.Phrases
import EventQuery.Proofs.Sql.Recovery
import EventQuery.Proofs.Dataset.Rendering
import EventQuery.Proofs.Dataset.Recovery
import EventQuery.Proofs.Query.Grammar
import EventQuery.Proofs.Query.Parsing
import EventQuery.Proofs.Query.Places
import EventQuery.Proofs.Query.Lookahead
import EventQuery.Proofs.Query.Offending
import EventQuery.Proofs.Source.Offsets
import EventQuery.Proofs.Source.Lexing
import EventQuery.Proofs.Source.Segmentation
import EventQuery.Proofs.Query.Nesting
import EventQuery.Proofs.Query.Spans
import EventQuery.Proofs.Editor.Publication
import EventQuery.Proofs.Editor.Pieces
import EventQuery.Proofs.Editor.Scanning
import EventQuery.Proofs.Editor.Brackets
import EventQuery.Proofs.Editor.Context
import EventQuery.Proofs.Dataset.DefaultEntity
import EventQuery.Proofs.Query.Innermost
import EventQuery.Proofs.Editor.Hover
import EventQuery.Proofs.Query.Stuck
import EventQuery.Proofs.Editor.Diagnosis
import EventQuery.Proofs.Dataset.FilterLiterals
import EventQuery.Proofs.Query.FirstFault
import EventQuery.Proofs.Source.Boundaries
import EventQuery.Proofs.Source.Slices
import EventQuery.Proofs.Editor.Completion
import EventQuery.Proofs.Editor.Words
import EventQuery.Proofs.Editor.Slicing
