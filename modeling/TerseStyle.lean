import TerseStyle.Batch.CommandLine
import TerseStyle.Batch.Event
import TerseStyle.Batch.Pipeline
import TerseStyle.Batch.Run
import TerseStyle.Chain.Argument
import TerseStyle.Chain.Compile
import TerseStyle.Chain.Fault
import TerseStyle.Chain.Interpreter
import TerseStyle.Chain.Link
import TerseStyle.Chain.Number
import TerseStyle.Chain.Skeleton
import TerseStyle.Chain.Utility
import TerseStyle.Config.File
import TerseStyle.Config.JsonForm
import TerseStyle.Config.Overrides
import TerseStyle.Config.TomlForm
import TerseStyle.Dictionary
import TerseStyle.Files.Glob
import TerseStyle.Files.Path
import TerseStyle.Files.Tree
import TerseStyle.Json.Scan
import TerseStyle.Main
import TerseStyle.Proofs.Batch.DryRun
import TerseStyle.Proofs.Batch.Expansion
import TerseStyle.Proofs.Batch.Turns
import TerseStyle.Proofs.Chain.Agreement
import TerseStyle.Proofs.Chain.Binding
import TerseStyle.Proofs.Chain.Boundaries
import TerseStyle.Proofs.Chain.ConstantValues
import TerseStyle.Proofs.Chain.Constants
import TerseStyle.Proofs.Chain.Containment
import TerseStyle.Proofs.Chain.Embedding
import TerseStyle.Proofs.Chain.Execution
import TerseStyle.Proofs.Chain.FrontEnd
import TerseStyle.Proofs.Chain.Gating
import TerseStyle.Proofs.Chain.Grammar
import TerseStyle.Proofs.Chain.Icons
import TerseStyle.Proofs.Chain.Inlining
import TerseStyle.Proofs.Chain.Layout
import TerseStyle.Proofs.Chain.Lexemes
import TerseStyle.Proofs.Chain.Lifting
import TerseStyle.Proofs.Chain.Meaning
import TerseStyle.Proofs.Chain.Numerals
import TerseStyle.Proofs.Chain.Partition
import TerseStyle.Proofs.Chain.Positions
import TerseStyle.Proofs.Chain.Reachable
import TerseStyle.Proofs.Chain.Reformatting
import TerseStyle.Proofs.Chain.Rejection
import TerseStyle.Proofs.Chain.Responsive
import TerseStyle.Proofs.Chain.Spelling
import TerseStyle.Proofs.Chain.Splicing
import TerseStyle.Proofs.Chain.Steps
import TerseStyle.Proofs.Chain.StyleMembers
import TerseStyle.Proofs.Chain.Template
import TerseStyle.Proofs.Config.Layering
import TerseStyle.Proofs.Files.Paths
import TerseStyle.Proofs.Files.Writing
import TerseStyle.Proofs.Rewrite.ClassInEffect
import TerseStyle.Proofs.Rewrite.Conservation
import TerseStyle.Proofs.Rewrite.Element
import TerseStyle.Proofs.Rewrite.FirstFailure
import TerseStyle.Proofs.Rewrite.Frame
import TerseStyle.Proofs.Rewrite.Idempotence
import TerseStyle.Proofs.Rewrite.Meaning
import TerseStyle.Proofs.Rewrite.Merging
import TerseStyle.Proofs.Rewrite.Moving
import TerseStyle.Proofs.Rewrite.Pieces
import TerseStyle.Proofs.Rewrite.QuotedValues
import TerseStyle.Proofs.Rewrite.Refusals
import TerseStyle.Proofs.Rewrite.Replacing
import TerseStyle.Proofs.Rewrite.Residue
import TerseStyle.Proofs.Rewrite.Rewriting
import TerseStyle.Proofs.Rewrite.Settled
import TerseStyle.Proofs.Rewrite.Template
import TerseStyle.Proofs.Rewrite.Tree
import TerseStyle.Proofs.Script.Escaping
import TerseStyle.Proofs.Script.Evaluation
import TerseStyle.Proofs.Script.Expressions
import TerseStyle.Proofs.Script.Nesting
import TerseStyle.Proofs.Script.Pasting
import TerseStyle.Proofs.Script.Quotation
import TerseStyle.Proofs.Script.References
import TerseStyle.Proofs.Script.Rows
import TerseStyle.Proofs.Script.Spacing
import TerseStyle.Proofs.Text.Basic
import TerseStyle.Proofs.Vocabulary.Layers
import TerseStyle.Rewrite.Attribute
import TerseStyle.Rewrite.ChainAttribute
import TerseStyle.Rewrite.Fault
import TerseStyle.Rewrite.Marker
import TerseStyle.Rewrite.Script
import TerseStyle.Rewrite.Standard
import TerseStyle.Rewrite.StyleKey
import TerseStyle.Rewrite.Synthesis
import TerseStyle.Script.Cursor
import TerseStyle.Script.Dialect
import TerseStyle.Script.Elements
import TerseStyle.Script.Expression
import TerseStyle.Script.Function
import TerseStyle.Script.Grammar
import TerseStyle.Script.Language
import TerseStyle.Script.Literal
import TerseStyle.Script.Markup
import TerseStyle.Script.Operator
import TerseStyle.Script.Parentheses
import TerseStyle.Script.Parse
import TerseStyle.Script.Pattern
import TerseStyle.Script.Print
import TerseStyle.Script.Standard
import TerseStyle.Script.Statement
import TerseStyle.Script.Token
import TerseStyle.Script.Tree
import TerseStyle.Script.Trivia
import TerseStyle.Script.TypeSyntax
import TerseStyle.Settings
import TerseStyle.Text.Basic
import TerseStyle.Text.CharTable
import TerseStyle.Text.ColumnWidth
import TerseStyle.Text.Position
import TerseStyle.Toml.Parse
import TerseStyle.Toml.Scalar
import TerseStyle.Toml.Scan
import TerseStyle.Toml.Table
import TerseStyle.Vocabulary
import TerseStyle.Vocabulary.Standard
