import Forwarder.Archive.Bits
import Forwarder.Archive.Inflate
import Forwarder.Archive.Stored
import Forwarder.Archive.Zip
import Forwarder.Attempt
import Forwarder.Batch.Clean
import Forwarder.Batch.Disturbance
import Forwarder.Batch.Event
import Forwarder.Batch.Extraction
import Forwarder.Batch.Output
import Forwarder.Batch.Pool
import Forwarder.Batch.Run
import Forwarder.Batch.RunId
import Forwarder.Batch.Scan
import Forwarder.Batch.Summary
import Forwarder.Cache
import Forwarder.Command.Action
import Forwarder.Command.Arguments
import Forwarder.Command.Execute
import Forwarder.Command.Flag
import Forwarder.Config.Basic
import Forwarder.Config.Dotenv
import Forwarder.Config.File
import Forwarder.Config.Json
import Forwarder.Config.Load
import Forwarder.Config.Setting
import Forwarder.Config.Toml.Document
import Forwarder.Config.Toml.Scalar
import Forwarder.Config.Toml.Table
import Forwarder.Console
import Forwarder.Decimal
import Forwarder.Decoration.Basic
import Forwarder.Decoration.Candidate
import Forwarder.Decoration.Extract
import Forwarder.Decoration.HeaderPattern
import Forwarder.Descriptor
import Forwarder.Disk.Basic
import Forwarder.Disk.Change
import Forwarder.Disk.Walk
import Forwarder.Double
import Forwarder.Emit.Expr
import Forwarder.Emit.Unit
import Forwarder.Failure
import Forwarder.Files.CheckedPath
import Forwarder.Files.Collect
import Forwarder.Files.Reader
import Forwarder.Files.Steps
import Forwarder.Files.Writing
import Forwarder.Forwarding
import Forwarder.Grammar.Rule
import Forwarder.Grammar.Run
import Forwarder.Loading.Closure
import Forwarder.Loading.DescriptorLoader
import Forwarder.Loading.Library
import Forwarder.Loading.Scope
import Forwarder.Loading.SourceLoader
import Forwarder.Loading.TypeLoader
import Forwarder.Main
import Forwarder.Method
import Forwarder.Path
import Forwarder.Proofs.Batch.AllOrNothing
import Forwarder.Proofs.Batch.Cleaning
import Forwarder.Proofs.Batch.Completion
import Forwarder.Proofs.Batch.Confined
import Forwarder.Proofs.Batch.Contents
import Forwarder.Proofs.Batch.DryRun
import Forwarder.Proofs.Batch.Output
import Forwarder.Proofs.Batch.Overwriting
import Forwarder.Proofs.Batch.Pointwise
import Forwarder.Proofs.Batch.Pool
import Forwarder.Proofs.Batch.Products
import Forwarder.Proofs.Batch.Repeatable
import Forwarder.Proofs.Batch.Rerun
import Forwarder.Proofs.Batch.Rescan
import Forwarder.Proofs.Batch.Roots
import Forwarder.Proofs.Batch.Scan
import Forwarder.Proofs.Capture
import Forwarder.Proofs.Composition
import Forwarder.Proofs.Computed
import Forwarder.Proofs.Decoration.Exact
import Forwarder.Proofs.Decoration.Extract
import Forwarder.Proofs.Decoration.HeaderPattern
import Forwarder.Proofs.Decoration.Prefilter
import Forwarder.Proofs.Decoration.Tame
import Forwarder.Proofs.Decoration.Texts
import Forwarder.Proofs.Descriptor
import Forwarder.Proofs.Disk.Growth
import Forwarder.Proofs.Disk.Proper
import Forwarder.Proofs.Disk.Removing
import Forwarder.Proofs.Disk.Rewriting
import Forwarder.Proofs.Disk.Tree
import Forwarder.Proofs.Disk.Writing
import Forwarder.Proofs.Emit.ReadBack
import Forwarder.Proofs.Emit.Tokens
import Forwarder.Proofs.Emit.Unambiguous
import Forwarder.Proofs.Files.Atomic
import Forwarder.Proofs.Files.Freshness
import Forwarder.Proofs.Files.Level
import Forwarder.Proofs.Files.Reader
import Forwarder.Proofs.Files.Steps
import Forwarder.Proofs.Forwarding.Coverage
import Forwarder.Proofs.Forwarding.OwnNames
import Forwarder.Proofs.Forwarding.ReadBack
import Forwarder.Proofs.Forwarding.Signatures
import Forwarder.Proofs.Forwarding.Tame
import Forwarder.Proofs.Forwarding.Wildcards
import Forwarder.Proofs.Grammar.Depth
import Forwarder.Proofs.Grammar.Groups
import Forwarder.Proofs.Grammar.Inside
import Forwarder.Proofs.Grammar.Nesting
import Forwarder.Proofs.Grammar.Prediction
import Forwarder.Proofs.Grammar.Progress
import Forwarder.Proofs.Grammar.Reading
import Forwarder.Proofs.Grammar.Recognition
import Forwarder.Proofs.Grammar.Spelling
import Forwarder.Proofs.Grammar.Stepwise
import Forwarder.Proofs.Grammar.Writing
import Forwarder.Proofs.Grammar.Yield
import Forwarder.Proofs.Loading.Agreement
import Forwarder.Proofs.Loading.Answers
import Forwarder.Proofs.Loading.Chaining
import Forwarder.Proofs.Loading.Described
import Forwarder.Proofs.Loading.Descriptors
import Forwarder.Proofs.Loading.Ending
import Forwarder.Proofs.Loading.Found
import Forwarder.Proofs.Loading.Names
import Forwarder.Proofs.Loading.Precedence
import Forwarder.Proofs.Loading.Reach
import Forwarder.Proofs.Loading.Retention
import Forwarder.Proofs.Loading.RunLoader
import Forwarder.Proofs.Loading.Search
import Forwarder.Proofs.Loading.Tame
import Forwarder.Proofs.Loading.Texts
import Forwarder.Proofs.Loading.Tour
import Forwarder.Proofs.Loading.Undisturbed
import Forwarder.Proofs.Method
import Forwarder.Proofs.Outline
import Forwarder.Proofs.Path
import Forwarder.Proofs.Source.Derivation
import Forwarder.Proofs.Source.Enclosures
import Forwarder.Proofs.Source.EnumBody
import Forwarder.Proofs.Source.EnumConstant
import Forwarder.Proofs.Source.ErasedTypes
import Forwarder.Proofs.Source.Erasure
import Forwarder.Proofs.Source.Groups
import Forwarder.Proofs.Source.Identifiers
import Forwarder.Proofs.Source.Inner
import Forwarder.Proofs.Source.Levels
import Forwarder.Proofs.Source.Lexing
import Forwarder.Proofs.Source.Lossless
import Forwarder.Proofs.Source.Occurrences
import Forwarder.Proofs.Source.OneName
import Forwarder.Proofs.Source.Positioned
import Forwarder.Proofs.Source.Progress
import Forwarder.Proofs.Source.References
import Forwarder.Proofs.Source.Renaming
import Forwarder.Proofs.Source.Reparse
import Forwarder.Proofs.Source.Rules
import Forwarder.Proofs.Source.Scanning
import Forwarder.Proofs.Source.Substituted
import Forwarder.Proofs.Source.TypeText
import Forwarder.Proofs.Source.Written
import Forwarder.Proofs.Substitution
import Forwarder.Proofs.Text.Order
import Forwarder.Proofs.Text.Pieces
import Forwarder.Proofs.Text.Regex
import Forwarder.Report
import Forwarder.Source.Declaration
import Forwarder.Source.Lexeme
import Forwarder.Source.Parse
import Forwarder.Source.Productions
import Forwarder.Source.Token
import Forwarder.Source.TypeRef
import Forwarder.Surface
import Forwarder.Text.Blank
import Forwarder.Text.Bytes
import Forwarder.Text.CommaList
import Forwarder.Text.Integer
import Forwarder.Text.Letter
import Forwarder.Text.Numeral
import Forwarder.Text.Order
import Forwarder.Text.Pieces
import Forwarder.Text.Printable
import Forwarder.Text.Quoted
import Forwarder.Text.Ranges
import Forwarder.Text.Template
import Forwarder.TypeName
import Forwarder.Validation
import Forwarder.Yaml.Cursor
import Forwarder.Yaml.Meaning
import Forwarder.Yaml.Merge
import Forwarder.Yaml.Node
import Forwarder.Yaml.Problem
import Forwarder.Yaml.Render
import Forwarder.Yaml.Scalar
import Forwarder.Yaml.Sound
import Forwarder.Yaml.Tag
import Forwarder.Yaml.Token
