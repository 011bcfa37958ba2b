import DependencyUse.Analysis
import DependencyUse.BoundedRun
import DependencyUse.CallGraph.Basic
import DependencyUse.CallGraph.Use
import DependencyUse.Command.Arguments
import DependencyUse.Command.Run
import DependencyUse.Component
import DependencyUse.Decimal.Natural
import DependencyUse.Decimal.Shortest
import DependencyUse.Discovery
import DependencyUse.Disk
import DependencyUse.Encoding.CallGraph
import DependencyUse.Encoding.Component
import DependencyUse.Encoding.Import
import DependencyUse.Encoding.Manifest
import DependencyUse.Encoding.Project
import DependencyUse.Encoding.Result
import DependencyUse.Encoding.Settings
import DependencyUse.Error
import DependencyUse.FileTree
import DependencyUse.Glob
import DependencyUse.Import.Basic
import DependencyUse.Import.Site
import DependencyUse.Import.Visit
import DependencyUse.Json.Reader
import DependencyUse.Json.Token
import DependencyUse.Json.Value
import DependencyUse.Json.Writer
import DependencyUse.Location
import DependencyUse.Main
import DependencyUse.Manifest
import DependencyUse.NameSet
import DependencyUse.Ordered
import DependencyUse.ParseCache
import DependencyUse.Path
import DependencyUse.Project
import DependencyUse.Proofs.CallGraph.Invoked
import DependencyUse.Proofs.Command
import DependencyUse.Proofs.Discovery
import DependencyUse.Proofs.Disk
import DependencyUse.Proofs.Encoding
import DependencyUse.Proofs.FileTree
import DependencyUse.Proofs.Glob
import DependencyUse.Proofs.Json.Token
import DependencyUse.Proofs.Json.Value
import DependencyUse.Proofs.NameSet
import DependencyUse.Proofs.Order
import DependencyUse.Proofs.Outcome
import DependencyUse.Proofs.Path.Below
import DependencyUse.Proofs.Path.Tidy
import DependencyUse.Proofs.Project
import DependencyUse.Proofs.Reexport.History
import DependencyUse.Proofs.Reexport.Memory
import DependencyUse.Proofs.Reexport.Requested
import DependencyUse.Proofs.Reexport.Route
import DependencyUse.Proofs.Reexport.Search
import DependencyUse.Proofs.Reexport.State
import DependencyUse.Proofs.Reexport.Thinning
import DependencyUse.Proofs.Settings.Accepted
import DependencyUse.Proofs.Settings.Precedence
import DependencyUse.Proofs.Source.Loading
import DependencyUse.Proofs.Source.Nodes
import DependencyUse.Proofs.Verdict.Barrel
import DependencyUse.Proofs.Verdict.Consistency
import DependencyUse.Proofs.Verdict.Decision
import DependencyUse.Proofs.Verdict.Depth
import DependencyUse.Proofs.Verdict.Evidence
import DependencyUse.Proofs.Verdict.Members
import DependencyUse.Proofs.Verdict.Relevance
import DependencyUse.Proofs.Verdict.Traces
import DependencyUse.Reexport.Chain
import DependencyUse.Reexport.Flow
import DependencyUse.Reexport.Index
import DependencyUse.Reexport.Trace
import DependencyUse.Report.Format
import DependencyUse.Report.Text
import DependencyUse.Resolve
import DependencyUse.Settings.Basic
import DependencyUse.Settings.Check
import DependencyUse.Settings.Components
import DependencyUse.Settings.Load
import DependencyUse.Settings.Sources
import DependencyUse.Settings.Template
import DependencyUse.Source.Cursor
import DependencyUse.Source.File
import DependencyUse.Source.Grammar.Basic
import DependencyUse.Source.Grammar.Declarations
import DependencyUse.Source.Grammar.Expressions
import DependencyUse.Source.Grammar.Functions
import DependencyUse.Source.Grammar.Markup
import DependencyUse.Source.Grammar.Modules
import DependencyUse.Source.Grammar.Patterns
import DependencyUse.Source.Grammar.Statements
import DependencyUse.Source.Grammar.Types
import DependencyUse.Source.Lexer
import DependencyUse.Source.Reader
import DependencyUse.Source.Token
import DependencyUse.Source.Tree
import DependencyUse.Text.Blank
import DependencyUse.Text.Letters
import DependencyUse.Toml.Document
import DependencyUse.Toml.Scalar
import DependencyUse.Toml.Text
import DependencyUse.Toml.Value
import DependencyUse.Verdict.Basic
import DependencyUse.Verdict.Classify
import DependencyUse.Verdict.Evidence
import DependencyUse.Warning
import DependencyUse.Proofs.ParseCache
import DependencyUse.Proofs.Resolve
import DependencyUse.Proofs.Reexport.Bound
import DependencyUse.Proofs.Reexport.Cycles
import DependencyUse.Proofs.Path.Shown
import DependencyUse.Proofs.Reexport.Reach
import DependencyUse.Proofs.Distinct
import DependencyUse.Proofs.Reexport.Once
import DependencyUse.Proofs.Verdict.Growth
import DependencyUse.Proofs.Verdict.Listing
import DependencyUse.Proofs.CallGraph.Agreement
import DependencyUse.Proofs.Verdict.Warnings
import DependencyUse.Proofs.Source.Sites
import DependencyUse.Proofs.Source.Reading.Span
import DependencyUse.Proofs.Source.Reading.Token
import DependencyUse.Proofs.Source.Reading.Ensures
import DependencyUse.Proofs.Source.Reading.Patterns
import DependencyUse.Proofs.Source.Reading.Types
import DependencyUse.Proofs.Source.Reading.Functions
import DependencyUse.Proofs.Source.Reading.Markup
import DependencyUse.Proofs.Source.Reading.Primary
import DependencyUse.Proofs.Source.Reading.Expressions
import DependencyUse.Proofs.Source.Reading.Declarations
import DependencyUse.Proofs.Source.Reading.Modules
import DependencyUse.Proofs.Source.Reading.Statements
import DependencyUse.Proofs.Source.Reading.Module
import DependencyUse.Proofs.Source.Visit
import DependencyUse.Proofs.Source.Wrappers
import DependencyUse.Proofs.Path.Place
import DependencyUse.Proofs.Text.Bytes
import DependencyUse.Proofs.Json.Fields
import DependencyUse.Proofs.Manifest
import DependencyUse.Proofs.Report.Colours
import DependencyUse.Proofs.Reexport.Everything
import DependencyUse.Proofs.CallGraph.Members
import DependencyUse.Proofs.Location
import DependencyUse.Proofs.Path.Stable
