import ScopeMetrics.Analysis
import ScopeMetrics.Arithmetic
import ScopeMetrics.Bag
import ScopeMetrics.Batch
import ScopeMetrics.Bundle
import ScopeMetrics.Category
import ScopeMetrics.Classify
import ScopeMetrics.Command.Arguments
import ScopeMetrics.Command.Run
import ScopeMetrics.Command.Table
import ScopeMetrics.Decimal.Binary
import ScopeMetrics.Decimal.Written
import ScopeMetrics.Declaration
import ScopeMetrics.Directives
import ScopeMetrics.Disk
import ScopeMetrics.Event
import ScopeMetrics.Failure
import ScopeMetrics.Frame
import ScopeMetrics.Frame.Build
import ScopeMetrics.Language
import ScopeMetrics.Lines
import ScopeMetrics.Log.Call
import ScopeMetrics.Log.Journal
import ScopeMetrics.Log.Record
import ScopeMetrics.Log.Setup
import ScopeMetrics.Main
import ScopeMetrics.Metric.Complexity
import ScopeMetrics.Metric.Counts
import ScopeMetrics.Metric.Halstead
import ScopeMetrics.Metric.Maintainability
import ScopeMetrics.Pack
import ScopeMetrics.Pack.All
import ScopeMetrics.Pack.Cpp
import ScopeMetrics.Pack.Csharp
import ScopeMetrics.Pack.Go
import ScopeMetrics.Pack.Java
import ScopeMetrics.Pack.Markup
import ScopeMetrics.Pack.Python
import ScopeMetrics.Pack.Rust
import ScopeMetrics.Pack.Script
import ScopeMetrics.Parcel
import ScopeMetrics.Path
import ScopeMetrics.Path.Fault
import ScopeMetrics.Reading
import ScopeMetrics.Session
import ScopeMetrics.Settings
import ScopeMetrics.Settings.Check
import ScopeMetrics.Settings.Load
import ScopeMetrics.Settings.Whole
import ScopeMetrics.SortedSet
import ScopeMetrics.Space
import ScopeMetrics.Space.Export
import ScopeMetrics.Tally
import ScopeMetrics.Text.Blank
import ScopeMetrics.Text.Cased
import ScopeMetrics.Text.Integer
import ScopeMetrics.Text.Lowercase
import ScopeMetrics.Text.Quoted
import ScopeMetrics.Text.Similarity
import ScopeMetrics.Text.Uppercase
import ScopeMetrics.Text.Utf8
import ScopeMetrics.Text.Visible
import ScopeMetrics.Tree.Node
import ScopeMetrics.Tree.Place
import ScopeMetrics.Tree.Source
import ScopeMetrics.Tree.Written
import ScopeMetrics.Value
import ScopeMetrics.Value.Json
import ScopeMetrics.Proofs.Classification
import ScopeMetrics.Proofs.Places
import ScopeMetrics.Proofs.Walk
import ScopeMetrics.Proofs.Routing
import ScopeMetrics.Proofs.Stack
import ScopeMetrics.Proofs.Combining
import ScopeMetrics.Proofs.Rollup
import ScopeMetrics.Proofs.Partition
import ScopeMetrics.Proofs.SourceLines
import ScopeMetrics.Proofs.FlatLines
import ScopeMetrics.Proofs.Tables
import ScopeMetrics.Proofs.Likeness
import ScopeMetrics.Proofs.Isolation
import ScopeMetrics.Proofs.Census
import ScopeMetrics.Proofs.Insertion
import ScopeMetrics.Proofs.Passing
import ScopeMetrics.Proofs.Malformed
import ScopeMetrics.Proofs.Comments
import ScopeMetrics.Proofs.Declarators
import ScopeMetrics.Proofs.Ranges
import ScopeMetrics.Proofs.Tokens
import ScopeMetrics.Proofs.Macros
import ScopeMetrics.Proofs.Blurring
import ScopeMetrics.Proofs.Ledger
import ScopeMetrics.Proofs.Sequences
import ScopeMetrics.Proofs.Chains
import ScopeMetrics.Proofs.Sections
import ScopeMetrics.Proofs.Arms
import ScopeMetrics.Proofs.Tallying
import ScopeMetrics.Proofs.Doubles
import ScopeMetrics.Proofs.EntryPaths
import ScopeMetrics.Proofs.Ownership
import ScopeMetrics.Proofs.Indexes
import ScopeMetrics.Proofs.Assembly
import ScopeMetrics.Proofs.Vocabulary
import ScopeMetrics.Proofs.Accounting
import ScopeMetrics.Proofs.Shapes
import ScopeMetrics.Proofs.WrittenPaths
import ScopeMetrics.Proofs.Checking
import ScopeMetrics.Proofs.Loading
import ScopeMetrics.Proofs.Merging
import ScopeMetrics.Proofs.Includes
import ScopeMetrics.Proofs.Excerpts
import ScopeMetrics.Proofs.Overlays
import ScopeMetrics.Proofs.SmallLetters
import ScopeMetrics.Proofs.Variables
import ScopeMetrics.Proofs.Precedence
import ScopeMetrics.Proofs.EmptyTexts
import ScopeMetrics.Proofs.Exclusive
