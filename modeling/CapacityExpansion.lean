import CapacityExpansion.Assembly.Basic
import CapacityExpansion.Assembly.Resolved
import CapacityExpansion.Bundled.Basic
import CapacityExpansion.Bundled.Catalog
import CapacityExpansion.Bundled.Simple
import CapacityExpansion.Csv.Columns
import CapacityExpansion.Csv.Grammar
import CapacityExpansion.Csv.Table
import CapacityExpansion.Csv.Writing
import CapacityExpansion.Data.Checking
import CapacityExpansion.Data.OrderedMap
import CapacityExpansion.Data.OrderedSet
import CapacityExpansion.Data.Sorting
import CapacityExpansion.Decimal.Binary
import CapacityExpansion.Decimal.Layout
import CapacityExpansion.Decimal.Reading
import CapacityExpansion.Decimal.Shortest
import CapacityExpansion.Failure
import CapacityExpansion.Files.Access
import CapacityExpansion.Files.Action
import CapacityExpansion.Files.Documents
import CapacityExpansion.Files.Path
import CapacityExpansion.Files.Records
import CapacityExpansion.Files.Tree
import CapacityExpansion.Integrity.CrossReference
import CapacityExpansion.Integrity.Graph
import CapacityExpansion.Integrity.Validation
import CapacityExpansion.Main
import CapacityExpansion.Patch.Rows
import CapacityExpansion.Patch.Store
import CapacityExpansion.Patch.Tables
import CapacityExpansion.Proofs.Assembly.Coverage
import CapacityExpansion.Proofs.Assembly.Phases
import CapacityExpansion.Proofs.Assembly.Reached
import CapacityExpansion.Proofs.Assembly.Scoping
import CapacityExpansion.Proofs.Assembly.Selection
import CapacityExpansion.Proofs.Csv.RoundTrip
import CapacityExpansion.Proofs.Data.Failure
import CapacityExpansion.Proofs.Data.Grouping
import CapacityExpansion.Proofs.Data.Increasing
import CapacityExpansion.Proofs.Data.Lookup
import CapacityExpansion.Proofs.Data.NewKeys
import CapacityExpansion.Proofs.Data.Success
import CapacityExpansion.Proofs.Data.Translation
import CapacityExpansion.Proofs.Files.Filling
import CapacityExpansion.Proofs.Files.Growing
import CapacityExpansion.Proofs.Files.Lexical
import CapacityExpansion.Proofs.Files.Places
import CapacityExpansion.Proofs.Files.Sparing
import CapacityExpansion.Proofs.Integrity.CheckOrder
import CapacityExpansion.Proofs.Integrity.Findings
import CapacityExpansion.Proofs.Integrity.Offences
import CapacityExpansion.Proofs.Patch.Building
import CapacityExpansion.Proofs.Patch.Effect
import CapacityExpansion.Proofs.Patch.Merging
import CapacityExpansion.Proofs.Patch.Undoing
import CapacityExpansion.Proofs.Requirements.Acceptance
import CapacityExpansion.Proofs.Requirements.Advice
import CapacityExpansion.Proofs.Requirements.Coherence
import CapacityExpansion.Proofs.Results.DefaultFolders
import CapacityExpansion.Proofs.Results.LoadZoneCells
import CapacityExpansion.Proofs.Results.Neighbours
import CapacityExpansion.Proofs.Results.NewFolders
import CapacityExpansion.Proofs.Results.Timelines
import CapacityExpansion.Proofs.Session.DefaultResults
import CapacityExpansion.Proofs.Session.Resolving
import CapacityExpansion.Proofs.Session.Running
import CapacityExpansion.Proofs.Session.Validation
import CapacityExpansion.Proofs.Store.LoadedRows
import CapacityExpansion.Proofs.Store.Loading
import CapacityExpansion.Proofs.Store.Parts
import CapacityExpansion.Proofs.Store.Registering
import CapacityExpansion.Proofs.Store.RowGroups
import CapacityExpansion.Proofs.Store.TemporalRows
import CapacityExpansion.Proofs.Temporal.Acceptance
import CapacityExpansion.Proofs.Temporal.Agreement
import CapacityExpansion.Proofs.Temporal.Arrangement
import CapacityExpansion.Proofs.Temporal.Boundaries
import CapacityExpansion.Proofs.Temporal.Carryover
import CapacityExpansion.Proofs.Temporal.Declarations
import CapacityExpansion.Proofs.Temporal.Defects
import CapacityExpansion.Proofs.Temporal.Demotions
import CapacityExpansion.Proofs.Temporal.FirstSubproblems
import CapacityExpansion.Proofs.Temporal.Guarded
import CapacityExpansion.Proofs.Temporal.Horizons
import CapacityExpansion.Proofs.Temporal.IndexRules
import CapacityExpansion.Proofs.Temporal.Linkage
import CapacityExpansion.Proofs.Temporal.Links
import CapacityExpansion.Proofs.Temporal.LookingBack
import CapacityExpansion.Proofs.Temporal.Membership
import CapacityExpansion.Proofs.Temporal.Neighbours
import CapacityExpansion.Proofs.Temporal.Partition
import CapacityExpansion.Proofs.Temporal.Rearrangement
import CapacityExpansion.Proofs.Temporal.Rejection
import CapacityExpansion.Proofs.Temporal.Renumbered
import CapacityExpansion.Proofs.Temporal.Renumbering
import CapacityExpansion.Proofs.Temporal.Repetition
import CapacityExpansion.Proofs.Temporal.Reporting
import CapacityExpansion.Proofs.Temporal.Resolved
import CapacityExpansion.Proofs.Temporal.Safety
import CapacityExpansion.Proofs.Temporal.SharedHorizons
import CapacityExpansion.Proofs.Temporal.Spans
import CapacityExpansion.Proofs.Temporal.Stages
import CapacityExpansion.Proofs.Temporal.WellFormed
import CapacityExpansion.Proofs.Toml.Documents
import CapacityExpansion.Proofs.Toml.Keys
import CapacityExpansion.Proofs.Toml.Statements
import CapacityExpansion.Report
import CapacityExpansion.Requirements.Check
import CapacityExpansion.Requirements.Format
import CapacityExpansion.Requirements.Loading
import CapacityExpansion.Requirements.Reading
import CapacityExpansion.Requirements.Table
import CapacityExpansion.Results.Folder
import CapacityExpansion.Results.Metadata
import CapacityExpansion.Results.Tables
import CapacityExpansion.Scenario.Basic
import CapacityExpansion.Scenario.Category
import CapacityExpansion.Scenario.Feature
import CapacityExpansion.Scenario.Format
import CapacityExpansion.Scenario.Loading
import CapacityExpansion.Scenario.View
import CapacityExpansion.Session.Arguments
import CapacityExpansion.Session.Commands
import CapacityExpansion.Session.Log
import CapacityExpansion.Session.Program
import CapacityExpansion.Session.Reach
import CapacityExpansion.Session.World
import CapacityExpansion.Settings
import CapacityExpansion.Store.Basic
import CapacityExpansion.Store.Columns
import CapacityExpansion.Store.Loading
import CapacityExpansion.Store.Rows
import CapacityExpansion.Temporal.Carryover
import CapacityExpansion.Temporal.Columns
import CapacityExpansion.Temporal.Declarations
import CapacityExpansion.Temporal.Fault
import CapacityExpansion.Temporal.Hierarchy
import CapacityExpansion.Temporal.Membership
import CapacityExpansion.Temporal.Resolution
import CapacityExpansion.Temporal.Tables
import CapacityExpansion.Temporal.Timeline
import CapacityExpansion.Text.Blank
import CapacityExpansion.Text.CaseFolding
import CapacityExpansion.Text.Encoding
import CapacityExpansion.Text.Quoted
import CapacityExpansion.Text.Split
import CapacityExpansion.Text.Unprintable
import CapacityExpansion.Toml.DateTime
import CapacityExpansion.Toml.Document
import CapacityExpansion.Toml.Printing
import CapacityExpansion.Toml.Reading
import CapacityExpansion.Toml.Scalar
import CapacityExpansion.Toml.Statement
import CapacityExpansion.Toml.Strings
import CapacityExpansion.Toml.Value
