import RecordGraph.Data.Binary64
import RecordGraph.Data.Compare
import RecordGraph.Data.Dict
import RecordGraph.Data.Value
import RecordGraph.Failure.Basic
import RecordGraph.Failure.Storage
import RecordGraph.Failure.Validation
import RecordGraph.Failure.Written
import RecordGraph.Proofs.Data.Entries
import RecordGraph.Proofs.Data.Equality
import RecordGraph.Proofs.Data.Steps
import RecordGraph.Proofs.Filter.Conjunction
import RecordGraph.Proofs.Filter.Evaluation
import RecordGraph.Proofs.Filter.Predicate
import RecordGraph.Proofs.Store.Action
import RecordGraph.Proofs.Store.Command
import RecordGraph.Proofs.Store.Connecting
import RecordGraph.Proofs.Store.Constraints
import RecordGraph.Proofs.Store.Keys
import RecordGraph.Proofs.Store.Linking
import RecordGraph.Proofs.Store.Loading
import RecordGraph.Proofs.Store.Replacement
import RecordGraph.Proofs.Store.Shape
import RecordGraph.Schema.Association
import RecordGraph.Schema.Attribute
import RecordGraph.Schema.Error
import RecordGraph.Schema.Model
import RecordGraph.Schema.Registry
import RecordGraph.Schema.Written
import RecordGraph.Select.Compiled
import RecordGraph.Select.Condition
import RecordGraph.Select.Descriptor
import RecordGraph.Select.Expr
import RecordGraph.Select.Operator
import RecordGraph.Select.Query
import RecordGraph.Select.Renaming
import RecordGraph.Select.Request
import RecordGraph.Select.Route
import RecordGraph.Select.Selection
import RecordGraph.Select.Written
import RecordGraph.Store.Backend
import RecordGraph.Store.Database
import RecordGraph.Store.Engine
import RecordGraph.Store.Filter
import RecordGraph.Store.Journal
import RecordGraph.Store.Linking
import RecordGraph.Store.Loading
import RecordGraph.Store.Result
import RecordGraph.Store.Row
import RecordGraph.Store.Table
import RecordGraph.Store.Written
import RecordGraph.Text.CaseTable
import RecordGraph.Text.Decimal
import RecordGraph.Text.Document
import RecordGraph.Text.Dotted
import RecordGraph.Text.Lowercase
import RecordGraph.Text.Pattern
import RecordGraph.Text.Reader
import RecordGraph.Write.Cascade
import RecordGraph.Write.Draft
import RecordGraph.Write.Repository
import RecordGraph.Write.Run
import RecordGraph.Proofs.Filter.Strength
import RecordGraph.Proofs.Store.FreshKeys
import RecordGraph.Proofs.Store.Lockstep
import RecordGraph.Proofs.Store.Transactions
import RecordGraph.Proofs.Write.Atomicity
import RecordGraph.Proofs.Write.Blame
import RecordGraph.Proofs.Write.Locating
import RecordGraph.Proofs.Write.Reached
import RecordGraph.Proofs.Write.Inserted
import RecordGraph.Proofs.Write.Performed
import RecordGraph.Proofs.Store.Lookups
import RecordGraph.Proofs.Store.SoleKeys
import RecordGraph.Proofs.Store.KeptRows
import RecordGraph.Proofs.Store.RowWrites
import RecordGraph.Proofs.Select.Equality
import RecordGraph.Proofs.Select.Merging
import RecordGraph.Proofs.Schema.Names
import RecordGraph.Proofs.Write.Labels
import RecordGraph.Proofs.Store.Compliance
import RecordGraph.Proofs.Write.AttachOnly
import RecordGraph.Proofs.Write.Invariant
import RecordGraph.Proofs.Store.Inverse
import RecordGraph.Proofs.Store.Snapshots
import RecordGraph.Proofs.Store.Visibility
import RecordGraph.Proofs.Filter.Clauses
import RecordGraph.Proofs.Text.Dotted
import RecordGraph.Proofs.Select.Paths
import RecordGraph.Proofs.Text.Pattern
import RecordGraph.Proofs.Write.Run
import RecordGraph.Proofs.Write.Upkeep
import RecordGraph.Proofs.Write.ReadBack
import RecordGraph.Proofs.Filter.Folding
import RecordGraph.Proofs.Select.References
import RecordGraph.Proofs.Select.Aliases
import RecordGraph.Proofs.Store.Reading
import RecordGraph.Proofs.Store.KeyOrder
import RecordGraph.Proofs.Store.Required
import RecordGraph.Proofs.Write.Visits
import RecordGraph.Proofs.Write.ErrorKeys
import RecordGraph.Proofs.Write.Stamping
import RecordGraph.Proofs.Filter.Mentions
import RecordGraph.Proofs.Store.Overwriting
import RecordGraph.Proofs.Select.Collisions
import RecordGraph.Proofs.Store.Rewriting
import RecordGraph.Proofs.Write.Updating
import RecordGraph.Proofs.Write.Saving
import RecordGraph.Proofs.Filter.Literals
import RecordGraph.Proofs.Store.Selecting
import RecordGraph.Proofs.Write.Upserting
import RecordGraph.Proofs.Write.Addressing
import RecordGraph.Proofs.Write.FindOrCreate
import RecordGraph.Proofs.Write.Copying
import RecordGraph.Proofs.Store.BulkUpdating
import RecordGraph.Proofs.Store.Targeting
import RecordGraph.Proofs.Store.Pointing
import RecordGraph.Proofs.Write.BulkReadBack
import RecordGraph.Proofs.Write.Naming
import RecordGraph.Proofs.Store.Inserting
import RecordGraph.Proofs.Store.Writes
import RecordGraph.Proofs.Store.Addressable
import RecordGraph.Proofs.Store.Refusals
import RecordGraph.Proofs.Store.Anchoring
import RecordGraph.Proofs.Write.Footprint
import RecordGraph.Proofs.Write.Orphans
import RecordGraph.Proofs.Data.Rounding
import RecordGraph.Proofs.Store.IntegerKeys
import RecordGraph.Proofs.Filter.Negation
import RecordGraph.Proofs.Store.Dependence
import RecordGraph.Proofs.Store.JoinColumns
import RecordGraph.Proofs.Store.Unregistered
import RecordGraph.Proofs.Data.Sorting
import RecordGraph.Proofs.Store.Ordering
import RecordGraph.Proofs.Store.Paging
import RecordGraph.Proofs.Store.NullOrder
import RecordGraph.Proofs.Store.OptionalIncludes
import RecordGraph.Proofs.Store.Restoring
import RecordGraph.Proofs.Store.Depth
import RecordGraph.Proofs.Store.Extremes
import RecordGraph.Proofs.Select.Building
import RecordGraph.Proofs.Select.Chains
import RecordGraph.Proofs.Select.Projections
import RecordGraph.Proofs.Write.Regrouping
