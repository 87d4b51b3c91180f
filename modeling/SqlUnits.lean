import SqlUnits.Access.Context
import SqlUnits.Main
import SqlUnits.Project.Command
import SqlUnits.Proofs.Check.Trace
import SqlUnits.Proofs.Project.Again
import SqlUnits.Proofs.Query.Placement
import SqlUnits.Proofs.Check.Binding
import SqlUnits.Proofs.Check.Generating
import SqlUnits.Proofs.Access.RowFactory
import SqlUnits.Proofs.Check.Fetching
import SqlUnits.Proofs.Database.Run
import SqlUnits.Proofs.Database.Query
import SqlUnits.Proofs.Database.Source
import SqlUnits.Proofs.Access.Layout
import SqlUnits.Proofs.Access.Naming
import SqlUnits.Proofs.Access.Nullability
import SqlUnits.Proofs.Check.Recording
import SqlUnits.Proofs.Check.Execution
import SqlUnits.Proofs.Check.Isolation
import SqlUnits.Proofs.Project.Isolation
import SqlUnits.Proofs.Access.Storing
import SqlUnits.Proofs.Check.Locating
import SqlUnits.Proofs.Artifact.Modules
import SqlUnits.Proofs.Project.Failing
import SqlUnits.Proofs.Artifact.Reading
import SqlUnits.Proofs.Check.Named
import SqlUnits.Proofs.Project.Persistence
import SqlUnits.Proofs.Check.Nullable
import SqlUnits.Proofs.Project.Artifacts
import SqlUnits.Proofs.Project.Incremental
import SqlUnits.Proofs.Project.Verdict
import SqlUnits.Proofs.Unit.Spanning
import SqlUnits.Proofs.Unit.Accepting
import SqlUnits.Proofs.Edit.Forward
import SqlUnits.Proofs.Access.Conventions
import SqlUnits.Proofs.Access.Transactions
import SqlUnits.Proofs.Access.InsertKey
import SqlUnits.Proofs.Unit.Embedding
import SqlUnits.Proofs.Check.Sending
import SqlUnits.Proofs.Check.Denoting
import SqlUnits.Proofs.Check.Covering
import SqlUnits.Proofs.Access.FactoryCache
import SqlUnits.Proofs.Access.Composition
import SqlUnits.Proofs.Project.Naming
import SqlUnits.Proofs.Check.Unused
import SqlUnits.Proofs.Access.Sizes
import SqlUnits.Proofs.Project.Totals
import SqlUnits.Proofs.Access.Calling
import SqlUnits.Proofs.Query.Leftmost
import SqlUnits.Proofs.Text.Hex
import SqlUnits.Proofs.Unit.Integer
import SqlUnits.Proofs.Unit.Totality
import SqlUnits.Proofs.Access.Quoting
