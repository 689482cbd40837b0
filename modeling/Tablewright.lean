import Tablewright.Database.Indexes
import Tablewright.Engine.Opening
import Tablewright.Logging.Setup
import Tablewright.Main
import Tablewright.Proofs.Database.Freshness
import Tablewright.Proofs.Database.Write
import Tablewright.Proofs.Engine.Discipline
import Tablewright.Proofs.Migration.Execution
import Tablewright.Proofs.Rows.Joined
import Tablewright.Proofs.Rows.Returned
import Tablewright.Proofs.Statement.Scope
import Tablewright.Report.Named
import Tablewright.Statement.Call
import Tablewright.Proofs.Migration.Known
import Tablewright.Proofs.Database.Batch
import Tablewright.Proofs.Database.Walk
import Tablewright.Proofs.Database.Closed
import Tablewright.Proofs.Rows.Filled
import Tablewright.Proofs.Rows.Written
import Tablewright.Proofs.Migration.Namespace
import Tablewright.Proofs.Database.Opening
import Tablewright.Proofs.Catalog.ReadBack
import Tablewright.Proofs.Database.IndexNames
import Tablewright.Proofs.Statement.Alike
import Tablewright.Proofs.Settings.Load
import Tablewright.Proofs.Cli.Undisturbed
import Tablewright.Proofs.Cli.Preview
import Tablewright.Proofs.Schema.Stable
import Tablewright.Proofs.Schema.Accepted
import Tablewright.Proofs.Migration.Addable
import Tablewright.Proofs.Statement.Grouping
import Tablewright.Proofs.Statement.Hollow
import Tablewright.Proofs.Statement.Mention
import Tablewright.Proofs.Database.Binding
import Tablewright.Proofs.Statement.Entries
import Tablewright.Proofs.Statement.Definition
import Tablewright.Proofs.Statement.Inlined
import Tablewright.Proofs.Rows.Matched
import Tablewright.Proofs.Rows.Composite
import Tablewright.Proofs.Rows.Keys
import Tablewright.Proofs.Engine.Retryable
import Tablewright.Proofs.Database.IndexTarget
import Tablewright.Proofs.Engine.Cached
import Tablewright.Proofs.Migration.Rehearsal
import Tablewright.Proofs.Settings.Escape
import Tablewright.Proofs.Catalog.Fallback
import Tablewright.Proofs.Catalog.Listing
import Tablewright.Proofs.Logging.Nested
import Tablewright.Proofs.Catalog.Call
import Tablewright.Proofs.Catalog.Described
import Tablewright.Proofs.Engine.Turns
