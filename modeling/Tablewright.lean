import Tablewright.Main
import Tablewright.Rule.Builder
import Tablewright.Rule.Document
import Tablewright.Proofs.Table.Definition
import Tablewright.Proofs.Table.Interchange
import Tablewright.Proofs.Table.Default
import Tablewright.Proofs.Table.Calls
import Tablewright.Proofs.Row.Agreement
import Tablewright.Proofs.Catalog.Requests
import Tablewright.Proofs.Table.Compiles
import Tablewright.Proofs.Table.NotNull
import Tablewright.Proofs.Deployment.Cleanup
import Tablewright.Proofs.Deployment.Preview
import Tablewright.Proofs.Catalog.Registration
import Tablewright.Proofs.Table.ListedDefault
import Tablewright.Proofs.Row.FixedPoint
import Tablewright.Proofs.Row.Complaints
import Tablewright.Proofs.Row.Positions
import Tablewright.Proofs.Table.Idempotence
import Tablewright.Proofs.Table.Pinpoint
import Tablewright.Proofs.Row.Grammar
import Tablewright.Proofs.Row.Layered
import Tablewright.Proofs.Row.Refined
import Tablewright.Proofs.Row.Branches
import Tablewright.Proofs.Rule.Unwrapping
import Tablewright.Proofs.Sql.Default
import Tablewright.Proofs.Sql.Outline
import Tablewright.Proofs.Deployment.AllOrNothing
import Tablewright.Proofs.Log.Stack
import Tablewright.Proofs.Rule.Settings
import Tablewright.Proofs.Sql.Quoting
import Tablewright.Proofs.Row.FieldNames
import Tablewright.Proofs.Sql.WholeDefault
import Tablewright.Proofs.Log.Line
