import Inspection.Main
import Inspection.Schedule
import Inspection.Proofs.Check
import Inspection.Proofs.Path
import Inspection.Proofs.Plan.Confined
import Inspection.Proofs.Plan.Profiled
import Inspection.Proofs.Schedule.Chronicle
import Inspection.Proofs.Execution.Endings
import Inspection.Proofs.Schedule.Accounts
import Inspection.Proofs.Execution.Isolated
import Inspection.Proofs.Schedule.Arranged
import Inspection.Proofs.Plan.Apart
import Inspection.Proofs.Plan.Unasked
import Inspection.Proofs.Records
import Inspection.Proofs.Files
import Inspection.Proofs.Plan.Warned
import Inspection.Proofs.Target
import Inspection.Proofs.Duration
import Inspection.Proofs.Plan.Fetched
import Inspection.Proofs.Plan.Queried
import Inspection.Proofs.Window
import Inspection.Proofs.Plan.Named
import Inspection.Proofs.Execution.Failed
import Inspection.Proofs.Plan.Exported
import Inspection.Proofs.Archive
import Inspection.Proofs.Sink
