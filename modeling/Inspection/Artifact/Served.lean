import Inspection.Discovery
import Inspection.Operation
import Inspection.Window

/-!
# Artifact — what servers give

The schema of every database, the points of every metric over the window, and the alerts that are
firing.  Names come from servers, so a database whose name is no plain file name is left out.
-/

namespace Inspection.Artifact

/-- Whether the name of a database can be that of a file. -/
def isFileName (name : String) : Bool :=
  !name.isEmpty && name.toList.head? != some '.' &&
    !name.toList.any fun c => c = '/' || c = '\\' || c = '\x00'

/-- The operation that fetches the schema of a database. -/
def schema (root address : String) (timeout : Nat) (database : String) : Operation where
  collector := .http {
    name := database, address, path := "/schema", segments := [database],
    timeout := some timeout }
  sink := .file (Path.join (Path.join root "dbinfo") (database ++ ".json"))
  hook := none

/-- The operations on the databases whose name can be that of a file. -/
def schemas (root address : String) (timeout : Nat) (databases : List String) : List Operation :=
  (databases.filter isFileName).map (schema root address timeout)

/-- The metric that stands for the alerts. -/
def alertMetric : String := "ALERTS"

/-- The operation that fetches the points of a metric. -/
def metricRange (root address : String) (timeout : Nat) (w : Window) (metric : String) :
    Operation where
  collector := .http {
    name := metric, address, path := "/api/v1/query_range",
    params := [("query", metric), ("start", Text.integer w.start.seconds),
      ("end", Text.integer w.finish.seconds), ("step", Text.natural w.step)],
    timeout := some timeout }
  sink := .file (Path.join (Path.join root "metric") (w.fileName metric))
  hook := none

/-- The operations on the metrics, without the one that stands for the alerts. -/
def metricRanges (root address : String) (timeout : Nat) (w : Window) (metrics : List String) :
    List Operation :=
  (metrics.filter (· ≠ alertMetric)).map (metricRange root address timeout w)

/-- The operation that fetches the alerts. -/
def alerts (root address : String) (timeout : Nat) : Operation where
  collector := .http {
    name := "alerts", address, path := "/api/v1/query", params := [("query", alertMetric)],
    timeout := some timeout }
  sink := .file (Path.join (Path.join root "metric") "alert.json")
  hook := none

/-- The operation that stands for what could not be prepared. -/
def unprepared (q : Query) (error : DiscoveryError) : Operation where
  collector := .preparation (q.title ++ " on " ++ q.address) error.message
  sink := .discard
  hook := none

end Inspection.Artifact
