import Inspection.Arithmetic
import Inspection.Category
import Inspection.Discovery
import Inspection.Operation
import Inspection.Topology

/-!
# Plan

The operations of a run, each in a category.  The operations of a category are its group; groups
are executed in the order of their categories, and there is one for every category.

* `groupOf_append`: the group of two lists of entries is that of the first and then the second.
-/

namespace Inspection

/-- The operations of a run. -/
structure Plan where
  inspectionId : String
  entries : List (Category × Operation)

namespace Plan

/-- The operations of a category among some entries. -/
def groupOf (entries : List (Category × Operation)) (c : Category) : List Operation :=
  (entries.filter (·.1 = c)).map (·.2)

/-- The group of a category. -/
def group (p : Plan) (c : Category) : List Operation := groupOf p.entries c

/-- The groups in the order they are executed. -/
def groups (p : Plan) : List (Category × List Operation) := Category.all.map fun c => (c, p.group c)

/-- The number of operations. -/
def size (p : Plan) : Nat := Arithmetic.sum (Category.all.map fun c => (p.group c).length)

theorem groupOf_append (a b : List (Category × Operation)) (c : Category) :
    groupOf (a ++ b) c = groupOf a c ++ groupOf b c := by
  simp [groupOf]

theorem groupOf_map (c d : Category) (os : List Operation) :
    groupOf (os.map fun o => (c, o)) d = if c = d then os else [] := by
  induction os with
  | nil => simp [groupOf]
  | cons o os ih =>
    unfold groupOf at ih ⊢
    by_cases h : c = d
    · simp only [List.map_cons, h, decide_true, List.filter_cons_of_pos, if_true] at ih ⊢
      rw [ih]
    · simp only [List.map_cons, h, decide_false, Bool.false_eq_true, not_false_eq_true,
        List.filter_cons_of_neg, if_false] at ih ⊢
      exact ih

end Plan

/-- Something about a run that its reader should know. -/
inductive Warning
  | topologyErrors (cluster : String)
  | hostErrors (ip : String)
  | skipped (kind : ServiceKind) (ip : String) (status : Status)
  | noProfilePort (kind : ServiceKind) (ip : String)
  | noSchemaPort (ip : String)
  | noMetricPort (ip : String)
  | badDatabaseName (name : String)
  | discoveryFailed (query : Query) (error : DiscoveryError)
  deriving DecidableEq

/-- The wording of a warning. -/
def Warning.message : Warning → String
  | topologyErrors cluster => "Topology of '" ++ cluster ++ "' was discovered with errors"
  | hostErrors ip => "Host " ++ ip ++ " reported errors, collecting what is reachable"
  | skipped kind ip status =>
    "Skipping " ++ kind.name ++ " on " ++ ip ++ ": status is " ++ status.title
  | noProfilePort kind ip =>
    "Cannot profile " ++ kind.name ++ " on " ++ ip ++ ": no port in topology"
  | noSchemaPort ip =>
    "Cannot read schema from tidb on " ++ ip ++ ": no status port in topology"
  | noMetricPort ip =>
    "Cannot export metrics from prometheus on " ++ ip ++ ": no port in topology"
  | badDatabaseName name =>
    "Skipping schema of database " ++ Text.quoted name ++ ": not usable as a file name"
  | discoveryFailed query error =>
    query.title ++ " on " ++ query.address ++ " failed: " ++ error.message

/-- What planning finds: operations, warnings and the questions it asked, in order. -/
structure Findings where
  entries : List (Category × Operation)
  warnings : List Warning
  queries : List Query

namespace Findings

/-- Nothing. -/
def empty : Findings := ⟨[], [], []⟩

/-- One after the other. -/
def append (a b : Findings) : Findings :=
  ⟨a.entries ++ b.entries, a.warnings ++ b.warnings, a.queries ++ b.queries⟩

instance : Append Findings := ⟨append⟩

/-- Operations of a category. -/
def operations (c : Category) (os : List Operation) : Findings := ⟨os.map fun o => (c, o), [], []⟩

/-- Some warnings. -/
def warn (warnings : List Warning) : Findings := ⟨[], warnings, []⟩

/-- A warning that is due under a condition. -/
def warnIf (condition : Bool) (warning : Warning) : Findings :=
  warn (if condition then [warning] else [])

/-- A question. -/
def query (q : Query) : Findings := ⟨[], [], [q]⟩

@[simp] theorem append_entries (a b : Findings) : (a ++ b).entries = a.entries ++ b.entries := rfl

@[simp] theorem append_warnings (a b : Findings) :
    (a ++ b).warnings = a.warnings ++ b.warnings := rfl

@[simp] theorem append_queries (a b : Findings) : (a ++ b).queries = a.queries ++ b.queries := rfl

end Findings

end Inspection
