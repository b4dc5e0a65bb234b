import Inspection.Proofs.Path
import Inspection.Proofs.Plan.Asking
import Inspection.Proofs.Text.Decimal

/-!
# Plan — where the names of servers lead

The names of databases and of metrics come from servers, and stand in the names of files.  Names of
databases are looked at first, so a database never leads out of its directory.  Names of metrics are
taken as they are: a metric stays in its directory exactly when its name, up to the last slash,
leads back there, as it does without any slash.

* `served_names_confined`: what stays in its directory, and what does not.
* `climbing_metric_escapes`: a name that does not.
-/

namespace Inspection

/-- An operation writes a file right in a directory, or else it fails and writes nothing. -/
def Operation.Confined (directory : String) (operation : Operation) : Prop :=
  (∃ path, operation.sink.path? = some path ∧ Path.LiesIn directory path) ∨
    operation.sink.path? = none ∧ ∃ cause, operation.FailsToPrepare cause

theorem Operation.confined_iff_of_path {directory path : String} {operation : Operation}
    (h : operation.sink.path? = some path) :
    operation.Confined directory ↔ Path.LiesIn directory path := by
  constructor
  · rintro (⟨other, ho, hl⟩ | ⟨hn, -⟩)
    · rw [h] at ho
      rwa [Option.some.inj ho]
    · rw [h] at hn
      cases hn
  · intro hl
    exact .inl ⟨path, h, hl⟩

/-! ### Names of files -/

/-- What follows the name of a metric in that of its file. -/
def Window.fileEnding (w : Window) : String :=
  "_" ++ Text.integer w.start.seconds ++ "_to_" ++ Text.integer w.finish.seconds ++
    "_" ++ Text.natural w.step ++ "s.json"

theorem Window.fileName_eq (w : Window) (metric : String) :
    w.fileName metric = metric ++ w.fileEnding := by
  simp only [fileName, fileEnding, String.append_assoc]

theorem Window.slash_notMem_fileEnding (w : Window) : '/' ∉ w.fileEnding.toList := by
  simp [fileEnding, Text.notMem_integer, Text.notMem_natural]

theorem Window.length_fileEnding (w : Window) : 2 < w.fileEnding.length := by
  rw [fileEnding, String.length_append]
  exact Nat.lt_add_left _ (by decide)

/-! ### Operations on names -/

namespace Artifact

theorem slash_notMem_of_isFileName {name : String} (h : isFileName name = true) :
    '/' ∉ name.toList := by
  intro hm
  simp only [isFileName, Bool.and_eq_true, Bool.not_eq_true', List.any_eq_false] at h
  exact h.2 _ hm (by decide)

theorem schema_confined (root address : String) (timeout : Nat) {database : String}
    (h : isFileName database = true) :
    (schema root address timeout database).Confined (Path.join root "dbinfo") :=
  .inl ⟨_, rfl, Path.liesIn_join_name _
    (Path.isName_append (slash_notMem_of_isFileName h) (by decide) (by decide))⟩

/-- A metric stays in its directory exactly when its name leads back there. -/
theorem metricRange_confined_iff (root address : String) (timeout : Nat) (w : Window)
    (metric : String) :
    (metricRange root address timeout w metric).Confined (Path.join root "metric") ↔
      Path.LeadsBack (Path.join root "metric") metric := by
  refine (Operation.confined_iff_of_path rfl).trans ?_
  rw [Window.fileName_eq]
  exact Path.liesIn_join_iff _ _ (Path.isName_append (Path.slash_notMem_last metric)
    w.slash_notMem_fileEnding w.length_fileEnding)

theorem alerts_confined (root address : String) (timeout : Nat) :
    (alerts root address timeout).Confined (Path.join root "metric") :=
  .inl ⟨_, rfl, Path.liesIn_join_name _ ⟨by decide, by decide, by decide, by decide⟩⟩

theorem unprepared_confined (directory : String) (q : Query) (e : DiscoveryError) :
    (unprepared q e).Confined directory :=
  .inr ⟨rfl, _, unprepared_failsToPrepare q e⟩

end Artifact

/-! ### Groups -/

section

variable {t : Topology} {o : Options} {d : Discovery} {now : Instant} {plan : Plan}

theorem dbinfo_confined (h : (Plan.build t o d now).outcome = .ok plan) {operation : Operation}
    (hm : operation ∈ plan.group .dbinfo) :
    operation.Confined (Path.join o.inspectionDir "dbinfo") := by
  rw [group_dbinfo h] at hm
  cases ha : Planning.askedForDatabases t o with
  | none => rw [ha] at hm; cases hm
  | some address =>
    rw [ha, Option.map_some, Option.getD_some] at hm
    split at hm
    next names _ =>
      obtain ⟨name, hn, rfl⟩ := List.mem_map.mp hm
      exact Artifact.schema_confined _ _ _ (List.mem_filter.mp hn).2
    next e _ =>
      rw [List.mem_singleton.mp hm]
      exact Artifact.unprepared_confined _ _ e

/-- An operation on metrics stays in their directory, or it is on a name that leads elsewhere. -/
theorem metric_confined_or (h : (Plan.build t o d now).outcome = .ok plan) {operation : Operation}
    (hm : operation ∈ plan.group .metric) :
    operation.Confined (Path.join o.inspectionDir "metric") ∨
      ∃ address names metric w, .metrics address ∈ (Plan.build t o d now).queries ∧
        d (.metrics address) = .ok names ∧ metric ∈ names ∧ metric ≠ "ALERTS" ∧
        operation =
          Artifact.metricRange o.inspectionDir address o.httpTimeout.toNat w metric := by
  cases ha : Planning.askedForMetrics t o with
  | none => rw [group_metric_eq_nil h ha] at hm; cases hm
  | some address =>
    obtain ⟨-, w, -, -, hg⟩ := group_metric h ha
    rw [hg, List.mem_append] at hm
    rcases hm with hm | hm
    · split at hm
      next names hnames =>
        obtain ⟨metric, hn, rfl⟩ := List.mem_map.mp hm
        obtain ⟨hn, hne⟩ := List.mem_filter.mp hn
        exact .inr ⟨address, names, metric, w, (metrics_mem_queries h).mpr ha, hnames, hn,
          of_decide_eq_true hne, rfl⟩
      next e _ =>
        rw [List.mem_singleton.mp hm]
        exact .inl (Artifact.unprepared_confined _ _ e)
    · rw [List.mem_singleton.mp hm]
      exact .inl (Artifact.alerts_confined ..)

/-- Every metric that is given is exported, but for the one that stands for the alerts. -/
theorem metricRange_mem_group (h : (Plan.build t o d now).outcome = .ok plan) {address : String}
    {names : List String} {metric : String}
    (ha : .metrics address ∈ (Plan.build t o d now).queries)
    (hnames : d (.metrics address) = .ok names) (hm : metric ∈ names) (hne : metric ≠ "ALERTS") :
    ∃ w, Artifact.metricRange o.inspectionDir address o.httpTimeout.toNat w metric ∈
      plan.group .metric := by
  obtain ⟨-, w, -, -, hg⟩ := group_metric h ((metrics_mem_queries h).mp ha)
  refine ⟨w, ?_⟩
  rw [hg, hnames]
  exact List.mem_append_left _
    (List.mem_map_of_mem (List.mem_filter.mpr ⟨hm, decide_eq_true hne⟩))

/-- **Where the names of servers lead.**  An operation on a database writes a file right in the
directory of databases, or fails and writes nothing.  So does an operation on metrics in theirs,
unless it is on a given name with a slash that leads elsewhere; and all of them do exactly when all
names that are given, up to their last slash, lead back to that directory. -/
theorem served_names_confined (h : (Plan.build t o d now).outcome = .ok plan) :
    (∀ operation ∈ plan.group .dbinfo,
      operation.Confined (Path.join o.inspectionDir "dbinfo")) ∧
    (∀ operation ∈ plan.group .metric,
      operation.Confined (Path.join o.inspectionDir "metric") ∨
        ∃ address names metric w, .metrics address ∈ (Plan.build t o d now).queries ∧
          d (.metrics address) = .ok names ∧ metric ∈ names ∧ '/' ∈ metric.toList ∧
          ¬ Path.LeadsBack (Path.join o.inspectionDir "metric") metric ∧
          operation =
            Artifact.metricRange o.inspectionDir address o.httpTimeout.toNat w metric) ∧
    ((∀ operation ∈ plan.group .metric,
      operation.Confined (Path.join o.inspectionDir "metric")) ↔
      ∀ address names, .metrics address ∈ (Plan.build t o d now).queries →
        d (.metrics address) = .ok names → ∀ metric ∈ names, metric ≠ "ALERTS" →
          Path.LeadsBack (Path.join o.inspectionDir "metric") metric) := by
  refine ⟨fun operation hm => dbinfo_confined h hm, fun operation hm => ?_, fun hall => ?_,
    fun hall operation hm => ?_⟩
  · rcases metric_confined_or h hm with hc | ⟨address, names, metric, w, ha, hn, hmem, -, rfl⟩
    · exact .inl hc
    · rw [Artifact.metricRange_confined_iff]
      by_cases hl : Path.LeadsBack (Path.join o.inspectionDir "metric") metric
      · exact .inl hl
      · by_cases hslash : '/' ∈ metric.toList
        · exact .inr ⟨address, names, metric, w, ha, hn, hmem, hslash, hl, rfl⟩
        · exact absurd (Path.leadsBack_of_slash_notMem _ hslash) hl
  · intro address names ha hn metric hmem hne
    obtain ⟨w, hw⟩ := metricRange_mem_group h ha hn hmem hne
    exact (Artifact.metricRange_confined_iff ..).mp (hall _ hw)
  · rcases metric_confined_or h hm with hc | ⟨address, names, metric, w, ha, hn, hmem, hne, rfl⟩
    · exact hc
    · exact (Artifact.metricRange_confined_iff ..).mpr (hall address names ha hn metric hmem hne)

end

/-- Servers that give plain names, but for a database that tells of another directory. -/
def plainNames : Discovery
  | .databases _ => .ok ["test", "../escape"]
  | .metrics _ => .ok ["up", "ALERTS", "./go_info"]

theorem served_names_confined_small :
    ∃ plan, (Plan.build smallCluster askingRun plainNames .earliest).outcome = .ok plan ∧
      (plan.group .dbinfo).length = 1 ∧ (plan.group .metric).length = 3 ∧
      (∀ operation ∈ plan.group .dbinfo, operation.Confined "/data/insp-1/dbinfo") ∧
      ∀ operation ∈ plan.group .metric, operation.Confined "/data/insp-1/metric" := by
  have h : (Plan.build smallCluster askingRun plainNames .earliest).outcome = .ok _ := rfl
  refine ⟨_, h, rfl, rfl, (served_names_confined h).1, (served_names_confined h).2.2.mpr ?_⟩
  rintro address names - ⟨⟩ metric hm -
  have hback : ∀ metric ∈ ["up", "ALERTS", "./go_info"],
      Path.components (Path.join "/data/insp-1/metric" (Path.lead metric)) =
        Path.components "/data/insp-1/metric" := by decide
  exact hback metric hm

/-- Servers that give a metric whose name climbs. -/
def climbingNames : Discovery
  | .databases _ => .ok []
  | .metrics _ => .ok ["../../../escape"]

theorem climbing_metric_escapes :
    ∃ plan, (Plan.build smallCluster askingRun climbingNames .earliest).outcome = .ok plan ∧
      ∃ operation ∈ plan.group .metric, operation.sink.path? =
        some "/data/insp-1/metric/../../../escape_-8334601228800_to_-8334601228800_15s.json" ∧
        ¬ Path.LiesIn (Path.join askingRun.inspectionDir "metric")
          "/data/insp-1/metric/../../../escape_-8334601228800_to_-8334601228800_15s.json" := by
  refine ⟨_, rfl, _, List.mem_cons_self, rfl, ?_⟩
  rintro ⟨name, -, he⟩
  -- The steps up and the step down are components too, and a file in the directory has none.
  have hlength := congrArg List.length he
  rw [List.length_append, List.length_singleton] at hlength
  exact absurd hlength (by decide)

end Inspection
