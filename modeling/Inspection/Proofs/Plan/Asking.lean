import Inspection.Proofs.Plan.Settled

/-!
# Plan — what a cluster is asked

A cluster is asked for its databases once at most, and for its metrics once at most: each at the
first instance, host by host, that can be asked.  An instance that cannot be asked does not use up
the question, and one that does not answer does.

* `databases_asked_once`: the one question about databases, and the operations it leads to.
* `metrics_asked_once`: the one question about metrics, and the operations it leads to.
-/

namespace Inspection

/-- Whether options request a category. -/
def Options.requests (o : Options) (c : Category) : Bool :=
  match TargetSpec.read o.collect with
  | .ok spec => spec.contains c
  | .error _ => false

theorem Options.requests_eq {o : Options} {spec : TargetSpec}
    (h : TargetSpec.read o.collect = .ok spec) (c : Category) : o.requests c = spec.contains c := by
  rw [requests, h]

/-- Whether a question is about databases. -/
def Query.isDatabases : Query → Bool
  | databases _ => true
  | metrics _ => false

/-- Whether a question is about metrics. -/
def Query.isMetrics : Query → Bool
  | databases _ => false
  | metrics _ => true

/-- Every run of the operation fails since something could not be prepared, does nothing else, and
leaves the operation as it is. -/
def Operation.FailsToPrepare (operation : Operation) (cause : String) : Prop :=
  ∀ (w : World) (tree : FileTree),
    operation.run w tree = ⟨.failure (.collection (.preparation cause)), operation, tree, [], []⟩

theorem Artifact.unprepared_failsToPrepare (q : Query) (e : DiscoveryError) :
    (Artifact.unprepared q e).FailsToPrepare e.message := fun _ _ => rfl

/-! ### The first server -/

theorem Host.isSome_databaseServer? {h : Host} {i : Instance} :
    (h.databaseServer? i).isSome = true ↔
      i.isHealthy = true ∧ i.kind = .tidb ∧ (i.statusPort.isSome ∨ i.port.isSome) := by
  unfold databaseServer?
  split
  next hc => simp [hc]
  next hc => simpa using fun hi hk => absurd ⟨hi, hk⟩ hc

theorem Host.isSome_metricServer? {h : Host} {i : Instance} :
    (h.metricServer? i).isSome = true ↔
      i.isHealthy = true ∧ i.kind = .prometheus ∧ i.port.isSome := by
  unfold metricServer?
  split
  next hc => simp [hc]
  next hc => simpa using fun hi hk => absurd ⟨hi, hk⟩ hc

namespace Topology

/-- The instances of a cluster, host by host. -/
def services (t : Topology) : List (Host × Instance) :=
  t.hosts.flatMap fun h => h.instances.map fun i => (h, i)

/-- The address of the first instance that can be asked for databases. -/
def databaseServer? (t : Topology) : Option String :=
  t.services.findSome? fun (h, i) => h.databaseServer? i

/-- The address of the first instance that can be asked for metrics. -/
def metricServer? (t : Topology) : Option String :=
  t.services.findSome? fun (h, i) => h.metricServer? i

theorem mem_services {t : Topology} {h : Host} {i : Instance} :
    (h, i) ∈ t.services ↔ h ∈ t.hosts ∧ i ∈ h.instances := by
  simp only [services, List.mem_flatMap, List.mem_map, Prod.mk.injEq]
  constructor
  · rintro ⟨h', hh, i', hi, rfl, rfl⟩
    exact ⟨hh, hi⟩
  · rintro ⟨hh, hi⟩
    exact ⟨h, hh, i, hi, rfl, rfl⟩

theorem isSome_findSome?_services {α : Type} {t : Topology} {f : Host × Instance → Option α} :
    (t.services.findSome? f).isSome = true ↔
      ∃ h ∈ t.hosts, ∃ i ∈ h.instances, (f (h, i)).isSome = true := by
  rw [List.findSome?_isSome_iff]
  constructor
  · rintro ⟨⟨h, i⟩, hm, hf⟩
    obtain ⟨hh, hi⟩ := mem_services.mp hm
    exact ⟨h, hh, i, hi, hf⟩
  · rintro ⟨h, hh, i, hi, hf⟩
    exact ⟨(h, i), mem_services.mpr ⟨hh, hi⟩, hf⟩

/-- A cluster can be asked for databases when some healthy TiDB server has a port. -/
theorem isSome_databaseServer? {t : Topology} : t.databaseServer?.isSome = true ↔
    ∃ h ∈ t.hosts, ∃ i ∈ h.instances,
      i.isHealthy = true ∧ i.kind = .tidb ∧ (i.statusPort.isSome ∨ i.port.isSome) := by
  refine isSome_findSome?_services.trans ?_
  simp only [Host.isSome_databaseServer?]

/-- A cluster can be asked for metrics when some healthy Prometheus server has its main port. -/
theorem isSome_metricServer? {t : Topology} : t.metricServer?.isSome = true ↔
    ∃ h ∈ t.hosts, ∃ i ∈ h.instances,
      i.isHealthy = true ∧ i.kind = .prometheus ∧ i.port.isSome := by
  refine isSome_findSome?_services.trans ?_
  simp only [Host.isSome_metricServer?]

end Topology

namespace Planning

/-- The first place is the first instance, for whatever hosts do not have. -/
theorem findSome?_places {α : Type} (f : Place → Option α) (hf : ∀ h, f (.host h) = none)
    (t : Topology) :
    (Place.all t.hosts).findSome? f = t.services.findSome? fun (h, i) => f (.service h i) := by
  have honHost : ∀ h : Host, (Place.onHost h).findSome? f =
      (h.instances.map fun i => (h, i)).findSome? fun (h, i) => f (.service h i) := by
    intro h
    simp only [Place.onHost, List.findSome?_cons, hf, List.findSome?_map]
    rfl
  unfold Place.all Topology.services
  induction t.hosts with
  | nil => rfl
  | cons h hs ih =>
    rw [List.flatMap_cons, List.flatMap_cons, List.findSome?_append, List.findSome?_append, ih,
      honHost]

/-! ### What a question leads to -/

/-- The operations on the databases at an address. -/
def schemaOperations (s : Scope) (address : String) : List Operation :=
  match s.discovery (.databases address) with
  | .ok names => Artifact.schemas s.root address s.timeout names
  | .error e => [Artifact.unprepared (.databases address) e]

/-- The operations on the metrics at an address, over the window of the run. -/
def metricOperations (s : Scope) (address : String) : List Operation :=
  s.window.elim [] fun w =>
    (match s.discovery (.metrics address) with
      | .ok names => Artifact.metricRanges s.root address s.timeout w names
      | .error e => [Artifact.unprepared (.metrics address) e]) ++
    [Artifact.alerts s.root address s.timeout]

/-- The address at which a place is asked for databases, if they are requested. -/
def Scope.databaseServer? (s : Scope) (p : Place) : Option String :=
  if s.spec.contains .dbinfo then p.databaseServer? else none

/-- The address at which a place is asked for metrics, if they are requested. -/
def Scope.metricServer? (s : Scope) (p : Place) : Option String :=
  if s.window.isSome then p.metricServer? else none

end Planning

namespace View

open Planning

/-- A view that sees no warnings, and no operations but those that questions lead to. -/
structure Inquiring {β : Type} (v : View β) : Prop where
  warn : ∀ warnings, v.look (.warn warnings) = []
  operations : ∀ c, c ≠ .dbinfo → c ≠ .metric → ∀ os, v.look (.operations c os) = []

theorem inquiring_group {c : Category} (hc : c = .dbinfo ∨ c = .metric) :
    (group c).Inquiring where
  warn _ := rfl
  operations other hd hm os := by
    refine (group_operations other c os).trans (if_neg ?_)
    rintro rfl
    exact hc.elim hd hm

theorem inquiring_queries (kind : Query → Bool) : (queries kind).Inquiring where
  warn _ := rfl
  operations _ _ _ _ := rfl

namespace Inquiring

variable {β : Type} {v : View β} (hv : v.Inquiring) (s : Scope)
include hv

theorem look_profile (h : Host) (i : Instance) : v.look (profile s h i) = [] := by
  unfold profile
  split
  · split
    · exact hv.warn _
    · exact hv.operations _ (by decide) (by decide) _
  · exact v.look_empty

theorem look_configuration (h : Host) (i : Instance) :
    v.look (configuration s h i) = [] := by
  unfold configuration
  split
  · exact hv.operations _ (by decide) (by decide) _
  · exact v.look_empty

theorem look_own (p : Place) : v.look (p.own s) = [] := by
  cases p with
  | host h =>
    rw [Place.own, Findings.warnIf, v.look_append, hv.warn,
      hv.operations _ (by decide) (by decide)]
    rfl
  | service h i =>
    rw [Place.own]
    split
    · split <;> simp [hv.look_profile, hv.look_configuration]
    · exact hv.warn _

/-- What is gathered outside the walk comes of no question. -/
theorem look_gather (t : Topology) (o : Options) (d : Discovery) (now : Instant) (c : Settled) :
    v.look (gather t o d now c) =
      v.look (walk (c.scope o d now) (Place.all t.hosts) {}).1 := by
  unfold gather opening Findings.warnIf
  simp only [v.look_append, hv.warn]
  rw [hv.operations .setup (by decide) (by decide), hv.operations .teardown (by decide) (by decide),
    hv.operations .profile (by decide) (by decide), hv.operations .log (by decide) (by decide)]
  simp

/-- What a place gives of databases comes of its question. -/
theorem look_databases (p : Place) : v.look (p.databases s) =
    ((s.databaseServer? p).map fun address => v.look (.query (.databases address)) ++
      v.look (.operations .dbinfo (schemaOperations s address))).getD [] := by
  cases p with
  | host h => simp [Place.databases, Scope.databaseServer?, Place.databaseServer?]
  | service h i =>
    simp only [Place.databases, Scope.databaseServer?, Place.databaseServer?,
      Host.databaseServer?]
    by_cases hc : s.spec.contains .dbinfo = true ∧ i.isHealthy = true ∧ i.kind = .tidb
    · rw [if_pos hc, if_pos hc.1, if_pos hc.2, databases, statusAddressPort?_tidb hc.2.2]
      -- Without a port there is a warning, and no question.
      cases i.statusPort.or i.port with
      | none => exact hv.warn _
      | some port =>
        simp only [answered, schemaOperations, Option.map_some, Option.getD_some]
        cases s.discovery (.databases (addressOf h.ip (some port))) <;> simp [hv.warn]
    · rw [if_neg hc]
      split
      next hs => simp [show ¬(i.isHealthy = true ∧ i.kind = .tidb) from fun hi => hc ⟨hs, hi⟩]
      next => simp

/-- What a place gives of metrics comes of its question. -/
theorem look_metrics (p : Place) : v.look (p.metrics s) =
    ((s.metricServer? p).map fun address => v.look (.query (.metrics address)) ++
      v.look (.operations .metric (metricOperations s address))).getD [] := by
  cases p with
  | host h => simp [Place.metrics, Scope.metricServer?, Place.metricServer?]
  | service h i =>
    simp only [Place.metrics, Scope.metricServer?, Place.metricServer?, Host.metricServer?,
      metricOperations]
    cases s.window with
    | none => simp
    | some w =>
      split
      next hc =>
        rw [Option.elim_some, metrics]
        cases i.port with
        | none => exact hv.warn _
        | some port =>
          simp only [answered, Option.map_some, Option.getD_some, Option.isSome_some, if_true,
            Option.elim_some, Findings.operations_append, v.look_append]
          cases s.discovery (.metrics (addressOf h.ip (some port))) <;> simp [hv.warn]
      next => simp

/-- **Databases through the walk**, for a view that sees nothing of metrics. -/
theorem walk_databases (hq : ∀ address, v.look (.query (.metrics address)) = [])
    (ho : ∀ os, v.look (.operations .metric os) = []) (ps : List Place) :
    v.look (walk s ps {}).1 =
      ((ps.findSome? s.databaseServer?).map fun address =>
        v.look (.query (.databases address)) ++
          v.look (.operations .dbinfo (schemaOperations s address))).getD [] := by
  have hm : ∀ p : Place, v.look (p.metrics s) = [] := by
    intro p
    rw [hv.look_metrics]
    cases s.metricServer? p <;> simp [hq, ho]
  -- Nothing was asked at the outset.
  refine (v.walk_once s Asked.databases (fun p asked => ?_) (fun p asked => ?_) ps {}).trans
    (if_neg Bool.false_ne_true)
  · rw [visit_eq, v.look_append, v.look_append, hv.look_own, ← hv.look_databases]
    cases asked.databases <;> cases asked.metrics <;> simp [hm]
  · rw [visit_eq, Asked.after]
    cases hc : s.spec.contains .dbinfo <;> simp [Scope.databaseServer?, hc]

/-- **Metrics through the walk**, for a view that sees nothing of databases. -/
theorem walk_metrics (hq : ∀ address, v.look (.query (.databases address)) = [])
    (ho : ∀ os, v.look (.operations .dbinfo os) = []) (ps : List Place) :
    v.look (walk s ps {}).1 =
      ((ps.findSome? s.metricServer?).map fun address =>
        v.look (.query (.metrics address)) ++
          v.look (.operations .metric (metricOperations s address))).getD [] := by
  have hd : ∀ p : Place, v.look (p.databases s) = [] := by
    intro p
    rw [hv.look_databases]
    cases s.databaseServer? p <;> simp [hq, ho]
  refine (v.walk_once s Asked.metrics (fun p asked => ?_) (fun p asked => ?_) ps {}).trans
    (if_neg Bool.false_ne_true)
  · rw [visit_eq, v.look_append, v.look_append, hv.look_own, ← hv.look_metrics]
    cases asked.databases <;> cases asked.metrics <;> simp [hd]
  · rw [visit_eq, Asked.after]
    cases hw : s.window <;> simp [Scope.metricServer?, hw]

end Inquiring

end View

namespace Planning

/-! ### What is gathered of a question -/

theorem findSome?_requested {α : Type} (requested : Bool) (f : Place → Option α)
    (hf : ∀ h, f (.host h) = none) (t : Topology) :
    ((Place.all t.hosts).findSome? fun p => if requested then f p else none) =
      if requested then t.services.findSome? fun (h, i) => f (.service h i) else none := by
  cases requested
  · simp
  · exact findSome?_places f hf t

theorem findSome?_databaseServer (s : Scope) (t : Topology) :
    (Place.all t.hosts).findSome? s.databaseServer? =
      if s.spec.contains .dbinfo then t.databaseServer? else none :=
  findSome?_requested _ Place.databaseServer? (fun _ => rfl) t

theorem findSome?_metricServer (s : Scope) (t : Topology) :
    (Place.all t.hosts).findSome? s.metricServer? =
      if s.window.isSome then t.metricServer? else none :=
  findSome?_requested _ Place.metricServer? (fun _ => rfl) t

/-- The window of metrics is there when they are requested, as it was resolved. -/
theorem window_cases {o : Options} {c : Settled} (h : settle o = .ok c) (now : Instant) :
    (o.requests .metric = false ∧ c.window.map (· now) = none) ∨
      (o.requests .metric = true ∧ ∃ w, c.window.map (· now) = some w ∧
        Window.resolve (c.spec.choice? .metric) o.windowBegin o.windowEnd now = .ok w) := by
  obtain ⟨hr, -, hw, -⟩ := settle_eq_ok.mp h
  rw [Options.requests_eq hr]
  unfold windowBy at hw
  cases hm : c.spec.contains .metric with
  | false =>
    rw [hm, if_neg Bool.false_ne_true] at hw
    exact .inl ⟨rfl, by rw [← Except.ok.inj hw]; rfl⟩
  | true =>
    rw [hm, if_pos rfl, Check.map_eq_ok] at hw
    obtain ⟨f, hf, hc⟩ := hw
    exact .inr ⟨rfl, f now, by rw [← hc]; rfl, by rw [resolve_eq, hf]; rfl⟩

/-- The server that is asked for databases, if one is. -/
def askedForDatabases (t : Topology) (o : Options) : Option String :=
  if o.requests .dbinfo then t.databaseServer? else none

/-- The server that is asked for metrics, if one is. -/
def askedForMetrics (t : Topology) (o : Options) : Option String :=
  if o.requests .metric then t.metricServer? else none

theorem askedForDatabases_eq_some {t : Topology} {o : Options} {address : String} :
    askedForDatabases t o = some address ↔
      o.requests .dbinfo = true ∧ t.databaseServer? = some address :=
  Option.ite_none_right_eq_some

theorem askedForMetrics_eq_some {t : Topology} {o : Options} {address : String} :
    askedForMetrics t o = some address ↔
      o.requests .metric = true ∧ t.metricServer? = some address :=
  Option.ite_none_right_eq_some

/-- One question is asked when a category is requested and there is a server to ask. -/
theorem length_question_eq_one {requested : Bool} {server? : Option String}
    (question : String → Query) :
    (((if requested then server? else none).map question).toList.length = 1 ↔
      requested = true ∧ server?.isSome = true) := by
  cases requested <;> cases server? <;> simp

/-- If the questions of a kind are the one to a server, that server is the one that is asked. -/
theorem mem_of_filter_eq {qs : List Query} {kind : Query → Bool} {question : String → Query}
    {server? : Option String} (hqs : qs.filter kind = (server?.map question).toList)
    (hkind : ∀ address, kind (question address) = true)
    (hinj : ∀ {a b}, question a = question b → a = b) {address : String} :
    question address ∈ qs ↔ server? = some address := by
  have hmem : question address ∈ qs ↔ question address ∈ qs.filter kind := by
    rw [List.mem_filter]
    exact (and_iff_left (hkind address)).symm
  rw [hmem, hqs, Option.mem_toList, Option.map_eq_some_iff]
  constructor
  · rintro ⟨other, ho, he⟩
    rw [ho, hinj he]
  · intro ha
    exact ⟨address, ha, rfl⟩

section

variable {o : Options} {c : Settled} (hs : settle o = .ok c) (t : Topology) (d : Discovery)
  (now : Instant) {β : Type} {v : View β} (hv : v.Inquiring)
include hs hv

theorem look_gather_databases (hq : ∀ address, v.look (.query (.metrics address)) = [])
    (ho : ∀ os, v.look (.operations .metric os) = []) :
    v.look (gather t o d now c) = ((askedForDatabases t o).map fun address =>
      v.look (.query (.databases address)) ++
        v.look (.operations .dbinfo (schemaOperations (c.scope o d now) address))).getD [] := by
  rw [hv.look_gather, hv.walk_databases _ hq ho, findSome?_databaseServer, askedForDatabases,
    Options.requests_eq (settle_eq_ok.mp hs).1]
  rfl

theorem look_gather_metrics (hq : ∀ address, v.look (.query (.databases address)) = [])
    (ho : ∀ os, v.look (.operations .dbinfo os) = []) :
    v.look (gather t o d now c) = ((askedForMetrics t o).map fun address =>
      v.look (.query (.metrics address)) ++
        v.look (.operations .metric (metricOperations (c.scope o d now) address))).getD [] := by
  have hw : (c.scope o d now).window.isSome = o.requests .metric := by
    rcases window_cases hs now with ⟨hn, hw⟩ | ⟨hm, w, hw, -⟩
    · rw [hn, Settled.scope, hw]
      rfl
    · rw [hm, Settled.scope, hw]
      rfl
  rw [hv.look_gather, hv.walk_metrics _ hq ho, findSome?_metricServer, askedForMetrics, hw]

end

end Planning

/-! ### One question each -/

section

variable {t : Topology} {o : Options} {d : Discovery} {now : Instant} {plan : Plan}

theorem queries_databases (h : (Plan.build t o d now).outcome = .ok plan) :
    (Plan.build t o d now).queries.filter Query.isDatabases =
      ((Planning.askedForDatabases t o).map Query.databases).toList := by
  obtain ⟨c, hs, -, hq⟩ := Planning.settle_of_build_ok h
  rw [hq]
  refine (Planning.look_gather_databases hs t d now (View.inquiring_queries _) (fun _ => rfl)
    fun _ => rfl).trans ?_
  cases Planning.askedForDatabases t o <;> rfl

theorem group_dbinfo (h : (Plan.build t o d now).outcome = .ok plan) :
    plan.group .dbinfo = ((Planning.askedForDatabases t o).map fun address =>
      match d (.databases address) with
      | .ok names => Artifact.schemas o.inspectionDir address o.httpTimeout.toNat names
      | .error e => [Artifact.unprepared (.databases address) e]).getD [] := by
  obtain ⟨c, hs, rfl, -⟩ := Planning.settle_of_build_ok h
  refine (Planning.look_gather_databases hs t d now (View.inquiring_group (.inl rfl))
    (fun _ => rfl) (View.group_operations .metric .dbinfo)).trans ?_
  cases Planning.askedForDatabases t o with
  | none => rfl
  | some address => exact View.group_operations .dbinfo .dbinfo _

theorem queries_metrics (h : (Plan.build t o d now).outcome = .ok plan) :
    (Plan.build t o d now).queries.filter Query.isMetrics =
      ((Planning.askedForMetrics t o).map Query.metrics).toList := by
  obtain ⟨c, hs, -, hq⟩ := Planning.settle_of_build_ok h
  rw [hq]
  refine (Planning.look_gather_metrics hs t d now (View.inquiring_queries _) (fun _ => rfl)
    fun _ => rfl).trans ?_
  cases Planning.askedForMetrics t o <;> rfl

/-- The operations on metrics where they are requested, and over which window. -/
theorem group_metric (h : (Plan.build t o d now).outcome = .ok plan) {address : String}
    (ha : Planning.askedForMetrics t o = some address) :
    ∃ spec w, TargetSpec.read o.collect = .ok spec ∧
      Window.resolve (spec.choice? .metric) o.windowBegin o.windowEnd now = .ok w ∧
      plan.group .metric =
        (match d (.metrics address) with
          | .ok names =>
            Artifact.metricRanges o.inspectionDir address o.httpTimeout.toNat w names
          | .error e => [Artifact.unprepared (.metrics address) e]) ++
        [Artifact.alerts o.inspectionDir address o.httpTimeout.toNat] := by
  obtain ⟨c, hs, rfl, -⟩ := Planning.settle_of_build_ok h
  have hm : o.requests .metric = true := (Planning.askedForMetrics_eq_some.mp ha).1
  -- Metrics are requested, so there is a window.
  rcases Planning.window_cases hs now with ⟨hn, -⟩ | ⟨-, w, hw, hres⟩
  · rw [hm] at hn
    cases hn
  · refine ⟨c.spec, w, (Planning.settle_eq_ok.mp hs).1, hres, ?_⟩
    refine (Planning.look_gather_metrics hs t d now (View.inquiring_group (.inr rfl))
      (fun _ => rfl) (View.group_operations .dbinfo .metric)).trans ?_
    rw [ha, Option.map_some, Option.getD_some, Planning.metricOperations, Planning.Settled.scope,
      hw]
    exact View.group_operations .metric .metric _

theorem group_metric_eq_nil (h : (Plan.build t o d now).outcome = .ok plan)
    (ha : Planning.askedForMetrics t o = none) : plan.group .metric = [] := by
  obtain ⟨c, hs, rfl, -⟩ := Planning.settle_of_build_ok h
  refine (Planning.look_gather_metrics hs t d now (View.inquiring_group (.inr rfl))
    (fun _ => rfl) (View.group_operations .dbinfo .metric)).trans ?_
  rw [ha]
  rfl

theorem databases_mem_queries (h : (Plan.build t o d now).outcome = .ok plan) {address : String} :
    .databases address ∈ (Plan.build t o d now).queries ↔
      Planning.askedForDatabases t o = some address :=
  Planning.mem_of_filter_eq (queries_databases h) (fun _ => rfl) Query.databases.inj

theorem metrics_mem_queries (h : (Plan.build t o d now).outcome = .ok plan) {address : String} :
    .metrics address ∈ (Plan.build t o d now).queries ↔
      Planning.askedForMetrics t o = some address :=
  Planning.mem_of_filter_eq (queries_metrics h) (fun _ => rfl) Query.metrics.inj

/-- **Databases are asked for once in a cluster.**  There is one question at most, and one exactly
when databases are requested and some healthy TiDB server has a port; it goes to the first such
server, by its status port or else its main port.  Names that are given lead to one operation each,
as far as they can be file names; no answer leads to one operation that fails; and without a
question there are no operations. -/
theorem databases_asked_once (h : (Plan.build t o d now).outcome = .ok plan) :
    ((Plan.build t o d now).queries.filter Query.isDatabases).length ≤ 1 ∧
    (((Plan.build t o d now).queries.filter Query.isDatabases).length = 1 ↔
      o.requests .dbinfo = true ∧ ∃ h ∈ t.hosts, ∃ i ∈ h.instances,
        i.isHealthy = true ∧ i.kind = .tidb ∧ (i.statusPort.isSome ∨ i.port.isSome)) ∧
    (∀ address, .databases address ∈ (Plan.build t o d now).queries →
      t.databaseServer? = some address ∧
      (∀ names, d (.databases address) = .ok names →
        plan.group .dbinfo = (names.filter Artifact.isFileName).map fun name => {
          collector := .http {
            name, address, path := "/schema", segments := [name],
            timeout := some o.httpTimeout.toNat }
          sink := .file (Path.join (Path.join o.inspectionDir "dbinfo") (name ++ ".json"))
          hook := none }) ∧
      ∀ e, d (.databases address) = .error e →
        ∃ operation, plan.group .dbinfo = [operation] ∧ operation.FailsToPrepare e.message) ∧
    ((∀ address, .databases address ∉ (Plan.build t o d now).queries) →
      plan.group .dbinfo = []) := by
  refine ⟨?_, ?_, fun address ha => ?_, fun hn => ?_⟩
  · rw [queries_databases h]
    cases Planning.askedForDatabases t o <;> simp
  · rw [queries_databases h, ← Topology.isSome_databaseServer?]
    exact Planning.length_question_eq_one _
  · have hasked := (databases_mem_queries h).mp ha
    have hgroup := group_dbinfo h
    rw [hasked, Option.map_some, Option.getD_some] at hgroup
    refine ⟨(Planning.askedForDatabases_eq_some.mp hasked).2, fun names hnames => ?_,
      fun e he => ?_⟩
    · rw [hgroup, hnames]
      rfl
    · rw [hgroup, he]
      exact ⟨_, rfl, Artifact.unprepared_failsToPrepare _ e⟩
  · have hasked : Planning.askedForDatabases t o = none :=
      Option.eq_none_iff_forall_ne_some.mpr fun address ha =>
        hn address ((databases_mem_queries h).mpr ha)
    rw [group_dbinfo h, hasked]
    rfl

/-- A run that asks for databases and for metrics. -/
def askingRun : Options := { unprofiledRun with collect := "dbinfo,metric" }

/-- Servers of which those with databases answer and those with metrics do not. -/
def halfAnswered : Discovery
  | .databases _ => .ok ["test", "../escape", "test"]
  | .metrics address => .error (.request address (.connection (some "refused")))

theorem databases_asked_once_small :
    ∃ plan, (Plan.build smallCluster askingRun halfAnswered .earliest).outcome = .ok plan ∧
      ((Plan.build smallCluster askingRun halfAnswered .earliest).queries.filter
        Query.isDatabases).length ≤ 1 ∧
      Query.databases "10.0.0.2:10080" ∈
        (Plan.build smallCluster askingRun halfAnswered .earliest).queries ∧
      smallCluster.databaseServer? = some "10.0.0.2:10080" ∧
      plan.group .dbinfo = List.replicate 2 (Artifact.schema "/data/insp-1" "10.0.0.2:10080"
        askingRun.httpTimeout.toNat "test") := by
  have hasked : Query.databases "10.0.0.2:10080" ∈
      (Plan.build smallCluster askingRun halfAnswered .earliest).queries := by decide
  have h : (Plan.build smallCluster askingRun halfAnswered .earliest).outcome = .ok _ := rfl
  obtain ⟨hserver, hnames, -⟩ := (databases_asked_once h).2.2.1 _ hasked
  refine ⟨_, h, (databases_asked_once h).1, hasked, hserver, ?_⟩
  exact (hnames _ rfl).trans rfl

/-- **Metrics are asked for once in a cluster.**  There is one question at most, and one exactly
when metrics are requested and some healthy Prometheus server has its main port; it goes to the
first such server.  The last operation asks that server for the alerts.  In front of it, names that
are given lead to one export each but for the one that stands for the alerts, all over the window of
the run; and no answer leads to one operation that fails.  Without a question there are no
operations. -/
theorem metrics_asked_once (h : (Plan.build t o d now).outcome = .ok plan) :
    ((Plan.build t o d now).queries.filter Query.isMetrics).length ≤ 1 ∧
    (((Plan.build t o d now).queries.filter Query.isMetrics).length = 1 ↔
      o.requests .metric = true ∧ ∃ h ∈ t.hosts, ∃ i ∈ h.instances,
        i.isHealthy = true ∧ i.kind = .prometheus ∧ i.port.isSome) ∧
    (∀ address, .metrics address ∈ (Plan.build t o d now).queries →
      t.metricServer? = some address ∧ ∃ spec w exports,
        TargetSpec.read o.collect = .ok spec ∧
        Window.resolve (spec.choice? .metric) o.windowBegin o.windowEnd now = .ok w ∧
        plan.group .metric = exports ++ [{
          collector := .http {
            name := "alerts", address, path := "/api/v1/query", params := [("query", "ALERTS")],
            timeout := some o.httpTimeout.toNat }
          sink := .file (Path.join (Path.join o.inspectionDir "metric") "alert.json")
          hook := none }] ∧
        (∀ names, d (.metrics address) = .ok names →
          exports = (names.filter (· ≠ "ALERTS")).map fun name => {
            collector := .http {
              name, address, path := "/api/v1/query_range",
              params := [("query", name), ("start", Text.integer w.start.seconds),
                ("end", Text.integer w.finish.seconds), ("step", Text.natural w.step)],
              timeout := some o.httpTimeout.toNat }
            sink := .file (Path.join (Path.join o.inspectionDir "metric")
              (name ++ "_" ++ Text.integer w.start.seconds ++ "_to_" ++
                Text.integer w.finish.seconds ++ "_" ++ Text.natural w.step ++ "s.json"))
            hook := none }) ∧
        ∀ e, d (.metrics address) = .error e →
          ∃ operation, exports = [operation] ∧ operation.FailsToPrepare e.message) ∧
    ((∀ address, .metrics address ∉ (Plan.build t o d now).queries) →
      plan.group .metric = []) := by
  refine ⟨?_, ?_, fun address ha => ?_, fun hn => ?_⟩
  · rw [queries_metrics h]
    cases Planning.askedForMetrics t o <;> simp
  · rw [queries_metrics h, ← Topology.isSome_metricServer?]
    exact Planning.length_question_eq_one _
  · have hasked := (metrics_mem_queries h).mp ha
    obtain ⟨spec, w, hspec, hw, hgroup⟩ := group_metric h hasked
    refine ⟨(Planning.askedForMetrics_eq_some.mp hasked).2, spec, w, _, hspec, hw, hgroup,
      fun names hnames => ?_, fun e he => ?_⟩
    · rw [hnames]
      rfl
    · rw [he]
      exact ⟨_, rfl, Artifact.unprepared_failsToPrepare _ e⟩
  · have hasked : Planning.askedForMetrics t o = none :=
      Option.eq_none_iff_forall_ne_some.mpr fun address ha =>
        hn address ((metrics_mem_queries h).mpr ha)
    exact group_metric_eq_nil h hasked

/-- Servers that answer, with a metric twice and the one that stands for the alerts between. -/
def fullyAnswered : Discovery
  | .databases _ => .ok []
  | .metrics _ => .ok ["up", "ALERTS", "up"]

theorem metrics_asked_once_small :
    ∃ (plan plan' : Plan) (operation : Operation),
      (Plan.build smallCluster askingRun fullyAnswered .earliest).outcome = .ok plan ∧
      (Plan.build smallCluster askingRun halfAnswered .earliest).outcome = .ok plan' ∧
      (∀ d ∈ [fullyAnswered, halfAnswered],
        ((Plan.build smallCluster askingRun d .earliest).queries.filter
          Query.isMetrics).length ≤ 1 ∧
        Query.metrics "10.0.0.2:9090" ∈ (Plan.build smallCluster askingRun d .earliest).queries) ∧
      smallCluster.metricServer? = some "10.0.0.2:9090" ∧
      (plan.group .metric).map (fun o => (o.collector.title, o.sink.path?)) = [
        ("up http://10.0.0.2:9090/api/v1/query_range",
          some "/data/insp-1/metric/up_-8334601228800_to_-8334601228800_15s.json"),
        ("up http://10.0.0.2:9090/api/v1/query_range",
          some "/data/insp-1/metric/up_-8334601228800_to_-8334601228800_15s.json"),
        ("alerts http://10.0.0.2:9090/api/v1/query", some "/data/insp-1/metric/alert.json")] ∧
      (plan'.group .metric).map (fun o => (o.collector.title, o.sink.path?)) = [
        (operation.collector.title, operation.sink.path?),
        ("alerts http://10.0.0.2:9090/api/v1/query", some "/data/insp-1/metric/alert.json")] ∧
      operation.FailsToPrepare "request to 10.0.0.2:9090 failed: Connection failed: refused" := by
  have hasked : ∀ d ∈ [fullyAnswered, halfAnswered], Query.metrics "10.0.0.2:9090" ∈
      (Plan.build smallCluster askingRun d .earliest).queries := by
    simp only [List.forall_mem_cons]
    exact ⟨by decide, by decide, by simp⟩
  have h : (Plan.build smallCluster askingRun fullyAnswered .earliest).outcome = .ok _ := rfl
  have h' : (Plan.build smallCluster askingRun halfAnswered .earliest).outcome = .ok _ := rfl
  obtain ⟨hserver, spec, w, exports, hspec, hw, hgroup, hexports, -⟩ :=
    (metrics_asked_once h).2.2.1 _ (hasked _ (by simp))
  obtain ⟨-, spec', w', exports', -, -, hgroup', -, hfailed⟩ :=
    (metrics_asked_once h').2.2.1 _ (hasked _ (by simp))
  obtain ⟨operation, rfl, hfails⟩ := hfailed _ rfl
  cases hspec
  cases hw
  refine ⟨_, _, operation, h, h', fun d hd => ⟨?_, hasked d hd⟩, hserver, ?_, ?_, hfails⟩
  · rcases List.mem_cons.mp hd with rfl | hd
    · exact (metrics_asked_once h).1
    · rw [List.mem_singleton.mp hd]
      exact (metrics_asked_once h').1
  · rw [hgroup, hexports _ rfl]
    rfl
  · rw [hgroup']
    rfl

end

end Inspection
