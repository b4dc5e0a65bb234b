import Inspection.Proofs.Check
import Inspection.Proofs.Plan.Walk

/-!
# Plan — what the options settle

A build has two phases.  The first looks at the options alone and may fail (`settle`); the second
goes through the cluster, asks its questions and cannot fail (`gather`).

* `build_of_settle_error`: where the options are at fault, the build has their fault and asks
  nothing.
* `build_of_settle_ok`: where they are in order, the build is what is gathered.
* `build_outcome_of_options`: so whether there is a plan, and which error there is otherwise, is
  a matter of the options.
-/

namespace Inspection

/-! ### Logs -/

namespace TargetSpec

theorem demand_eq_ok {α : Type} {c : Category} {a : Argument} {given : Option α} {u : Unit} :
    demand c a given = .ok u ↔ ∃ value, given = some value := by
  cases given <;> simp [demand]

/-- What logs need, once it was checked. -/
theorem validateLog_eq_ok {o : Options} {u : Unit} : validateLog o = .ok u ↔
    (∃ directory, o.logDir = some directory) ∧ (∃ program, o.logSpliter = some program) ∧
      (∃ start, o.windowBegin = some start) ∧ ∃ finish, o.windowEnd = some finish := by
  simp only [validateLog, Check.bind_eq_ok, demand_eq_ok, exists_const]

theorem validateLog_of_validate {spec : TargetSpec} {o : Options} (hv : spec.validate o = .ok ())
    (hl : spec.contains .log = true) : validateLog o = .ok () := by
  simp only [validate, hl, if_true] at hv
  split at hv
  · obtain ⟨-, -, h⟩ := Check.bind_eq_ok.mp hv
    exact h
  · exact hv

end TargetSpec

/-- **The cutter of logs lacks nothing** once the targets are checked. -/
theorem Artifact.logs_of_validate {spec : TargetSpec} {o : Options}
    (hv : spec.validate o = .ok ()) (hl : spec.contains .log = true) (root : String) :
    ∃ operation, Artifact.logs root o = .ok operation := by
  obtain ⟨⟨_, hd⟩, ⟨_, hp⟩, ⟨_, hs⟩, _, hf⟩ :=
    TargetSpec.validateLog_eq_ok.mp (TargetSpec.validateLog_of_validate hv hl)
  rw [Artifact.logs, hd, hp, hs, hf]
  exact ⟨_, rfl⟩

namespace Planning

/-! ### The two phases -/

/-- What the options of a run settle before the cluster is looked at. -/
structure Settled where
  spec : TargetSpec
  /-- The window of metrics by the time of the run, if they are requested. -/
  window : Option (Instant → Window)
  /-- The instance named to be profiled. -/
  endpoint : Option ProfileTarget

/-- Whether a service is profiled. -/
def isProfiled : ServiceKind → Bool
  | .tidb | .tikv | .pd => true
  | _ => false

/-- The instance that is named to be profiled, if one is. -/
def endpointOf (spec : TargetSpec) : Except TargetError (Option ProfileTarget) :=
  match spec.choice? .profile with
  | some (.parts segments) => do
    let target ← ProfileTarget.read segments
    if isProfiled target.kind then return some target
    else .error (.invalidOption .profile target.render (.notProfiled target.kind.name))
  | some (.value text) => .error (.invalidOption .profile text .notAnEndpoint)
  | _ => .ok none

/-- The window of metrics by the time of the run. -/
def resolver (qualifier : Option Qualifier) (windowBegin windowEnd : Option Instant) :
    Except DurationError (Instant → Window) :=
  match windowBegin, windowEnd with
  | some start, some finish => .ok fun _ => .between start finish
  | _, _ => (Duration.read (Window.durationOf qualifier)).map fun n now => .relative now n

/-- The window of metrics by the time of the run, if they are requested. -/
def windowBy (spec : TargetSpec) (o : Options) :
    Except DurationError (Option (Instant → Window)) :=
  if spec.contains .metric then
    (resolver (spec.choice? .metric) o.windowBegin o.windowEnd).map some
  else .ok none

/-- What the options settle, or what is wrong with them. -/
def settle (o : Options) : Except PlanError Settled := do
  let spec ← (TargetSpec.read o.collect).mapError .target
  (spec.validate o).mapError .target
  let window ← (windowBy spec o).mapError .duration
  let endpoint ← (endpointOf spec).mapError .target
  return ⟨spec, window, endpoint⟩

/-- What holds for the walk. -/
def Settled.scope (c : Settled) (o : Options) (discovery : Discovery) (now : Instant) :
    Scope where
  spec := c.spec
  options := o
  root := o.inspectionDir
  window := c.window.map (· now)
  profileNamed := c.endpoint.isSome
  discovery := discovery

/-- What every plan begins with. -/
def opening (t : Topology) (o : Options) (now : Instant) : Findings :=
  .warnIf (t.status ≠ .success) (.topologyErrors t.clusterName) ++
    .operations .setup (Record.setup o.inspectionDir o t) ++
    .operations .teardown [Record.teardown o.inspectionDir t now]

/-- The operations on an instance that is named to be profiled. -/
def namedOperations (t : Topology) (o : Options) (target : ProfileTarget) : List Operation :=
  (Profile.operations? o.inspectionDir target.kind (userOf t target.ip) target.ip target.port
    o).getD []

/-- The operation that cuts the logs, if they are requested. -/
def cutter (spec : TargetSpec) (o : Options) : List Operation :=
  if spec.contains .log then (Artifact.logs o.inspectionDir o).toOption.toList else []

/-- Goes through a cluster once the options are settled. -/
def gather (t : Topology) (o : Options) (discovery : Discovery) (now : Instant) (c : Settled) :
    Findings :=
  opening t o now ++ .operations .profile ((c.endpoint.map (namedOperations t o)).getD []) ++
    (walk (c.scope o discovery now) (Place.all t.hosts) {}).1 ++
    .operations .log (cutter c.spec o)

theorem operations?_of_isProfiled {kind : ServiceKind} (h : isProfiled kind = true)
    (root user ip : String) (port : UInt16) (o : Options) :
    ∃ os, Profile.operations? root kind user ip port o = some os := by
  cases kind <;> first | exact ⟨_, rfl⟩ | cases h

theorem operations?_of_not_isProfiled {kind : ServiceKind} (h : isProfiled kind = false)
    (root user ip : String) (port : UInt16) (o : Options) :
    Profile.operations? root kind user ip port o = none := by
  cases kind <;> first | rfl | cases h

/-- The operations on the instance that is named depend on the topology, but not whether there
are any. -/
theorem named_eq (spec : TargetSpec) (t : Topology) (o : Options) :
    named spec t o o.inspectionDir =
      (endpointOf spec).map fun target => target.map (namedOperations t o) := by
  unfold named endpointOf
  cases spec.choice? .profile with
  | none => rfl
  | some q =>
    cases q with
    | flag => rfl
    | value text => rfl
    | parts segments =>
      -- The host decides which operations there are; the kind alone, whether there are any.
      dsimp only
      cases ProfileTarget.read segments with
      | error e => rfl
      | ok target =>
        cases hk : isProfiled target.kind with
        | false =>
          simp only [bind, Except.bind, operations?_of_not_isProfiled hk, hk]
          rfl
        | true =>
          obtain ⟨os, ho⟩ := operations?_of_isProfiled hk o.inspectionDir (userOf t target.ip)
            target.ip target.port o
          simp only [bind, Except.bind, ho, hk]
          simp only [namedOperations, if_true, pure, Except.pure, Except.map, Option.map_some, ho,
            Option.getD_some]

/-! ### The build by its phases -/

theorem resolve_eq (qualifier : Option Qualifier) (windowBegin windowEnd : Option Instant)
    (now : Instant) : Window.resolve qualifier windowBegin windowEnd now =
      (resolver qualifier windowBegin windowEnd).map (· now) := by
  unfold Window.resolve resolver
  cases windowBegin <;> cases windowEnd <;>
    first | rfl | (cases Duration.read (Window.durationOf qualifier) <;> rfl)

/-- The window depends on the time of the run, but not whether there is one. -/
theorem windowOf_eq (spec : TargetSpec) (o : Options) (now : Instant) :
    windowOf spec o now = (windowBy spec o).map fun window => window.map (· now) := by
  unfold windowOf windowBy
  by_cases hm : spec.contains .metric = true
  · rw [if_pos hm, if_pos hm, resolve_eq]
    cases resolver (spec.choice? .metric) o.windowBegin o.windowEnd <;> rfl
  · rw [if_neg hm, if_neg hm]
    rfl

theorem settle_eq_ok {o : Options} {c : Settled} : settle o = .ok c ↔
    TargetSpec.read o.collect = .ok c.spec ∧ c.spec.validate o = .ok () ∧
      windowBy c.spec o = .ok c.window ∧ endpointOf c.spec = .ok c.endpoint := by
  obtain ⟨spec, window, endpoint⟩ := c
  simp only [settle, Check.bind_eq_ok, Check.mapError_eq_ok, Check.pure_eq_ok, Settled.mk.injEq]
  constructor
  · rintro ⟨_, hr, _, hv, _, hw, _, he, rfl, rfl, rfl⟩
    exact ⟨hr, hv, hw, he⟩
  · rintro ⟨hr, hv, hw, he⟩
    exact ⟨_, hr, _, hv, _, hw, _, he, rfl, rfl, rfl⟩

theorem prepare_eq_ok {o : Options} {now : Instant} {spec : TargetSpec}
    {window : Option Window} : prepare o now = .ok (spec, window) ↔
      TargetSpec.read o.collect = .ok spec ∧ spec.validate o = .ok () ∧
        ∃ w, windowBy spec o = .ok w ∧ w.map (· now) = window := by
  simp only [prepare, windowOf_eq, Check.bind_eq_ok, Check.mapError_eq_ok, Check.map_eq_ok,
    Check.pure_eq_ok, Prod.mk.injEq]
  constructor
  · rintro ⟨_, hr, _, hv, _, ⟨w, hw, rfl⟩, rfl, rfl⟩
    exact ⟨hr, hv, w, hw, rfl⟩
  · rintro ⟨hr, hv, w, hw, rfl⟩
    exact ⟨_, hr, _, hv, _, ⟨w, hw, rfl⟩, rfl, rfl⟩

theorem logs_eq {spec : TargetSpec} {o : Options} (hv : spec.validate o = .ok ()) :
    logs spec o.inspectionDir o = .ok (.operations .log (cutter spec o)) := by
  unfold logs cutter
  by_cases hl : spec.contains .log = true
  · obtain ⟨operation, ho⟩ := Artifact.logs_of_validate hv hl o.inspectionDir
    rw [if_pos hl, if_pos hl, ho]
    rfl
  · rw [if_neg hl, if_neg hl]
    rfl

/-- **Options in order.**  The plan is what is gathered. -/
theorem build_of_settle_ok {o : Options} {c : Settled} (h : settle o = .ok c) (t : Topology)
    (d : Discovery) (now : Instant) : Plan.build t o d now =
      ⟨.ok ⟨o.inspectionId, (gather t o d now c).entries⟩, (gather t o d now c).warnings,
        (gather t o d now c).queries⟩ := by
  obtain ⟨hr, hv, hw, he⟩ := settle_eq_ok.mp h
  have hnamed : named c.spec t o o.inspectionDir = .ok (c.endpoint.map (namedOperations t o)) := by
    rw [named_eq, he]
    rfl
  rw [Plan.build, prepare_eq_ok.mpr ⟨hr, hv, _, hw, rfl⟩]
  simp only [compose, hnamed, logs_eq hv, visitHosts_eq_walk, Option.isSome_map]
  rfl

/-- Options are at fault before the instance to be profiled is looked at, or there. -/
theorem settle_eq_error {o : Options} {e : PlanError} (h : settle o = .error e) :
    (∀ now, prepare o now = .error e) ∨
      ∃ spec w fault, TargetSpec.read o.collect = .ok spec ∧ spec.validate o = .ok () ∧
        windowBy spec o = .ok w ∧ endpointOf spec = .error fault ∧ .target fault = e := by
  simp only [settle, prepare, windowOf_eq, Check.bind_eq_error, Check.mapError_eq_error,
    Check.mapError_eq_ok, Check.map_eq_error, Check.pure_ne_error] at h ⊢
  -- Reading, checking and the window are at fault for `prepare` as well; the instance is not.
  rcases h with hr | ⟨spec, hr, hv | ⟨u, hv, hw | ⟨w, hw, ⟨fault, hf, he⟩ | ⟨_, _, hn⟩⟩⟩⟩
  · exact .inl fun _ => .inl hr
  · exact .inl fun _ => .inr ⟨spec, hr, .inl hv⟩
  · exact .inl fun _ => .inr ⟨spec, hr, .inr ⟨u, hv, .inl hw⟩⟩
  · exact .inr ⟨spec, w, fault, hr, hv, hw, hf, he⟩
  · exact hn.elim

/-- **Options at fault.**  The build has their error, and asks nothing. -/
theorem build_of_settle_error {o : Options} {e : PlanError} (h : settle o = .error e)
    (t : Topology) (d : Discovery) (now : Instant) :
    (Plan.build t o d now).outcome = .error e ∧ (Plan.build t o d now).queries = [] := by
  rcases settle_eq_error h with hp | ⟨spec, w, fault, hr, hv, hw, hf, rfl⟩
  · rw [Plan.build, hp now]
    exact ⟨rfl, rfl⟩
  · have hnamed : named spec t o o.inspectionDir = .error fault := by
      rw [named_eq, hf]
      rfl
    rw [Plan.build, prepare_eq_ok.mpr ⟨hr, hv, _, hw, rfl⟩]
    simp only [compose, hnamed, true_and]
    rfl

/-- A plan is what is gathered once the options are settled. -/
theorem settle_of_build_ok {t : Topology} {o : Options} {d : Discovery} {now : Instant}
    {plan : Plan} (h : (Plan.build t o d now).outcome = .ok plan) :
    ∃ c, settle o = .ok c ∧ plan = ⟨o.inspectionId, (gather t o d now c).entries⟩ ∧
      (Plan.build t o d now).queries = (gather t o d now c).queries := by
  cases hs : settle o with
  | error e => rw [(build_of_settle_error hs t d now).1] at h; cases h
  | ok c =>
    rw [build_of_settle_ok hs] at h ⊢
    exact ⟨c, rfl, (Except.ok.inj h).symm, rfl⟩

end Planning

/-! ### The outcome -/

/-- **The options settle the outcome.**  Whatever two clusters are like, however they answer and
whenever it is, the same options give a plan in both, or the same error in both.  Where they give
an error, nothing was asked; and where logs are requested and the targets were checked, the cutter
of logs, which comes last of all, lacks no argument. -/
theorem build_outcome_of_options (o : Options) :
    (∀ (t t' : Topology) (d d' : Discovery) (now now' : Instant),
      ((∃ plan, (Plan.build t o d now).outcome = .ok plan) ∧
        ∃ plan, (Plan.build t' o d' now').outcome = .ok plan) ∨
      ∃ e, (Plan.build t o d now).outcome = .error e ∧
        (Plan.build t' o d' now').outcome = .error e) ∧
    (∀ (t : Topology) (d : Discovery) (now : Instant) (e : PlanError),
      (Plan.build t o d now).outcome = .error e → (Plan.build t o d now).queries = []) ∧
    ∀ (spec : TargetSpec) (root : String), spec.validate o = .ok () →
      spec.contains .log = true → ∃ operation, Artifact.logs root o = .ok operation := by
  refine ⟨fun t t' d d' now now' => ?_, fun t d now e h => ?_,
    fun spec root hv hl => Artifact.logs_of_validate hv hl root⟩
  · cases hs : Planning.settle o with
    | error e =>
      exact .inr ⟨e, (Planning.build_of_settle_error hs t d now).1,
        (Planning.build_of_settle_error hs t' d' now').1⟩
    | ok c =>
      rw [Planning.build_of_settle_ok hs, Planning.build_of_settle_ok hs]
      exact .inl ⟨⟨_, rfl⟩, _, rfl⟩
  · cases hs : Planning.settle o with
    | error fault => exact (Planning.build_of_settle_error hs t d now).2
    | ok c => rw [Planning.build_of_settle_ok hs] at h; cases h

/-- A cluster of two hosts, where the first servers of their kinds cannot be asked: one has no port
at all, one was found with errors, and one has no main port. -/
def smallCluster : Topology where
  clusterName := "small"
  status := .success
  hosts := [
    ⟨"10.0.0.1", "tidb", .exception, [⟨.tidb, .success, "/tidb", none, none⟩,
      ⟨.tidb, .exception, "/tidb", some 4000, some 10080⟩,
      ⟨.prometheus, .success, "/prometheus", none, some 9091⟩]⟩,
    ⟨"10.0.0.2", "tidb", .success, [⟨.tidb, .success, "/tidb", some 4000, some 10080⟩,
      ⟨.prometheus, .success, "/prometheus", some 9090, none⟩,
      ⟨.tidb, .success, "/tidb", some 4001, none⟩,
      ⟨.prometheus, .success, "/prometheus", some 9092, none⟩]⟩]

/-- A run that asks for logs, and for the profile of a service that has none. -/
def unprofiledRun : Options where
  inspectionId := "insp-1"
  dataDir := "/data"
  collect := "log,dbinfo,profile:grafana:10.0.0.1:3000"
  windowBegin := some .earliest
  windowEnd := some .earliest
  logDir := some "/logs"
  logSpliter := some "/bin/spliter"
  profileSeconds := Options.defaultProfileSeconds
  httpTimeout := Options.defaultHttpTimeout

/-- What that run asks for. -/
def unprofiledSpec : TargetSpec :=
  .ofTargets [(.log, .flag), (.dbinfo, .flag), (.profile, .parts ["grafana", "10.0.0.1", "3000"])]

theorem build_outcome_of_options_unprofiled :
    (Plan.build smallCluster unprofiledRun (fun _ => .ok []) .earliest).outcome =
      .error (.target (.invalidOption .profile "grafana:10.0.0.1:3000" (.notProfiled "grafana"))) ∧
    (Plan.build smallCluster unprofiledRun (fun _ => .ok []) .earliest).queries = [] ∧
    TargetSpec.read unprofiledRun.collect = .ok unprofiledSpec ∧
    unprofiledSpec.validate unprofiledRun = .ok () ∧ unprofiledSpec.contains .log = true ∧
    ∃ operation, Artifact.logs "/data" unprofiledRun = .ok operation :=
  ⟨rfl, (build_outcome_of_options unprofiledRun).2.1 _ _ _ _ rfl, rfl, rfl, rfl,
    (build_outcome_of_options unprofiledRun).2.2 unprofiledSpec "/data" rfl rfl⟩

end Inspection
