import Inspection.Proofs.Plan.Asking

/-!
# Plan — what no question bears on

The groups of databases and of metrics come of questions.  Every other group is gathered place by
place, whatever servers answer: `group_setup` and `group_teardown` are there in every plan,
`group_basic` goes by hosts, `group_config` and `group_profile` go by instances, and `group_log` is
one operation at most.

A view *of one group* sees nothing of a question when the group is none of the two
(`look_gather_apart`), so the walk is that of `View.walk_each` through what places give on their
own.
-/

namespace Inspection

/-! ### Instances -/

/-- The port at which an instance is profiled: of a healthy TiDB server the status port or else the
main port, of a healthy TiKV or PD server the main port or else the status port. -/
def Instance.profilePort? (i : Instance) : Option UInt16 :=
  if i.isHealthy then
    match i.kind with
    | .tidb => i.statusPort.or i.port
    | .tikv | .pd => i.port.or i.statusPort
    | _ => none
  else none

/-- The operations that profile an instance on a host, at the port where that is done. -/
def Host.profiles (h : Host) (o : Options) (i : Instance) : List Operation :=
  i.profilePort?.elim [] fun port =>
    (Profile.operations? o.inspectionDir i.kind h.user h.ip port o).getD []

/-- The operation that fetches the configuration of an instance, if it is healthy and has one. -/
def Host.configurations (h : Host) (o : Options) (i : Instance) : List Operation :=
  if i.isHealthy then (Artifact.configuration? o.inspectionDir h.user h.ip i).toList else []

namespace Planning

/-- What hosts do not give, and instances do, is gathered instance by instance. -/
theorem flatMap_places {α : Type} (f : Place → List α) (hf : ∀ h, f (.host h) = [])
    (t : Topology) :
    (Place.all t.hosts).flatMap f = t.services.flatMap fun (h, i) => f (.service h i) := by
  unfold Place.all Topology.services
  rw [List.flatMap_assoc, List.flatMap_assoc]
  congr 1
  funext h
  rw [Place.onHost, List.flatMap_cons, hf, List.nil_append, List.flatMap_map, List.flatMap_map]

/-- What instances do not give, and hosts do, is gathered host by host. -/
theorem flatMap_places_of_hosts {α : Type} (f : Place → List α)
    (hf : ∀ h i, f (.service h i) = []) (t : Topology) :
    (Place.all t.hosts).flatMap f = t.hosts.flatMap fun h => f (.host h) := by
  unfold Place.all
  rw [List.flatMap_assoc]
  congr 1
  funext h
  rw [Place.onHost, List.flatMap_cons, List.flatMap_map]
  simp only [hf, List.flatMap_eq_nil_iff.mpr fun _ _ => rfl, List.append_nil]

/-! ### Groups apart from questions -/

section

variable {c : Category} (hd : c ≠ .dbinfo) (hm : c ≠ .metric) (s : Scope)

include hd in
theorem look_databases_apart (p : Place) : (View.group c).look (p.databases s) = [] := by
  cases p with
  | host h => rfl
  | service h i =>
    rw [Place.databases]
    split
    · rw [databases]
      cases i.statusAddressPort? with
      | none => rfl
      | some port =>
        -- Names or none: all operations are of the group of databases.
        simp only [answered]
        cases s.discovery (.databases (addressOf h.ip (some port))) <;> simp [hd.symm]
    · rfl

include hm in
theorem look_metrics_apart (p : Place) : (View.group c).look (p.metrics s) = [] := by
  cases p with
  | host h => rfl
  | service h i =>
    rw [Place.metrics]
    split
    · cases s.window with
      | none => rfl
      | some w =>
        rw [Option.elim_some, metrics]
        cases i.port with
        | none => rfl
        | some port =>
          simp only [answered]
          cases s.discovery (.metrics (addressOf h.ip (some port))) <;> simp [hm.symm]
    · rfl

include hd hm in
/-- A group apart from questions is gathered from what places give on their own. -/
theorem look_walk_apart (ps : List Place) :
    (View.group c).look (walk s ps {}).1 = ps.flatMap fun p => (View.group c).look (p.own s) := by
  refine (View.group c).walk_each s (fun p asked => ?_) ps {}
  rw [visit_eq, View.look_append, View.look_append]
  cases asked.databases <;> cases asked.metrics <;>
    simp [look_databases_apart hd, look_metrics_apart hm]

include hd hm in
/-- **A group apart from questions**: what the plan begins with, an instance that was named, what
places give on their own, and the cutter of logs. -/
theorem look_gather_apart (t : Topology) (o : Options) (d : Discovery) (now : Instant)
    (st : Settled) :
    (View.group c).look (gather t o d now st) =
      (View.group c).look (opening t o now) ++
        (if c = .profile then (st.endpoint.map (namedOperations t o)).getD [] else []) ++
        (Place.all t.hosts).flatMap (fun p => (View.group c).look (p.own (st.scope o d now))) ++
        if c = .log then cutter st.spec o else [] := by
  rw [gather, View.look_append, View.look_append, View.look_append, look_walk_apart hd hm,
    View.group_operations, View.group_operations]
  simp only [eq_comm]

end

/-! ### What a place gives on its own -/

section

variable (s : Scope)

theorem look_configuration (c : Category) (h : Host) (i : Instance) :
    (View.group c).look (configuration s h i) =
      if c = .config ∧ s.spec.contains .config = true then
        (Artifact.configuration? s.root h.user h.ip i).toList
      else [] := by
  unfold configuration
  split
  next hc => simp [hc, eq_comm]
  next hc => simp [hc]

theorem look_profile (c : Category) (h : Host) (i : Instance) :
    (View.group c).look (profile s h i) =
      if c = .profile ∧ s.spec.contains .profile = true ∧ s.profileNamed = false then
        i.statusAddressPort?.elim [] fun port =>
          (Profile.operations? s.root i.kind h.user h.ip port s.options).getD []
      else [] := by
  unfold profile
  split
  next hc =>
    rw [Bool.not_eq_true'] at hc
    cases i.statusAddressPort? with
    | none => rw [Option.elim_none, ite_self]; rfl
    | some port =>
      rw [View.group_operations, Option.elim_some]
      by_cases he : c = .profile
      · rw [if_pos he.symm, if_pos ⟨he, hc⟩]
      · rw [if_neg (Ne.symm he), if_neg fun h => he h.1]
  next hc =>
    rw [Bool.not_eq_true'] at hc
    exact (if_neg fun h => hc h.2).symm

theorem look_own_host (c : Category) (h : Host) :
    (View.group c).look (Place.own s (.host h)) =
      if c = .basic ∧ s.spec.contains .basic = true then Artifact.hostState s.root h else [] := by
  rw [Place.own, View.look_append, View.group_warnIf, View.group_operations, List.nil_append]
  by_cases hc : c = .basic
  · simp [hc]
  · simp [hc, Ne.symm hc]

theorem look_own_config (h : Host) (i : Instance) :
    (View.group .config).look (Place.own s (.service h i)) =
      if s.spec.contains .config = true ∧ i.isHealthy = true then
        (Artifact.configuration? s.root h.user h.ip i).toList
      else [] := by
  rw [Place.own]
  by_cases hi : i.isHealthy = true
  · cases hk : i.kind <;>
      simp [hi, hk, look_configuration, look_profile, Artifact.configuration?,
        Artifact.hasConfiguration]
  · simp [hi]

theorem look_own_profile (h : Host) (i : Instance) :
    (View.group .profile).look (Place.own s (.service h i)) =
      if s.spec.contains .profile = true ∧ s.profileNamed = false then
        i.profilePort?.elim [] fun port =>
          (Profile.operations? s.root i.kind h.user h.ip port s.options).getD []
      else [] := by
  rw [Place.own]
  by_cases hi : i.isHealthy = true
  · cases hk : i.kind <;>
      simp [hi, hk, look_configuration, look_profile, Instance.profilePort?,
        Instance.statusAddressPort?]
  · simp [hi, Instance.profilePort?]

theorem look_own_else {c : Category} (hc : c ≠ .config) (hp : c ≠ .profile) (h : Host)
    (i : Instance) : (View.group c).look (Place.own s (.service h i)) = [] := by
  rw [Place.own]
  split
  · split <;> simp [look_configuration, look_profile, hc, hp]
  · rfl

end

end Planning

/-! ### The groups -/

section

variable {t : Topology} {o : Options} {d : Discovery} {now : Instant} {plan : Plan}
  (h : (Plan.build t o d now).outcome = .ok plan)
include h

theorem group_apart {c : Category} (hd : c ≠ .dbinfo) (hm : c ≠ .metric) :
    ∃ st, Planning.settle o = .ok st ∧ plan.group c =
      (View.group c).look (Planning.opening t o now) ++
        (if c = .profile then (st.endpoint.map (Planning.namedOperations t o)).getD [] else []) ++
        (Planning.Place.all t.hosts).flatMap
          (fun p => (View.group c).look (p.own (st.scope o d now))) ++
        if c = .log then Planning.cutter st.spec o else [] := by
  obtain ⟨st, hs, rfl, -⟩ := Planning.settle_of_build_ok h
  exact ⟨st, hs, Planning.look_gather_apart hd hm t o d now st⟩

theorem group_setup : plan.group .setup = Record.setup o.inspectionDir o t := by
  obtain ⟨st, -, hg⟩ := group_apart h (c := .setup) (by decide) (by decide)
  rw [hg, Planning.flatMap_places_of_hosts _ (Planning.look_own_else _ (by decide) (by decide))]
  simp [Planning.look_own_host, Planning.opening]

theorem group_teardown : plan.group .teardown = [Record.teardown o.inspectionDir t now] := by
  obtain ⟨st, -, hg⟩ := group_apart h (c := .teardown) (by decide) (by decide)
  rw [hg, Planning.flatMap_places_of_hosts _ (Planning.look_own_else _ (by decide) (by decide))]
  simp [Planning.look_own_host, Planning.opening]

/-- The state of every host, in order. -/
theorem group_basic : plan.group .basic =
    if o.requests .basic then t.hosts.flatMap (Artifact.hostState o.inspectionDir) else [] := by
  obtain ⟨st, hs, hg⟩ := group_apart h (c := .basic) (by decide) (by decide)
  rw [hg, Planning.flatMap_places_of_hosts _ (Planning.look_own_else _ (by decide) (by decide)),
    Options.requests_eq (Planning.settle_eq_ok.mp hs).1]
  cases hc : st.spec.contains .basic <;>
    simp [Planning.look_own_host, Planning.opening, Planning.Settled.scope, hc]

/-- The configuration of every healthy instance that has one, in order. -/
theorem group_config : plan.group .config =
    if o.requests .config then t.services.flatMap fun (h, i) => h.configurations o i
    else [] := by
  obtain ⟨st, hs, hg⟩ := group_apart h (c := .config) (by decide) (by decide)
  rw [hg, Planning.flatMap_places _ (fun h => by simp [Planning.look_own_host]),
    Options.requests_eq (Planning.settle_eq_ok.mp hs).1]
  cases hc : st.spec.contains .config <;>
    simp [Planning.look_own_config, Planning.opening, Planning.Settled.scope, hc,
      Host.configurations]

/-- The instance that was named is profiled and no other, or else every instance is that can be, in
order, if profiles are requested. -/
theorem group_profile : ∃ st, Planning.settle o = .ok st ∧ plan.group .profile =
    match st.endpoint with
    | some target => Planning.namedOperations t o target
    | none =>
      if o.requests .profile then t.services.flatMap fun (h, i) => h.profiles o i else [] := by
  obtain ⟨st, hs, hg⟩ := group_apart h (c := .profile) (by decide) (by decide)
  refine ⟨st, hs, ?_⟩
  rw [hg, Planning.flatMap_places _ (fun h => by simp [Planning.look_own_host]),
    Options.requests_eq (Planning.settle_eq_ok.mp hs).1]
  cases he : st.endpoint <;> cases hc : st.spec.contains .profile <;>
    simp [Planning.look_own_profile, Planning.opening, Planning.Settled.scope, he, hc,
      Host.profiles]

/-- The one operation that cuts the logs. -/
theorem group_log : plan.group .log =
    if o.requests .log then (Artifact.logs o.inspectionDir o).toOption.toList else [] := by
  obtain ⟨st, hs, hg⟩ := group_apart h (c := .log) (by decide) (by decide)
  rw [hg, Planning.flatMap_places_of_hosts _ (Planning.look_own_else _ (by decide) (by decide)),
    Options.requests_eq (Planning.settle_eq_ok.mp hs).1]
  simp [Planning.look_own_host, Planning.opening, Planning.cutter]

end

end Inspection
