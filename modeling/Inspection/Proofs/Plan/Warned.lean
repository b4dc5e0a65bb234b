import Inspection.Proofs.Plan.Unasked

/-!
# Plan — what a build warns of

A build goes through a cluster place by place, and at every place its warnings depend on the place
and on the servers it came by before (`visit_warnings`).  They are told in turn: of the cluster, of
every host, and of every instance once if it is skipped, or else for every category that is
collected from its service.

* `warnings_in_turn`: those are all warnings of a build, and where a requested category plans nothing
  for an instance there is one, unless another instance was asked before, another one was named, or
  it was asked itself and has nothing to name.
-/

namespace Inspection

/-! ### In turn -/

/-- What the elements of a list give one after the other, where each may go by those before it. -/
def inTurn {α β : Type} (give : List α → α → List β) : List α → List α → List β
  | _, [] => []
  | before, x :: rest => give before x ++ inTurn give (before ++ [x]) rest

theorem mem_inTurn {α β : Type} {give : List α → α → List β} {x : α} {after : List α} {b : β} :
    ∀ {passed before : List α}, b ∈ give (passed ++ before) x →
      b ∈ inTurn give passed (before ++ x :: after)
  | passed, [], h => by
    rw [List.append_nil] at h
    exact List.mem_append_left _ h
  | passed, y :: before, h => by
    rw [List.append_cons] at h
    exact List.mem_append_right _ (mem_inTurn h)

/-- The warnings of findings. -/
def View.warnings : View Warning where
  look f := f.warnings
  look_empty := rfl
  look_append _ _ := rfl

/-- The categories that are collected from a service, in order. -/
def ServiceKind.collected : ServiceKind → List Category
  | .tidb => [.profile, .config, .dbinfo]
  | .tikv | .pd => [.config, .profile]
  | .prometheus => [.metric]
  | _ => []

/-- Whether profiles are requested and no target of them says anything, so that every instance is
profiled that can be. -/
def Options.ProfilesAll (o : Options) : Prop :=
  Target.Names o.collect .profile ∧ ∀ segments ∈ Target.written o.collect .profile, segments = []

instance (o : Options) : Decidable o.ProfilesAll := inferInstanceAs (Decidable (_ ∧ _))

namespace Planning

/-- The window of metrics of a run that begins now, if they are requested. -/
def window? (o : Options) (now : Instant) : Option Window :=
  match TargetSpec.read o.collect with
  | .ok spec => (windowOf spec o now).toOption.join
  | .error _ => none

/-! ### What is due at a place -/

section

variable (o : Options) (d : Discovery) (before : List Place) (h : Host) (i : Instance)

/-- Whether databases are requested and no instance that was come by could be asked for them. -/
def AsksDatabases : Prop :=
  Target.Names o.collect .dbinfo ∧ ∀ p ∈ before, p.databaseServer? = none

/-- Whether metrics are requested and no instance that was come by could be asked for them. -/
def AsksMetrics : Prop := Target.Names o.collect .metric ∧ ∀ p ∈ before, p.metricServer? = none

instance : Decidable (AsksDatabases o before) := inferInstanceAs (Decidable (_ ∧ _))

instance : Decidable (AsksMetrics o before) := inferInstanceAs (Decidable (_ ∧ _))

/-- The warnings that are due at a healthy instance for a category that is collected from it. -/
def warningsOf : Category → List Warning
  | .profile =>
    if o.ProfilesAll ∧ i.port = none ∧ i.statusPort = none then [.noProfilePort i.kind h.ip] else []
  | .dbinfo =>
    if AsksDatabases o before then
      match i.statusPort.or i.port with
      | none => [.noSchemaPort h.ip]
      | some port =>
        let question := Query.databases (addressOf h.ip (some port))
        match d question with
        | .ok names => (names.filter (!Artifact.isFileName ·)).map .badDatabaseName
        | .error e => [.discoveryFailed question e]
    else []
  | .metric =>
    if AsksMetrics o before then
      match i.port with
      | none => [.noMetricPort h.ip]
      | some port =>
        let question := Query.metrics (addressOf h.ip (some port))
        match d question with
        | .ok _ => []
        | .error e => [.discoveryFailed question e]
    else []
  | _ => []

/-- The operations of a category that come of an instance. -/
def plannedOf (now : Instant) : Category → List Operation
  | .profile => if o.ProfilesAll then h.profiles o i else []
  | .config => if Target.Names o.collect .config then h.configurations o i else []
  | .dbinfo =>
    if AsksDatabases o before then
      (h.databaseServer? i).elim [] fun address =>
        match d (.databases address) with
        | .ok names => Artifact.schemas o.inspectionDir address o.httpTimeout.toNat names
        | .error e => [Artifact.unprepared (.databases address) e]
    else []
  | .metric =>
    if AsksMetrics o before then
      (h.metricServer? i).elim [] fun address => (window? o now).elim [] fun w =>
        (match d (.metrics address) with
          | .ok names =>
            Artifact.metricRanges o.inspectionDir address o.httpTimeout.toNat w names
          | .error e => [Artifact.unprepared (.metrics address) e]) ++
        [Artifact.alerts o.inspectionDir address o.httpTimeout.toNat]
    else []
  | _ => []

end

/-- The warnings that are due at a place, others being behind. -/
def due (o : Options) (d : Discovery) (before : List Place) : Place → List Warning
  | .host h => if h.status = .exception then [.hostErrors h.ip] else []
  | .service h i =>
    if i.status = .exception then [.skipped i.kind h.ip i.status]
    else i.kind.collected.flatMap (warningsOf o d before h i)

/-- Why an instance has neither operations of a category nor a warning. -/
inductive Excused (o : Options) (d : Discovery) (before : List Place) (h : Host) (i : Instance) :
    Category → Prop
  /-- An instance before it could be asked for databases, and was. -/
  | databasesAsked (asked : ∃ p ∈ before, p.databaseServer? ≠ none) : Excused o d before h i .dbinfo
  /-- An instance before it could be asked for metrics, and was. -/
  | metricsAsked (asked : ∃ p ∈ before, p.metricServer? ≠ none) : Excused o d before h i .metric
  /-- An instance was named to be profiled. -/
  | named (target : ∃ segments ∈ Target.written o.collect .profile, segments ≠ []) :
    Excused o d before h i .profile
  /-- It was asked for databases and has none. -/
  | noDatabases (address : String) (server : h.databaseServer? i = some address)
      (answer : d (.databases address) = .ok []) : Excused o d before h i .dbinfo

/-! ### What options settle -/

section

variable {o : Options} {st : Settled} (hs : settle o = .ok st)
include hs

theorem contains_iff_names (c : Category) :
    st.spec.contains c = true ↔ Target.Names o.collect c := by
  rw [TargetSpec.contains, TargetSpec.qualifiers_eq_written (settle_eq_ok.mp hs).1,
    List.isEmpty_map, Bool.not_eq_true', List.isEmpty_eq_false_iff, Target.Names]

theorem window?_eq (now : Instant) : window? o now = st.window.map (· now) := by
  obtain ⟨hr, -, hw, -⟩ := settle_eq_ok.mp hs
  rw [window?, hr]
  simp only [windowOf_eq, hw]
  rfl

theorem isSome_window (now : Instant) :
    (st.window.map (· now)).isSome = true ↔ Target.Names o.collect .metric := by
  rw [← contains_iff_names hs, ← Options.requests_eq (settle_eq_ok.mp hs).1]
  rcases window_cases hs now with ⟨hn, hw⟩ | ⟨hm, w, hw, -⟩
  · simp [hn, hw]
  · simp [hm, hw]

/-- Every instance is profiled unless profiles are not requested or an instance was named. -/
theorem profilesAll_iff :
    (st.spec.contains .profile = true ∧ st.endpoint.isSome = false) ↔ o.ProfilesAll := by
  rw [contains_iff_names hs, Options.ProfilesAll]
  refine and_congr_right fun _ => ?_
  cases hw : (Target.written o.collect .profile).find? (!·.isEmpty) with
  | none =>
    rw [endpoint_of_bare hs hw]
    exact iff_of_true rfl fun segments hm => by simpa using List.find?_eq_none.mp hw segments hm
  | some segments =>
    obtain ⟨target, ht, -⟩ := endpoint_of_written hs hw
    rw [ht]
    refine iff_of_false nofun fun hbare => ?_
    have hne := List.find?_some hw
    simp [hbare segments (List.mem_of_find?_eq_some hw)] at hne

end

/-! ### Servers come by -/

/-- What was asked behind some places: a question is asked at the first that can be. -/
theorem walk_snd (s : Scope) : ∀ (ps : List Place) (asked : Asked),
    (walk s ps asked).2 =
      { databases :=
          asked.databases || (s.spec.contains .dbinfo && ps.any (·.databaseServer?.isSome))
        metrics := asked.metrics || (s.window.isSome && ps.any (·.metricServer?.isSome)) }
  | [], asked => by simp [walk]
  | p :: ps, asked => by
    simp only [walk, visit_eq, walk_snd s ps, Asked.after, List.any_cons]
    cases asked.databases <;> cases asked.metrics <;> cases s.spec.contains .dbinfo <;>
      cases s.window.isSome <;> simp

section

variable {o : Options} {st : Settled} (hs : settle o = .ok st) (d : Discovery) (now : Instant)
  (before : List Place)
include hs

theorem databases_walk_snd :
    (st.spec.contains .dbinfo = true ∧
      (walk (st.scope o d now) before {}).2.databases = false) ↔ AsksDatabases o before := by
  rw [walk_snd, AsksDatabases, ← contains_iff_names hs]
  refine and_congr_right fun hc => ?_
  simp [Settled.scope, hc]

theorem metrics_walk_snd :
    ((st.scope o d now).window.isSome = true ∧
      (walk (st.scope o d now) before {}).2.metrics = false) ↔ AsksMetrics o before := by
  rw [walk_snd, AsksMetrics, ← isSome_window hs now]
  refine and_congr_right fun hc => ?_
  simp only [Settled.scope] at hc ⊢
  simp [hc]

end

end Planning

/-- A walk seen in turn: at every place by what was asked behind the places before it. -/
theorem View.walk_inTurn {β : Type} (v : View β) (s : Planning.Scope) :
    ∀ (before ps : List Planning.Place),
      v.look (Planning.walk s ps (Planning.walk s before {}).2).1 =
        inTurn (fun before p => v.look (p.visit s (Planning.walk s before {}).2).1) before ps
  | _, [] => v.look_empty
  | before, p :: ps => by
    have hnext : (p.visit s (Planning.walk s before {}).2).2 =
        (Planning.walk s (before ++ [p]) {}).2 := by
      rw [Planning.walk_append]
      rfl
    rw [Planning.walk, v.look_append, hnext, inTurn, v.walk_inTurn s (before ++ [p]) ps]

namespace View

@[simp] theorem warnings_operations (c : Category) (os : List Operation) :
    warnings.look (.operations c os) = [] := rfl

@[simp] theorem warnings_warn (ws : List Warning) : warnings.look (.warn ws) = ws := rfl

@[simp] theorem warnings_warnIf (condition : Bool) (w : Warning) :
    warnings.look (.warnIf condition w) = if condition then [w] else [] := rfl

@[simp] theorem warnings_query (q : Query) : warnings.look (.query q) = [] := rfl

end View

namespace Planning

/-! ### The warnings of a visit -/

theorem statusAddressPort?_eq_none {i : Instance} :
    i.statusAddressPort? = none ↔ i.port = none ∧ i.statusPort = none := by
  rw [Instance.statusAddressPort?]
  split <;> simp [and_comm]

theorem status_of_not_isHealthy {i : Instance} (h : i.isHealthy = false) :
    i.status = .exception := by
  cases hs : i.status
  · simp [Instance.isHealthy, hs] at h
  · rfl

theorem status_of_isHealthy {i : Instance} (h : i.isHealthy = true) : ¬i.status = .exception := by
  rw [of_decide_eq_true h]
  decide

theorem look_unless {β : Type} (v : View β) (asked : Bool) (f : Findings) :
    v.look (if asked then .empty else f) = if asked then [] else v.look f := by
  cases asked <;> simp

/-- What a view sees of a question at the place where it may be asked: what it gives, if it is
requested and was not asked before. -/
theorem look_of_asks {β : Type} (v : View β) {requested asks : Prop} [Decidable asks] {asked : Bool}
    (hasks : requested ∧ asked = false ↔ asks) {f : Findings} {given : List β}
    (hgiven : requested → v.look f = given) (hnone : ¬requested → v.look f = []) :
    v.look (if asked then .empty else f) = if asks then given else [] := by
  rw [look_unless]
  by_cases ha : asks
  · obtain ⟨hrequested, hasked⟩ := hasks.mpr ha
    rw [hasked, if_neg Bool.false_ne_true, if_pos ha, hgiven hrequested]
  · rw [if_neg ha]
    split
    · rfl
    next hasked =>
      exact hnone fun hrequested => ha (hasks.mp ⟨hrequested, Bool.eq_false_iff.mpr hasked⟩)

section

variable {o : Options} {st : Settled} (hs : settle o = .ok st) (d : Discovery) (now : Instant)
  (before : List Place) (h : Host) (i : Instance)
include hs

theorem warnings_profile :
    View.warnings.look (profile (st.scope o d now) h i) = warningsOf o d before h i .profile := by
  simp only [profile, Settled.scope, Bool.not_eq_true', profilesAll_iff hs, warningsOf,
    ← statusAddressPort?_eq_none]
  by_cases hp : o.ProfilesAll
  · cases i.statusAddressPort? <;> simp [hp]
  · simp [hp]

omit hs in
theorem warnings_configuration (s : Scope) : View.warnings.look (configuration s h i) = [] := by
  unfold configuration
  split <;> rfl

theorem warnings_databases (hi : i.isHealthy = true) (hk : i.kind = .tidb) :
    View.warnings.look (if (walk (st.scope o d now) before {}).2.databases then .empty
      else Place.databases (st.scope o d now) (.service h i)) =
        warningsOf o d before h i .dbinfo := by
  rw [warningsOf]
  refine look_of_asks _ (databases_walk_snd hs d now before) (fun hc => ?_) fun hc => ?_
  · rw [Place.databases, if_pos ⟨hc, hi, hk⟩, databases, statusAddressPort?_tidb hk]
    cases i.statusPort.or i.port with
    | none => rfl
    | some port =>
      simp only [answered, Settled.scope]
      cases d (.databases (addressOf h.ip (some port))) <;> simp
  · rw [Place.databases, if_neg fun hall => hc hall.1]
    rfl

theorem warnings_metrics (hi : i.isHealthy = true) (hk : i.kind = .prometheus) :
    View.warnings.look (if (walk (st.scope o d now) before {}).2.metrics then .empty
      else Place.metrics (st.scope o d now) (.service h i)) =
        warningsOf o d before h i .metric := by
  have hplace : Place.metrics (st.scope o d now) (.service h i) =
      (st.scope o d now).window.elim .empty fun w => (metrics (st.scope o d now) w h i).1 :=
    if_pos ⟨hi, hk⟩
  rw [warningsOf]
  refine look_of_asks _ (metrics_walk_snd hs d now before) (fun hw => ?_) fun hw => ?_
  · obtain ⟨w, hw⟩ := Option.isSome_iff_exists.mp hw
    rw [hplace, hw, Option.elim_some, metrics]
    cases i.port with
    | none => rfl
    | some port =>
      simp only [answered, Settled.scope]
      cases d (.metrics (addressOf h.ip (some port))) <;> simp
  · rw [hplace, Option.not_isSome_iff_eq_none.mp hw]
    rfl

/-- **The warnings of a visit** are those that are due. -/
theorem visit_warnings (p : Place) :
    View.warnings.look (p.visit (st.scope o d now) (walk (st.scope o d now) before {}).2).1 =
      due o d before p := by
  rw [visit_eq, View.look_append, View.look_append]
  cases p with
  | host h =>
    cases hst : h.status <;> simp [Place.own, Place.databases, Place.metrics, due, hst]
  | service h i =>
    cases hi : i.isHealthy with
    | false =>
      simp [Place.own, Place.databases, Place.metrics, due, hi, status_of_not_isHealthy hi]
    | true =>
      rw [due, if_neg (status_of_isHealthy hi), Place.own, if_pos hi]
      cases hk : i.kind
      case tidb =>
        rw [warnings_databases hs d now before h i hi hk, ServiceKind.collected]
        simp [warnings_profile hs d now before, warnings_configuration, Place.metrics, hk,
          warningsOf]
      case prometheus =>
        rw [warnings_metrics hs d now before h i hi hk, ServiceKind.collected]
        simp [Place.databases, hk]
      all_goals
        simp [warnings_profile hs d now before, warnings_configuration, Place.databases,
          Place.metrics, hk, ServiceKind.collected, warningsOf]

/-! ### The operations of a visit -/

theorem group_visit_config (asked : Asked) :
    (View.group .config).look ((Place.service h i).visit (st.scope o d now) asked).1 =
      plannedOf o d before h i now .config := by
  rw [visit_eq, View.look_append, View.look_append, look_unless, look_unless,
    look_databases_apart (by decide), look_metrics_apart (by decide), look_own_config, plannedOf]
  simp only [Settled.scope, contains_iff_names hs, Host.configurations, ite_self, List.append_nil]
  by_cases hn : Target.Names o.collect .config <;> simp [hn]

theorem group_visit_profile (asked : Asked) :
    (View.group .profile).look ((Place.service h i).visit (st.scope o d now) asked).1 =
      plannedOf o d before h i now .profile := by
  rw [visit_eq, View.look_append, View.look_append, look_unless, look_unless,
    look_databases_apart (by decide), look_metrics_apart (by decide), look_own_profile, plannedOf]
  simp only [Settled.scope, profilesAll_iff hs, Host.profiles, ite_self, List.append_nil]

theorem group_visit_dbinfo :
    (View.group .dbinfo).look ((Place.service h i).visit (st.scope o d now)
      (walk (st.scope o d now) before {}).2).1 = plannedOf o d before h i now .dbinfo := by
  have hinq := View.inquiring_group (c := .dbinfo) (.inl rfl)
  have hm : (View.group .dbinfo).look (Place.metrics (st.scope o d now) (.service h i)) = [] :=
    look_metrics_apart (by decide) _ _
  rw [visit_eq, View.look_append, View.look_append, hinq.look_own,
    look_unless _ _ (Place.metrics (st.scope o d now) (.service h i)), hm, ite_self,
    List.append_nil, List.nil_append, plannedOf]
  refine look_of_asks _ (databases_walk_snd hs d now before) (fun hc => ?_) fun hc => ?_
  · have hserver : (st.scope o d now).databaseServer? (.service h i) = h.databaseServer? i :=
      if_pos hc
    rw [hinq.look_databases, hserver]
    cases h.databaseServer? i with
    | none => rfl
    | some address =>
      exact View.group_operations .dbinfo .dbinfo (schemaOperations (st.scope o d now) address)
  · have hserver : (st.scope o d now).databaseServer? (.service h i) = none := if_neg hc
    rw [hinq.look_databases, hserver]
    rfl

theorem group_visit_metric :
    (View.group .metric).look ((Place.service h i).visit (st.scope o d now)
      (walk (st.scope o d now) before {}).2).1 = plannedOf o d before h i now .metric := by
  have hinq := View.inquiring_group (c := .metric) (.inr rfl)
  have hd : (View.group .metric).look (Place.databases (st.scope o d now) (.service h i)) = [] :=
    look_databases_apart (by decide) _ _
  rw [visit_eq, View.look_append, View.look_append, hinq.look_own,
    look_unless _ _ (Place.databases (st.scope o d now) (.service h i)), hd, ite_self,
    List.nil_append, List.nil_append, plannedOf, window?_eq hs]
  refine look_of_asks _ (metrics_walk_snd hs d now before) (fun hw => ?_) fun hw => ?_
  · have hserver : (st.scope o d now).metricServer? (.service h i) = h.metricServer? i := if_pos hw
    rw [hinq.look_metrics, hserver]
    cases h.metricServer? i with
    | none => rfl
    | some address =>
      exact View.group_operations .metric .metric (metricOperations (st.scope o d now) address)
  · have hserver : (st.scope o d now).metricServer? (.service h i) = none := if_neg hw
    rw [hinq.look_metrics, hserver]
    rfl

/-- **The operations of a visit** of a category that is collected. -/
theorem group_visit {c : Category} (hc : c ∈ i.kind.collected) :
    (View.group c).look ((Place.service h i).visit (st.scope o d now)
      (walk (st.scope o d now) before {}).2).1 = plannedOf o d before h i now c := by
  have hcases : c = .profile ∨ c = .config ∨ c = .dbinfo ∨ c = .metric := by
    revert hc
    cases i.kind <;> cases c <;> decide
  rcases hcases with rfl | rfl | rfl | rfl
  · exact group_visit_profile hs d now before h i _
  · exact group_visit_config hs d now before h i _
  · exact group_visit_dbinfo hs d now before h i
  · exact group_visit_metric hs d now before h i

omit hs in
/-- What a view sees at a place it sees in the whole. -/
theorem mem_look_gather {β : Type} (v : View β) {t : Topology} {before after : List Place}
    {p : Place} (hp : Place.all t.hosts = before ++ p :: after) {b : β}
    (hb : b ∈ v.look (p.visit (st.scope o d now) (walk (st.scope o d now) before {}).2).1) :
    b ∈ v.look (gather t o d now st) := by
  have hwalk := v.walk_inTurn (st.scope o d now) [] (Place.all t.hosts)
  rw [walk] at hwalk
  rw [gather, v.look_append, v.look_append, hwalk, hp]
  exact List.mem_append_left _ (List.mem_append_right _ (mem_inTurn hb))

end

/-! ### Every instance accounted for -/

section

variable {o : Options} {d : Discovery} {now : Instant} {before : List Place} {h : Host}
  {i : Instance}

theorem profilePort?_eq_none (hi : i.isHealthy = true) (hc : .profile ∈ i.kind.collected) :
    i.profilePort? = none ↔ i.port = none ∧ i.statusPort = none := by
  rw [Instance.profilePort?, if_pos hi]
  cases hk : i.kind <;> simp_all [ServiceKind.collected, and_comm]

/-- A healthy instance of a service that is profiled has operations at any port. -/
theorem exists_mem_profiles (hi : i.isHealthy = true) (hc : .profile ∈ i.kind.collected)
    (hport : ¬(i.port = none ∧ i.statusPort = none)) :
    ∃ operation, operation ∈ h.profiles o i := by
  obtain ⟨port, hp⟩ := Option.ne_none_iff_exists'.mp
    (mt (profilePort?_eq_none hi hc).mp hport)
  rw [Host.profiles, hp, Option.elim_some]
  revert hc
  cases i.kind <;> intro hc
  case tidb | pd => exact ⟨_, List.mem_cons_self⟩
  case tikv => exact ⟨_, List.mem_cons_self⟩
  all_goals cases hc <;> contradiction

theorem exists_mem_configurations (hi : i.isHealthy = true) (hc : .config ∈ i.kind.collected) :
    ∃ operation, operation ∈ h.configurations o i := by
  have hconf : Artifact.hasConfiguration i.kind = true := by
    revert hc
    cases i.kind <;> decide
  obtain ⟨operation, ho⟩ := Option.isSome_iff_exists.mp
    ((Artifact.configuration?_isSome_iff o.inspectionDir h.user h.ip i).mpr hconf)
  refine ⟨operation, ?_⟩
  rw [Host.configurations, if_pos hi, ho]
  exact List.mem_singleton.mpr rfl

/-- What comes of a question about databases: nothing only if there are no databases. -/
theorem dbinfo_of_asks (hi : i.isHealthy = true) (hk : i.kind = .tidb)
    (ha : AsksDatabases o before) :
    (∃ operation, operation ∈ plannedOf o d before h i now .dbinfo) ∨
      (∃ w, w ∈ warningsOf o d before h i .dbinfo) ∨ Excused o d before h i .dbinfo := by
  have hserver : h.databaseServer? i =
      (i.statusPort.or i.port).map fun port => addressOf h.ip (some port) := if_pos ⟨hi, hk⟩
  rw [plannedOf, if_pos ha, warningsOf, if_pos ha, hserver]
  cases hp : i.statusPort.or i.port with
  | none => exact .inr (.inl ⟨_, List.mem_singleton.mpr rfl⟩)
  | some port =>
    simp only [Option.map_some, Option.elim_some]
    cases hd : d (.databases (addressOf h.ip (some port))) with
    | error e => exact .inl ⟨_, List.mem_singleton.mpr rfl⟩
    | ok names =>
      cases names with
      | nil => exact .inr (.inr (.noDatabases _ (by rw [hserver, hp]; rfl) hd))
      | cons name rest =>
        -- The first name gives an operation, or a warning.
        cases hn : Artifact.isFileName name with
        | true => exact .inl ⟨_, List.mem_map_of_mem (List.mem_filter.mpr ⟨List.mem_cons_self, hn⟩)⟩
        | false =>
          refine .inr (.inl ⟨_, List.mem_map_of_mem (List.mem_filter.mpr ⟨List.mem_cons_self, ?_⟩)⟩)
          rw [hn]
          rfl

theorem metric_of_asks (hi : i.isHealthy = true) (hk : i.kind = .prometheus)
    (ha : AsksMetrics o before) {w : Window} (hw : window? o now = some w) :
    (∃ operation, operation ∈ plannedOf o d before h i now .metric) ∨
      ∃ w, w ∈ warningsOf o d before h i .metric := by
  have hserver : h.metricServer? i = i.port.map fun port => addressOf h.ip (some port) :=
    if_pos ⟨hi, hk⟩
  rw [plannedOf, if_pos ha, warningsOf, if_pos ha, hserver, hw]
  cases i.port with
  | none => exact .inr ⟨_, List.mem_singleton.mpr rfl⟩
  | some port => exact .inl ⟨_, List.mem_append_right _ (List.mem_singleton.mpr rfl)⟩

/-- **Every healthy instance is accounted for** in every category that is requested and collected
from it. -/
theorem accounted {st : Settled} (hs : settle o = .ok st) (hi : i.isHealthy = true) {c : Category}
    (hc : c ∈ i.kind.collected) (hn : Target.Names o.collect c) :
    (∃ operation, operation ∈ plannedOf o d before h i now c) ∨
      (∃ w, w ∈ warningsOf o d before h i c) ∨ Excused o d before h i c := by
  cases c with
  | setup | basic | log | teardown => cases hk : i.kind <;> simp [hk, ServiceKind.collected] at hc
  | config =>
    rw [plannedOf, if_pos hn]
    exact .inl (exists_mem_configurations hi hc)
  | profile =>
    by_cases hall : o.ProfilesAll
    · rw [plannedOf, if_pos hall]
      by_cases hport : i.port = none ∧ i.statusPort = none
      · rw [warningsOf, if_pos ⟨hall, hport⟩]
        exact .inr (.inl ⟨_, List.mem_singleton.mpr rfl⟩)
      · exact .inl (exists_mem_profiles hi hc hport)
    · refine .inr (.inr (.named ?_))
      simpa [Options.ProfilesAll, hn] using hall
  | dbinfo =>
    have hk : i.kind = .tidb := by cases hk : i.kind <;> simp_all [ServiceKind.collected]
    by_cases ha : AsksDatabases o before
    · exact dbinfo_of_asks hi hk ha
    · refine .inr (.inr (.databasesAsked ?_))
      simpa [AsksDatabases, hn] using ha
  | metric =>
    have hk : i.kind = .prometheus := by cases hk : i.kind <;> simp_all [ServiceKind.collected]
    by_cases ha : AsksMetrics o before
    · obtain ⟨w, hw⟩ := Option.isSome_iff_exists.mp ((isSome_window hs now).mpr hn)
      exact (metric_of_asks hi hk ha ((window?_eq hs now).trans hw)).imp_right .inl
    · refine .inr (.inr (.metricsAsked ?_))
      simpa [AsksMetrics, hn] using ha

end

/-- The warnings of what is gathered. -/
theorem warnings_gather {o : Options} {st : Settled} (hs : settle o = .ok st) (t : Topology)
    (d : Discovery) (now : Instant) :
    View.warnings.look (gather t o d now st) =
      (if t.status = .exception then [.topologyErrors t.clusterName] else []) ++
        inTurn (due o d) [] (Place.all t.hosts) := by
  have hwalk := View.warnings.walk_inTurn (st.scope o d now) [] (Place.all t.hosts)
  simp only [visit_warnings hs] at hwalk
  rw [walk] at hwalk
  rw [gather, opening, View.look_append, View.look_append, hwalk]
  cases t.status <;> simp

end Planning

section

variable {t : Topology} {o : Options} {d : Discovery} {now : Instant} {plan : Plan}

/-- **Nothing is left out in silence.**  A build warns, in this order, of a cluster that was found
with errors and then, place by place, of a host that was, of an instance that is skipped, and of
what is in the way of the categories that are collected from a healthy one; and of nothing else.
So for every instance and every requested category that is collected from it there is an operation
in the plan, or a warning, or it is excused: another instance was asked before, another one was
named, or it was asked and has nothing to name. -/
theorem warnings_in_turn (hb : (Plan.build t o d now).outcome = .ok plan) :
    (Plan.build t o d now).warnings =
      (if t.status = .exception then [.topologyErrors t.clusterName] else []) ++
        inTurn (Planning.due o d) [] (Planning.Place.all t.hosts) ∧
    ∀ before h i after, Planning.Place.all t.hosts = before ++ .service h i :: after →
      ∀ c ∈ i.kind.collected, Target.Names o.collect c →
        (∃ operation ∈ Planning.plannedOf o d before h i now c, operation ∈ plan.group c) ∨
        (i.status = .exception ∧
          .skipped i.kind h.ip i.status ∈ (Plan.build t o d now).warnings) ∨
        (∃ w ∈ Planning.warningsOf o d before h i c, w ∈ (Plan.build t o d now).warnings) ∨
        Planning.Excused o d before h i c := by
  obtain ⟨st, hs, rfl, -⟩ := Planning.settle_of_build_ok hb
  have hwarnings : (Plan.build t o d now).warnings =
      View.warnings.look (Planning.gather t o d now st) := by
    rw [Planning.build_of_settle_ok hs]
    rfl
  rw [hwarnings]
  refine ⟨Planning.warnings_gather hs t d now, fun before h i after hp c hc hn => ?_⟩
  -- What is due at the instance is told.
  have htold : ∀ w ∈ Planning.due o d before (.service h i),
      w ∈ View.warnings.look (Planning.gather t o d now st) := fun w hw =>
    Planning.mem_look_gather d now View.warnings hp
      (by rw [Planning.visit_warnings hs]; exact hw)
  cases hi : i.isHealthy with
  | false =>
    have hst := Planning.status_of_not_isHealthy hi
    refine .inr (.inl ⟨hst, htold _ ?_⟩)
    rw [Planning.due, if_pos hst]
    exact List.mem_singleton.mpr rfl
  | true =>
    have haccounted : (∃ operation, operation ∈ Planning.plannedOf o d before h i now c) ∨
        (∃ w, w ∈ Planning.warningsOf o d before h i c) ∨ Planning.Excused o d before h i c :=
      Planning.accounted hs hi hc hn
    rcases haccounted with ⟨operation, ho⟩ | ⟨w, hw⟩ | he
    · refine .inl ⟨operation, ho, Planning.mem_look_gather d now (View.group c) hp ?_⟩
      rw [Planning.group_visit hs d now before h i hc]
      exact ho
    · refine .inr (.inr (.inl ⟨w, hw, htold w ?_⟩))
      rw [Planning.due, if_neg (Planning.status_of_isHealthy hi)]
      exact List.mem_flatMap.mpr ⟨c, hc, hw⟩
    · exact .inr (.inr (.inr he))

end

/-- The places of the small cluster before its third TiDB server. -/
def placesBefore : List Planning.Place := (Planning.Place.all smallCluster.hosts).take 7

/-- The third TiDB server of the small cluster and its host. -/
def thirdServer : Host × Instance :=
  (smallCluster.hosts[1], ⟨.tidb, .success, "/tidb", some 4001, none⟩)

theorem warnings_in_turn_small :
    ∃ plan, (Plan.build smallCluster askingRun halfAnswered .earliest).outcome = .ok plan ∧
      (Plan.build smallCluster askingRun halfAnswered .earliest).warnings =
        [.hostErrors "10.0.0.1", .noSchemaPort "10.0.0.1", .skipped .tidb "10.0.0.1" .exception,
          .noMetricPort "10.0.0.1", .badDatabaseName "../escape",
          .discoveryFailed (.metrics "10.0.0.2:9090")
            (.request "10.0.0.2:9090" (.connection (some "refused")))] ∧
      Planning.Place.all smallCluster.hosts = placesBefore ++
        .service thirdServer.1 thirdServer.2 :: (Planning.Place.all smallCluster.hosts).drop 8 ∧
      .dbinfo ∈ thirdServer.2.kind.collected ∧ Target.Names askingRun.collect .dbinfo ∧
      Planning.Excused askingRun halfAnswered placesBefore thirdServer.1 thirdServer.2 .dbinfo := by
  have hp : Planning.Place.all smallCluster.hosts = placesBefore ++
      .service thirdServer.1 thirdServer.2 :: (Planning.Place.all smallCluster.hosts).drop 8 := rfl
  have hc : .dbinfo ∈ thirdServer.2.kind.collected := by decide
  have hn : Target.Names askingRun.collect .dbinfo := by decide
  obtain ⟨plan, hb⟩ : ∃ plan, (Plan.build smallCluster askingRun halfAnswered
    .earliest).outcome = .ok plan := ⟨_, rfl⟩
  refine ⟨plan, hb, (warnings_in_turn hb).1.trans rfl, hp, hc, hn, ?_⟩
  rcases (warnings_in_turn hb).2 placesBefore _ _ _ hp .dbinfo hc hn with
    ⟨operation, ho, -⟩ | ⟨hst, -⟩ | ⟨w, hw, -⟩ | he
  · have hnone : Planning.plannedOf askingRun halfAnswered placesBefore thirdServer.1 thirdServer.2
        .earliest .dbinfo = [] := rfl
    rw [hnone] at ho
    cases ho
  · cases hst
  · have hnone : Planning.warningsOf askingRun halfAnswered placesBefore thirdServer.1
        thirdServer.2 .dbinfo = [] := rfl
    rw [hnone] at hw
    cases hw
  · exact he

end Inspection
