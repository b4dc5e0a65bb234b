import Inspection.Proofs.Plan.Profiled
import Mathlib.Data.List.DropRight

/-!
# Plan — what the cluster alone decides

Five of the groups of a plan are lists over the cluster: the records at the beginning and at the
end, the state of every host, the configuration of every healthy instance that has one, and the
cutter of logs.

* `Plan.Lists`: the five lists.  Hosts and instances are gone through in order, and none is left
  out or taken twice.
* `Host.configurations_eq`, `Artifact.logs_eq_ok`: what is run for configurations and logs.
* `unasked_groups`: they are the groups of every plan, and nothing else bears on them: not what
  servers answer, not what other categories are requested or how often, and not more of the cluster
  than is named in `Topology.people` and `Topology.configured`.
-/

namespace Inspection

/-! ### What the lists go by -/

/-- Whether some target of a text names a category. -/
def Target.Names (text : String) (c : Category) : Prop := Target.written text c ≠ []

instance (text : String) (c : Category) : Decidable (Target.Names text c) :=
  inferInstanceAs (Decidable (_ ≠ _))

/-- Whether the configuration of an instance is fetched: it is healthy, and of a service that has
one. -/
def Instance.isConfigured (i : Instance) : Bool :=
  i.status = .success && (i.kind = .tidb || i.kind = .tikv || i.kind = .pd)

namespace Topology

/-- The user and the address of every host. -/
def people (t : Topology) : List (String × String) := t.hosts.map fun h => (h.user, h.ip)

/-- Of every instance whose configuration is fetched: the user and the address of the host, the
service, the main port, and where it is deployed. -/
def configured (t : Topology) : List (String × String × ServiceKind × Option UInt16 × String) :=
  (t.services.filter fun x => x.2.isConfigured).map fun (h, i) =>
    (h.user, h.ip, i.kind, i.port, i.deployDir)

end Topology

/-- The groups of a plan on which no server is asked, as lists over the cluster. -/
structure Plan.Lists (plan : Plan) (t : Topology) (o : Options) (now : Instant) : Prop where
  /-- The arguments, the environment and the topology, in this order. -/
  setup : plan.group .setup =
    [⟨.snapshot "arguments" o.toJson.sorted, .json (Path.join o.inspectionDir "args.json"), none⟩,
      ⟨.environment, .json (Path.join o.inspectionDir "env.json"), none⟩,
      ⟨.snapshot "topology" t.toJson.sorted, .json (Path.join o.inspectionDir "topology.json"),
        none⟩]
  /-- The time of the run, with a hook that stamps its end. -/
  teardown : plan.group .teardown =
    [⟨.held "inspection metadata" (RunRecord.toJson ⟨t.clusterName, now, now, none⟩),
      .json (Path.join o.inspectionDir "meta.json"), some (.stamp "end_time")⟩]
  /-- Five commands on every host, whatever its status and whether anything runs on it. -/
  basic : plan.group .basic =
    if Target.Names o.collect .basic then
      t.hosts.flatMap fun h =>
        [("dmesg.txt", "dmesg"), ("netstat.txt", "netstat -s"), ("vmstat.txt", "vmstat 1 5"),
          ("df.txt", "df -h"), ("meminfo.txt", "cat /proc/meminfo")].map fun (file, command) =>
            ⟨.remote ⟨h.user, h.ip, command⟩,
              .file (Path.join (Path.join (Path.join o.inspectionDir "basic") h.ip) file), none⟩
    else []
  /-- One file for every healthy instance that has one, whether or not it has a port. -/
  config : plan.group .config =
    if Target.Names o.collect .config then
      (t.services.filter fun x => x.2.isConfigured).map fun (h, i) =>
        ⟨.remote ⟨h.user, h.ip,
            "cat " ++ String.ofList (i.deployDir.toList.rdropWhile (· = '/')) ++ "/conf/" ++
              (i.kind.name ++ ".toml")⟩,
          .file (Path.join (Path.join (Path.join o.inspectionDir "config")
            (i.port.elim h.ip fun port => h.ip ++ ":" ++ Text.natural port.toNat))
              (i.kind.name ++ ".toml")), none⟩
    else []
  /-- One program that cuts the logs, for which all that it needs is given. -/
  log : if Target.Names o.collect .log then
      ∃ source program start finish, o.logDir = some source ∧ o.logSpliter = some program ∧
        o.windowBegin = some start ∧ o.windowEnd = some finish ∧ plan.group .log =
          [⟨.program program
              ["--src=" ++ source, "--dst=" ++ Path.join o.inspectionDir "log",
                "--begin=" ++ start.renderOffset, "--end=" ++ finish.renderOffset],
            .discard, none⟩]
    else plan.group .log = []

/-! ### Artifacts one by one -/

/-- The operation that fetches a configuration, by what it goes by. -/
def Plan.fetched (root : String) :
    String × String × ServiceKind × Option UInt16 × String → Operation
  | (user, ip, kind, port, deployDir) =>
    ⟨.remote ⟨user, ip, "cat " ++ String.ofList (deployDir.toList.rdropWhile (· = '/')) ++
        "/conf/" ++ (kind.name ++ ".toml")⟩,
      .file (Path.join (Path.join (Path.join root "config")
        (port.elim ip fun port => ip ++ ":" ++ Text.natural port.toNat)) (kind.name ++ ".toml")),
      none⟩

/-- Every instance gives its configuration, or nothing. -/
theorem Host.configurations_eq (h : Host) (o : Options) (i : Instance) :
    h.configurations o i =
      if i.isConfigured then
        [Plan.fetched o.inspectionDir (h.user, h.ip, i.kind, i.port, i.deployDir)]
      else [] := by
  have haddress : addressOf h.ip i.port =
      i.port.elim h.ip fun port => h.ip ++ ":" ++ Text.natural port.toNat := by
    cases i.port <;> rfl
  rw [configurations, Artifact.configuration?, haddress, Instance.isHealthy,
    Instance.isConfigured]
  cases i.status with
  | exception => rfl
  | success => cases i.kind <;> rfl

theorem flatMap_ite_singleton {α β : Type} (keep : α → Bool) (f : α → β) (xs : List α) :
    (xs.flatMap fun x => if keep x then [f x] else []) = (xs.filter keep).map f := by
  induction xs with
  | nil => rfl
  | cons x xs ih =>
    rw [List.flatMap_cons, ih, List.filter_cons]
    split <;> rfl

/-- The program that cuts logs, where it is given what it needs. -/
theorem Artifact.logs_eq_ok {root : String} {o : Options} {cutter : Operation}
    (h : Artifact.logs root o = .ok cutter) : ∃ source program start finish,
      o.logDir = some source ∧ o.logSpliter = some program ∧ o.windowBegin = some start ∧
      o.windowEnd = some finish ∧ cutter =
        ⟨.program program
            ["--src=" ++ source, "--dst=" ++ Path.join root "log",
              "--begin=" ++ start.renderOffset, "--end=" ++ finish.renderOffset],
          .discard, none⟩ := by
  unfold logs at h
  cases hsource : o.logDir with
  | none => simp [hsource, bind, Except.bind] at h
  | some source =>
    cases hprogram : o.logSpliter with
    | none => simp [hsource, hprogram, bind, Except.bind] at h
    | some program =>
      cases hstart : o.windowBegin with
      | none => simp [hsource, hprogram, hstart, bind, Except.bind] at h
      | some start =>
        cases hfinish : o.windowEnd with
        | none => simp [hsource, hprogram, hstart, hfinish, bind, Except.bind] at h
        | some finish =>
          simp only [hsource, hprogram, hstart, hfinish, bind, Except.bind, Option.elim, pure,
            Except.pure, Except.ok.injEq] at h
          exact ⟨source, program, start, finish, rfl, rfl, rfl, rfl, h.symm⟩

/-! ### The lists of every plan -/

section

variable {t : Topology} {o : Options} {d : Discovery} {now : Instant} {plan : Plan}
  (h : (Plan.build t o d now).outcome = .ok plan)
include h

theorem Options.requests_iff_names (c : Category) :
    o.requests c = true ↔ Target.Names o.collect c := by
  rw [Options.requests_eq_written h, Target.Names]
  cases Target.written o.collect c <;> simp

/-- Requested logs can be cut: the arguments that say how are there. -/
theorem logs_of_requests (hr : o.requests .log = true) :
    ∃ cutter, Artifact.logs o.inspectionDir o = .ok cutter := by
  obtain ⟨st, hs, -⟩ := Planning.settle_of_build_ok h
  obtain ⟨hspec, hv, -⟩ := Planning.settle_eq_ok.mp hs
  rw [Options.requests_eq hspec] at hr
  exact Artifact.logs_of_validate hv hr o.inspectionDir

theorem Plan.lists_of_build : plan.Lists t o now where
  setup := group_setup h
  teardown := group_teardown h
  basic := by
    simp only [group_basic h, Options.requests_iff_names h]
    rfl
  config := by
    simp only [group_config h, Options.requests_iff_names h, Host.configurations_eq]
    rw [flatMap_ite_singleton]
    rfl
  log := by
    split
    next hn =>
      have hr := (Options.requests_iff_names h _).mpr hn
      obtain ⟨cutter, hcutter⟩ := logs_of_requests h hr
      have hgroup : plan.group .log = [cutter] := by
        rw [group_log h, if_pos hr, hcutter]
        rfl
      obtain ⟨source, program, start, finish, hs, hp, hb, hf, rfl⟩ := Artifact.logs_eq_ok hcutter
      exact ⟨source, program, start, finish, hs, hp, hb, hf, hgroup⟩
    next hn => rw [group_log h, if_neg fun hr => hn ((Options.requests_iff_names h _).mp hr)]

end

namespace Plan.Lists

variable {plan plan' : Plan} {t t' : Topology} {o : Options} {text : String} {now : Instant}
  (h : plan.Lists t o now) (h' : plan'.Lists t' { o with collect := text } now)
include h h'

theorem teardown_congr (hn : t'.clusterName = t.clusterName) :
    plan'.group .teardown = plan.group .teardown := by
  rw [h.teardown, h'.teardown, hn]
  rfl

theorem basic_congr (hc : Target.Names text .basic ↔ Target.Names o.collect .basic)
    (hp : t'.people = t.people) : plan'.group .basic = plan.group .basic := by
  rw [h.basic, h'.basic]
  simp only [hc]
  split
  · -- A host is rebuilt from its parts; the others are never looked at.
    let state : String × String → List Operation := fun person =>
      Artifact.hostState o.inspectionDir ⟨person.2, person.1, .success, []⟩
    have hstate : ∀ t : Topology, t.people.flatMap state =
        t.hosts.flatMap (Artifact.hostState o.inspectionDir) := fun t => by
      rw [Topology.people, List.flatMap_map]
      rfl
    exact (hstate t').symm.trans ((congrArg (List.flatMap state) hp).trans (hstate t))
  · rfl

theorem config_congr (hc : Target.Names text .config ↔ Target.Names o.collect .config)
    (hi : t'.configured = t.configured) : plan'.group .config = plan.group .config := by
  rw [h.config, h'.config]
  simp only [hc]
  split
  · have hfetched := congrArg (List.map (Plan.fetched o.inspectionDir)) hi
    rwa [Topology.configured, Topology.configured, List.map_map, List.map_map] at hfetched
  · rfl

theorem log_congr (hc : Target.Names text .log ↔ Target.Names o.collect .log) :
    plan'.group .log = plan.group .log := by
  have hl := h.log
  have hl' := h'.log
  by_cases hn : Target.Names o.collect .log
  · rw [if_pos hn] at hl
    rw [if_pos (hc.mpr hn)] at hl'
    obtain ⟨source, program, start, finish, hs, hp, hb, hf, hg⟩ := hl
    obtain ⟨source', program', start', finish', hs', hp', hb', hf', hg'⟩ := hl'
    cases hs.symm.trans hs'
    cases hp.symm.trans hp'
    cases hb.symm.trans hb'
    cases hf.symm.trans hf'
    exact hg'.trans hg.symm
  · rw [if_neg hn] at hl
    rw [if_neg (hn ∘ hc.mp)] at hl'
    rw [hl, hl']

end Plan.Lists

section

variable {t : Topology} {o : Options} {d : Discovery} {now : Instant} {plan : Plan}
  (h : (Plan.build t o d now).outcome = .ok plan)
include h

/-- **The groups on which no server is asked** are lists over the cluster, whole and in order.  In
another plan at the same time and with the same options but for the targets, of whichever cluster
and with whichever answers, each of them is the same where what it goes by is: the name of the
cluster at the end, people for the state of hosts, configured instances for configurations, and
whether some target names the category, however many do and whatever the others name. -/
theorem unasked_groups : plan.Lists t o now ∧
    ∀ t' d' text plan', (Plan.build t' { o with collect := text } d' now).outcome = .ok plan' →
      plan'.Lists t' { o with collect := text } now ∧
      (t'.clusterName = t.clusterName → plan'.group .teardown = plan.group .teardown) ∧
      ((Target.Names text .basic ↔ Target.Names o.collect .basic) → t'.people = t.people →
        plan'.group .basic = plan.group .basic) ∧
      ((Target.Names text .config ↔ Target.Names o.collect .config) →
        t'.configured = t.configured → plan'.group .config = plan.group .config) ∧
      ((Target.Names text .log ↔ Target.Names o.collect .log) →
        plan'.group .log = plan.group .log) := by
  have hlists := Plan.lists_of_build h
  refine ⟨hlists, fun t' d' text plan' h' => ?_⟩
  have hlists' := Plan.lists_of_build h'
  exact ⟨hlists', hlists.teardown_congr hlists', hlists.basic_congr hlists',
    hlists.config_congr hlists', hlists.log_congr hlists'⟩

end

/-- A run that asks for all that no server is asked for. -/
def listedRun : Options := { unprofiledRun with collect := "basic,config,log" }

/-- The small cluster in a better state, and without the instances that have no configuration. -/
def recoveredCluster : Topology where
  clusterName := smallCluster.clusterName
  status := .exception
  hosts := smallCluster.hosts.map fun h =>
    { h with status := .success, instances := h.instances.filter (·.isConfigured) }

theorem unasked_groups_small :
    ∃ plan plan', (Plan.build smallCluster listedRun halfAnswered .earliest).outcome = .ok plan ∧
      (Plan.build recoveredCluster { listedRun with collect := "log,basic,metric,config,basic" }
        (fun _ => .ok []) .earliest).outcome = .ok plan' ∧
      plan.Lists smallCluster listedRun .earliest ∧ (plan.group .basic).length = 10 ∧
      (plan.group .config).length = 3 ∧ plan'.group .teardown = plan.group .teardown ∧
      plan'.group .basic = plan.group .basic ∧ plan'.group .config = plan.group .config ∧
      plan'.group .log = plan.group .log := by
  obtain ⟨plan, h⟩ : ∃ plan, (Plan.build smallCluster listedRun halfAnswered
    .earliest).outcome = .ok plan := ⟨_, rfl⟩
  obtain ⟨plan', h'⟩ : ∃ plan', (Plan.build recoveredCluster { listedRun with
    collect := "log,basic,metric,config,basic" } (fun _ => .ok []) .earliest).outcome =
      .ok plan' := ⟨_, rfl⟩
  obtain ⟨hlists, hothers⟩ := unasked_groups h
  obtain ⟨-, hteardown, hbasic, hconfig, hlog⟩ := hothers _ _ _ _ h'
  refine ⟨plan, plan', h, h', hlists, ?_, ?_, hteardown rfl, hbasic (by decide) rfl,
    hconfig (by decide) rfl, hlog (by decide)⟩
  · rw [hlists.basic]
    rfl
  · rw [hlists.config]
    rfl

end Inspection
