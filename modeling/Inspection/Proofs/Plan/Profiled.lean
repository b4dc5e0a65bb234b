import Inspection.Proofs.Plan.Gathered

/-!
# Plan — what is profiled

Targets of profiles either name an instance or name none.  The first that says anything decides:
then that instance is profiled, whatever the cluster is like, and nothing else.  Where all of them
are bare, every healthy instance of a service that can be profiled is, at its port.

* `Profile.operations?_eq`, `Profile.outlasts_sampling`: what is taken of an instance, and that its
  requests may take longer than the sampling.
* `profiled_instances`: the operations that profile, in each of the cases, and that targets of
  profiles bear on no other group.
-/

namespace Inspection

/-! ### Targets as they are written -/

namespace Target

/-- What stands behind the name of a category in the text of a target that names it. -/
def behind? (c : Category) (token : String) : Option (List String) :=
  match Text.pieces ':' token with
  | [] => none
  | name :: segments => if name = c.name then some segments else none

/-- What stands behind the name of a category in the targets of a text that name it, in the order
written.  Nothing stands behind a bare name. -/
def written (text : String) (c : Category) : List (List String) :=
  (tokens text).filterMap (behind? c)

/-- A target is read as the qualifier behind the name of its category, and of no other. -/
theorem behind?_of_read {token : String} {target : Target} (h : read token = .ok target)
    (c : Category) :
    (behind? c token).map Qualifier.ofSegments = if target.1 = c then some target.2 else none := by
  unfold read at h
  unfold behind?
  cases hp : Text.pieces ':' token with
  | nil =>
    simp only [hp] at h
    cases h
  | cons name segments =>
    simp only [hp] at h
    cases hd : Category.ofName? name with
    | none =>
      simp only [hd] at h
      cases h
    | some d =>
      simp only [hd] at h
      cases h
      rw [← Category.name_of_ofName? hd]
      by_cases hc : d = c
      · simp [hc]
      · have hn : d.name ≠ c.name := fun hn => hc (Category.name_injective hn)
        simp [hc, hn]

theorem qualifiers_of_mapM (c : Category) : ∀ {tokens : List String} {targets : List Target},
    tokens.mapM read = .ok targets → (TargetSpec.ofTargets targets).qualifiers c =
      (tokens.filterMap (behind? c)).map Qualifier.ofSegments
  | [], targets, h => by
    cases h
    rfl
  | token :: tokens, targets, h => by
    rw [List.mapM_cons] at h
    obtain ⟨target, ht, h⟩ := Check.bind_eq_ok.mp h
    obtain ⟨rest, hr, h⟩ := Check.bind_eq_ok.mp h
    obtain rfl := Check.pure_eq_ok.mp h
    have ih := qualifiers_of_mapM c hr
    rw [TargetSpec.qualifiers_ofTargets, List.map_filterMap] at ih ⊢
    rw [List.filterMap_cons, List.filterMap_cons, behind?_of_read ht c, ih]

end Target

namespace TargetSpec

variable {text : String} {spec : TargetSpec} (h : TargetSpec.read text = .ok spec)
include h

/-- The qualifiers of a category are read off its targets, one by one. -/
theorem qualifiers_eq_written (c : Category) :
    spec.qualifiers c = (Target.written text c).map Qualifier.ofSegments := by
  obtain ⟨targets, ht, rfl⟩ := Check.map_eq_ok.mp h
  exact Target.qualifiers_of_mapM c ht

/-- The first target that says anything is the one that counts. -/
theorem choice?_eq_written (c : Category) : spec.choice? c =
    ((Target.written text c).find? (!·.isEmpty)).map Qualifier.ofSegments := by
  have hflag : ((!Qualifier.isFlag ·) ∘ Qualifier.ofSegments) = (!List.isEmpty ·) := by
    funext segments
    match segments with
    | [] | [_] | _ :: _ :: _ => rfl
  rw [choice?, qualifiers_eq_written h, List.find?_map, hflag]

end TargetSpec

/-! ### What is taken of an instance -/

namespace Profile

/-- **What is taken of an instance.**  A TiDB or a PD server is asked for each of its eight profiles
by the path of that, into a file of its own; for two of them it samples as long as the options say.
Of a TiKV server, what its process does is recorded on the host.  Of others, nothing is taken. -/
theorem operations?_eq (root : String) (kind : ServiceKind) (user ip : String) (port : UInt16)
    (o : Options) : operations? root kind user ip port o =
      match kind with
      | .tidb | .pd => some ([
          ("cpu", "/debug/pprof/profile", true, "cpu.pb.gz"),
          ("mem", "/debug/pprof/heap", false, "mem.pb.gz"),
          ("block", "/debug/pprof/block", false, "block.pb.gz"),
          ("allocs", "/debug/pprof/allocs", false, "allocs.pb.gz"),
          ("goroutine", "/debug/pprof/goroutine", false, "goroutine.pb.gz"),
          ("mutex", "/debug/pprof/mutex", false, "mutex.pb.gz"),
          ("threadcreate", "/debug/pprof/threadcreate", false, "threadcreate.pb.gz"),
          ("trace", "/debug/pprof/trace", true, "trace.out")].map
            fun (name, path, sampled, file) => {
              collector := .http {
                name, address := ip ++ ":" ++ Text.natural port.toNat, path
                params := if sampled then [("seconds", Text.natural o.profileSeconds.toNat)] else []
                timeout := some
                  (if sampled then o.profileTimeout else o.httpTimeout.toNat) }
              sink := .file (Path.join (Path.join (Path.join (Path.join root "profile") kind.name)
                (ip ++ ":" ++ Text.natural port.toNat)) file)
              hook := none })
      | .tikv =>
        let file := "/tmp/diagpilot_perf_" ++ Text.natural port.toNat ++ ".data"
        some [{
          collector := .remote ⟨user, ip, "perf record -F 99 -g -p $(/usr/sbin/lsof -tiTCP:" ++
            Text.natural port.toNat ++ " -sTCP:LISTEN -P -n) -o " ++ file ++ " -- sleep " ++
            Text.natural o.profileSeconds.toNat ++ " >/dev/null 2>&1 && cat " ++ file ++
            " && rm -f " ++ file⟩
          sink := .file (Path.join (Path.join (Path.join (Path.join root "profile") "tikv")
            (ip ++ ":" ++ Text.natural port.toNat)) "perf.data")
          hook := none }]
      | _ => none := by
  cases kind <;> rfl

/-- **A request that samples** may take longer than the sampling, unless there is no such number of
seconds. -/
theorem outlasts_sampling {root user ip : String} {kind : ServiceKind} {port : UInt16} {o : Options}
    {os : List Operation} (h : operations? root kind user ip port o = some os)
    (hseconds : o.profileSeconds.toNat < Options.largestSeconds) {operation : Operation}
    (hm : operation ∈ os) {request : Request} (hc : operation.collector = .http request)
    {seconds : String} (hs : ("seconds", seconds) ∈ request.params) :
    seconds = Text.natural o.profileSeconds.toNat ∧
      ∃ limit, request.timeout = some limit ∧ o.profileSeconds.toNat < limit := by
  have hlimit : o.profileSeconds.toNat < o.profileTimeout := by
    unfold Options.profileTimeout Options.profileGrace
    omega
  have hserved : ∀ profile : ProfileKind, operation = served root kind ip port o profile →
      seconds = Text.natural o.profileSeconds.toNat ∧
        ∃ limit, request.timeout = some limit ∧ o.profileSeconds.toNat < limit := by
    rintro profile rfl
    cases hc
    by_cases hp : profile.isSampled
    · simp only [hp, if_true, List.mem_singleton, Prod.mk.injEq, true_and] at hs ⊢
      exact ⟨hs, _, rfl, hlimit⟩
    · simp [hp] at hs
  cases kind with
  | tidb | pd =>
    obtain rfl := Option.some.inj h
    obtain ⟨profile, -, rfl⟩ := List.mem_map.mp hm
    exact hserved profile rfl
  | tikv =>
    obtain rfl := Option.some.inj h
    obtain rfl := List.mem_singleton.mp hm
    cases hc
  | _ => cases h

end Profile

/-! ### The instance that is named -/

theorem ProfileTarget.read_eq_ok {segments : List String} {target : ProfileTarget}
    (h : ProfileTarget.read segments = .ok target) :
    ∃ service port number, segments = [service, target.ip, port] ∧
      ServiceKind.ofName? service = some target.kind ∧
      Text.unsigned? (UInt16.size - 1) port.toList = some number ∧
      target.port = UInt16.ofNat number := by
  unfold read at h
  split at h
  next service ip port =>
    split at h
    · cases h
    next kind hk =>
      split at h
      · cases h
      next number hn =>
        cases h
        exact ⟨service, port, number, rfl, hk, hn, rfl⟩
  · cases h

namespace Planning

variable {o : Options} {st : Settled} (hs : settle o = .ok st)
include hs

/-- Where no target says anything, no instance is named. -/
theorem endpoint_of_bare (hw : (Target.written o.collect .profile).find? (!·.isEmpty) = none) :
    st.endpoint = none := by
  obtain ⟨hr, -, -, he⟩ := settle_eq_ok.mp hs
  rw [endpointOf, TargetSpec.choice?_eq_written hr, hw] at he
  exact (Except.ok.inj he).symm

/-- The first target that says anything names an instance of a service that is profiled. -/
theorem endpoint_of_written {segments : List String}
    (hw : (Target.written o.collect .profile).find? (!·.isEmpty) = some segments) :
    ∃ target, st.endpoint = some target ∧ ProfileTarget.read segments = .ok target ∧
      isProfiled target.kind = true := by
  obtain ⟨hr, -, -, he⟩ := settle_eq_ok.mp hs
  rw [endpointOf, TargetSpec.choice?_eq_written hr, hw, Option.map_some] at he
  match segments with
  | [] => cases List.find?_some hw
  | [text] => cases he
  | service :: ip :: rest =>
    obtain ⟨target, ht, he⟩ := Check.bind_eq_ok.mp he
    split at he
    next hp => exact ⟨target, (Check.pure_eq_ok.mp he).symm, ht, hp⟩
    · cases he

end Planning

/-! ### What is profiled -/

section

variable {t : Topology} {o : Options} {d : Discovery} {now : Instant} {plan : Plan}
  (h : (Plan.build t o d now).outcome = .ok plan)
include h

theorem Options.requests_eq_written (c : Category) :
    o.requests c = !(Target.written o.collect c).isEmpty := by
  obtain ⟨st, hs, -⟩ := Planning.settle_of_build_ok h
  have hr := (Planning.settle_eq_ok.mp hs).1
  rw [Options.requests_eq hr, TargetSpec.contains, TargetSpec.qualifiers_eq_written hr,
    List.isEmpty_map]

/-- Where an instance is named, it is profiled and nothing else. -/
theorem group_profile_of_named {segments : List String}
    (hw : (Target.written o.collect .profile).find? (!·.isEmpty) = some segments) :
    ∃ service ip port kind number, segments = [service, ip, port] ∧
      ServiceKind.ofName? service = some kind ∧
      Text.unsigned? (UInt16.size - 1) port.toList = some number ∧
      Profile.operations? o.inspectionDir kind (Planning.userOf t ip) ip (UInt16.ofNat number) o =
        some (plan.group .profile) := by
  obtain ⟨st, hs, hg⟩ := group_profile h
  obtain ⟨target, he, ht, hp⟩ := Planning.endpoint_of_written hs hw
  obtain ⟨service, port, number, hseg, hk, hn, hport⟩ := ProfileTarget.read_eq_ok ht
  obtain ⟨os, hos⟩ := Planning.operations?_of_isProfiled hp o.inspectionDir
    (Planning.userOf t target.ip) target.ip target.port o
  refine ⟨service, target.ip, port, target.kind, number, hseg, hk, hn, ?_⟩
  rw [hg, he, ← hport]
  simp only [Planning.namedOperations, hos, Option.getD_some]

/-- Where all targets are bare, every instance is profiled that can be. -/
theorem group_profile_of_bare
    (hw : ∀ segments ∈ Target.written o.collect .profile, segments = []) :
    plan.group .profile =
      if o.requests .profile then t.services.flatMap fun (h, i) => h.profiles o i else [] := by
  obtain ⟨st, hs, hg⟩ := group_profile h
  have hbare : (Target.written o.collect .profile).find? (!·.isEmpty) = none := by
    rw [List.find?_eq_none]
    intro segments hm
    simp [hw segments hm]
  rw [hg, Planning.endpoint_of_bare hs hbare]

/-- Targets of profiles do not bear on the servers that are asked, or on what comes of it. -/
theorem group_dbinfo_congr {text : String} {plan' : Plan}
    (hw : Target.written text .dbinfo = Target.written o.collect .dbinfo)
    (h' : (Plan.build t { o with collect := text } d now).outcome = .ok plan') :
    plan'.group .dbinfo = plan.group .dbinfo := by
  have hr : Options.requests { o with collect := text } .dbinfo = o.requests .dbinfo := by
    rw [Options.requests_eq_written h, Options.requests_eq_written h', hw]
  rw [group_dbinfo h, group_dbinfo h', Planning.askedForDatabases, Planning.askedForDatabases, hr]
  rfl

theorem group_metric_congr {text : String} {plan' : Plan}
    (hw : Target.written text .metric = Target.written o.collect .metric)
    (h' : (Plan.build t { o with collect := text } d now).outcome = .ok plan') :
    plan'.group .metric = plan.group .metric := by
  have hr : Options.requests { o with collect := text } .metric = o.requests .metric := by
    rw [Options.requests_eq_written h, Options.requests_eq_written h', hw]
  have hasked : Planning.askedForMetrics t { o with collect := text } =
      Planning.askedForMetrics t o := by
    rw [Planning.askedForMetrics, Planning.askedForMetrics, hr]
  cases ha : Planning.askedForMetrics t o with
  | none => rw [group_metric_eq_nil h ha, group_metric_eq_nil h' (hasked.trans ha)]
  | some address =>
    obtain ⟨spec, w, hspec, hwin, hg⟩ := group_metric h ha
    obtain ⟨spec', w', hspec', hwin', hg'⟩ := group_metric h' (hasked.trans ha)
    -- The same targets of metrics give the same window.
    have hwindow : w' = w := by
      rw [TargetSpec.choice?_eq_written hspec] at hwin
      rw [TargetSpec.choice?_eq_written hspec', hw] at hwin'
      exact Except.ok.inj (hwin'.symm.trans hwin)
    rw [hg, hg', hwindow]
    rfl

/-- What targets of profiles say shows in no group but that of profiles, but for the record of the
arguments. -/
theorem group_congr_of_written {text : String} {plan' : Plan}
    (hw : ∀ c, c ≠ .profile → Target.written text c = Target.written o.collect c)
    (h' : (Plan.build t { o with collect := text } d now).outcome = .ok plan') {c : Category}
    (hc : c ≠ .profile) (hc' : c ≠ .setup) : plan'.group c = plan.group c := by
  have hr : Options.requests { o with collect := text } c = o.requests c := by
    rw [Options.requests_eq_written h, Options.requests_eq_written h', hw c hc]
  cases c with
  | setup => exact absurd rfl hc'
  | basic => rw [group_basic h, group_basic h', hr]; rfl
  | profile => exact absurd rfl hc
  | metric => exact group_metric_congr h (hw _ hc) h'
  | config => rw [group_config h, group_config h', hr]; rfl
  | dbinfo => exact group_dbinfo_congr h (hw _ hc) h'
  | log => rw [group_log h, group_log h', hr]; rfl
  | teardown => rw [group_teardown h, group_teardown h']; rfl

/-- **What is profiled.**  Without targets of profiles, nothing.  Where some target names an
instance, the first that does decides: that instance is profiled, as the user of the first host
with its address, and nothing else.  Where all targets are bare, every healthy TiDB, TiKV and PD
server that has a port is profiled, once and in order.  Whatever the targets of profiles say, the
other groups are the same, but for the text of the targets in the record of the arguments. -/
theorem profiled_instances :
    (Target.written o.collect .profile = [] → plan.group .profile = []) ∧
    (∀ segments, (Target.written o.collect .profile).find? (!·.isEmpty) = some segments →
      ∃ service ip port kind number, segments = [service, ip, port] ∧
        ServiceKind.ofName? service = some kind ∧
        Text.unsigned? (UInt16.size - 1) port.toList = some number ∧
        Profile.operations? o.inspectionDir kind
          (((t.hosts.find? (·.ip = ip)).map (·.user)).getD "") ip (UInt16.ofNat number) o =
            some (plan.group .profile)) ∧
    (Target.written o.collect .profile ≠ [] →
      (∀ segments ∈ Target.written o.collect .profile, segments = []) →
      plan.group .profile = t.services.flatMap fun (h, i) => h.profiles o i) ∧
    ∀ text plan', (∀ c, c ≠ .profile → Target.written text c = Target.written o.collect c) →
      (Plan.build t { o with collect := text } d now).outcome = .ok plan' →
      (∀ c, c ≠ .profile → c ≠ .setup → plan'.group c = plan.group c) ∧
      plan'.group .setup =
        Record.snapshot o.inspectionDir "args.json" "arguments"
          { o with collect := text }.toJson :: (plan.group .setup).tail := by
  refine ⟨fun hn => ?_, fun segments hw => group_profile_of_named h hw, fun hne hw => ?_,
    fun text plan' hw h' => ⟨fun c hc hc' => group_congr_of_written h hw h' hc hc', ?_⟩⟩
  · have hbare : ∀ segments ∈ Target.written o.collect .profile, segments = [] := by
      rw [hn]
      intro segments hm
      cases hm
    rw [group_profile_of_bare h hbare, Options.requests_eq_written h, hn]
    rfl
  · have hreq : o.requests .profile = true := by
      rw [Options.requests_eq_written h]
      simpa using hne
    rw [group_profile_of_bare h hw, if_pos hreq]
  · rw [group_setup h, group_setup h']
    rfl

end

/-- A run that names an instance of which the cluster knows nothing, after a bare target and before
one that is no instance at all. -/
def namingRun : Options :=
  { unprofiledRun with collect := "config,profile,profile:tikv:10.0.0.2:20160,profile:nonsense" }

theorem profiled_instances_small :
    ∃ plan plan', (Plan.build smallCluster namingRun halfAnswered .earliest).outcome = .ok plan ∧
      (Target.written namingRun.collect .profile).find? (!·.isEmpty) =
        some ["tikv", "10.0.0.2", "20160"] ∧
      plan.group .profile =
        [Profile.recorded namingRun.inspectionDir "tidb" "10.0.0.2" 20160 namingRun] ∧
      (Plan.build smallCluster { namingRun with collect := "profile,config" } halfAnswered
        .earliest).outcome = .ok plan' ∧
      (plan'.group .profile).length = 16 ∧ plan'.group .config = plan.group .config := by
  obtain ⟨plan, h⟩ : ∃ plan, (Plan.build smallCluster namingRun halfAnswered
    .earliest).outcome = .ok plan := ⟨_, rfl⟩
  obtain ⟨plan', h'⟩ : ∃ plan', (Plan.build smallCluster { namingRun with
    collect := "profile,config" } halfAnswered .earliest).outcome = .ok plan' := ⟨_, rfl⟩
  have hw : (Target.written namingRun.collect .profile).find? (!·.isEmpty) =
      some ["tikv", "10.0.0.2", "20160"] := rfl
  have hsame : ∀ c, c ≠ .profile →
      Target.written "profile,config" c = Target.written namingRun.collect c := by
    intro c hc
    cases c <;> first | exact absurd rfl hc | decide
  refine ⟨plan, plan', h, hw, ?_, h', ?_, ?_⟩
  · obtain ⟨service, ip, port, kind, number, hseg, hk, hn, hos⟩ :=
      (profiled_instances h).2.1 _ hw
    cases hseg
    cases hk
    cases hn
    exact (Option.some.inj hos).symm
  · rw [(profiled_instances h').2.2.1 (by decide) (by decide)]
    rfl
  · exact ((profiled_instances h).2.2.2 _ _ hsame h').1 .config (by decide) (by decide)

end Inspection
