import Inspection.Proofs.Plan.Profiled
import Inspection.Proofs.Target
import Inspection.Proofs.Text.Decimal

/-!
# Plan — an instance named as it is found

An instance comes to be profiled on two ways: it is named in the targets, by its service, address
and port, or it is found on the walk through the cluster, where profiles are requested and none is
named.  The ways meet in the operations: an instance that is named by what it is found with is
profiled as it is on the walk.

* `ProfileTarget.read_naming`: the text that names an instance is read as its name.
* `build_naming`, `build_profile`: the plans of a run that names an instance, and of one that names
  none.
* `Topology.profiles_of_split`: what is profiled before an instance, at it and behind it.
* `named_as_found`: the operations of an instance that is named are those that it is found with.
-/

namespace Inspection

/-! ### The text that names an instance -/

/-- The text of an address that is kept together in a target. -/
def IsWritable (ip : String) : Prop := ',' ∉ ip.toList ∧ ':' ∉ ip.toList

instance (ip : String) : Decidable (IsWritable ip) := inferInstanceAs (Decidable (_ ∧ _))

namespace ProfileTarget

/-- The target that names an instance. -/
def naming (p : ProfileTarget) : Target :=
  (.profile, .parts [p.kind.name, p.ip, Text.natural p.port.toNat])

section

variable (p : ProfileTarget)

theorem render_naming : p.naming.render =
    "profile:" ++ p.kind.name ++ ":" ++ p.ip ++ ":" ++ Text.natural p.port.toNat := by
  apply String.toList_injective
  simp [naming, Target.render, Qualifier.segments, Category.name]

/-- The text of a target begins with a letter and ends with a digit. -/
theorem trim_naming : Text.trim p.naming.render = p.naming.render := by
  rw [render_naming]
  refine Text.trim_of_noBlank (fun c hc => ?_) fun c hc => ?_
  · simp only [String.toList_append, List.append_assoc] at hc
    cases hc
    decide
  · obtain ⟨digits, d, hd⟩ :=
      (List.eq_nil_or_concat (Nat.toDigits 10 p.port.toNat)).resolve_left (Text.toDigits_ne_nil _)
    have hdigit : d.isDigit = true := by
      refine Nat.isDigit_of_mem_toDigits (by decide) (by decide) (n := p.port.toNat) (b := 10) ?_
      simp [hd]
    rw [String.toList_append, Text.toList_natural, hd, List.concat_eq_append, ← List.append_assoc,
      List.getLast?_concat] at hc
    cases hc
    exact Text.isBlank_of_isDigit hdigit

end

variable {p : ProfileTarget} (writable : IsWritable p.ip)
  (profiled : Planning.isProfiled p.kind = true)
include profiled

theorem notMem_name : ',' ∉ p.kind.name.toList ∧ ':' ∉ p.kind.name.toList ∧
    ServiceKind.ofName? p.kind.name = some p.kind := by
  cases hk : p.kind <;> first | decide | (rw [hk] at profiled; cases profiled)

/-- The segments that name an instance are read as its name. -/
theorem read_segments :
    read [p.kind.name, p.ip, Text.natural p.port.toNat] = .ok p := by
  have hport : Text.unsigned? (UInt16.size - 1) (Text.natural p.port.toNat).toList =
      some p.port.toNat := Text.unsigned?_natural (Nat.le_pred_of_lt p.port.toNat_lt)
  simp only [read, (notMem_name profiled).2.2, hport, UInt16.ofNat_toNat]

include writable

/-- **The text that names an instance** is read as its name, and as nothing else. -/
theorem read_naming : TargetSpec.read p.naming.render = .ok (.ofTargets [p.naming]) := by
  obtain ⟨hcomma, hcolon, -⟩ := notMem_name profiled
  refine TargetSpec.read_eq_ok.mpr ⟨[p.naming], ?_, fun t ht => ?_, rfl⟩
  · have hkept : ∀ token ∈ [p.naming.render],
        ',' ∉ token.toList ∧ Text.trim token = token ∧ token ≠ "" := by
      intro token ht
      rw [List.mem_singleton.mp ht]
      refine ⟨?_, trim_naming p, ?_⟩
      · rw [render_naming]
        simp [hcomma, writable.1, Text.notMem_natural]
      · rw [render_naming]
        simp
    have htokens := Target.tokens_intercalate hkept
    rwa [String.intercalate_singleton] at htokens
  · rw [List.mem_singleton.mp ht]
    refine ⟨by simp, fun segment hs => ?_⟩
    simp only [List.mem_cons, List.not_mem_nil, or_false] at hs
    rcases hs with rfl | rfl | rfl
    · exact hcolon
    · exact writable.2
    · exact Text.notMem_natural rfl _

end ProfileTarget

/-! ### The two plans -/

namespace Planning

variable {o : Options} {targets : List Target}
  (hread : TargetSpec.read o.collect = .ok (.ofTargets targets))
  (honly : ∀ t ∈ targets, t.1 = .profile)
include hread honly

/-- Where profiles alone are requested, no argument is missing and there is no window. -/
theorem settle_profiles {endpoint : Option ProfileTarget}
    (hnamed : endpointOf (.ofTargets targets) = .ok endpoint) :
    settle o = .ok ⟨.ofTargets targets, none, endpoint⟩ := by
  have hno : ∀ c : Category, c ≠ .profile → (TargetSpec.ofTargets targets).contains c = false := by
    intro c hc
    rw [Bool.eq_false_iff]
    intro h
    obtain ⟨t, ht, rfl⟩ := TargetSpec.contains_ofTargets.mp h
    exact hc (honly t ht)
  refine settle_eq_ok.mpr ⟨hread, ?_, ?_, hnamed⟩
  · simp only [TargetSpec.validate, hno .metric (by decide), hno .log (by decide)]
    rfl
  · simp only [windowBy, hno .metric (by decide)]
    rfl

end Planning

section

variable (t : Topology) {o : Options} (d : Discovery) (now : Instant)

/-- A run that names an instance profiles that one. -/
theorem build_naming {p : ProfileTarget} (writable : IsWritable p.ip)
    (profiled : Planning.isProfiled p.kind = true) (hc : o.collect = p.naming.render) :
    ∃ plan, (Plan.build t o d now).outcome = .ok plan ∧
      Profile.operations? o.inspectionDir p.kind (Planning.userOf t p.ip) p.ip p.port o =
        some (plan.group .profile) := by
  have hnamed : Planning.endpointOf (.ofTargets [p.naming]) = .ok (some p) := by
    have hchoice : (TargetSpec.ofTargets [p.naming]).choice? .profile = some p.naming.2 := rfl
    rw [Planning.endpointOf, hchoice]
    simp only [ProfileTarget.naming, ProfileTarget.read_segments profiled, bind, Except.bind,
      profiled, if_true]
    rfl
  have hread : TargetSpec.read o.collect = .ok (.ofTargets [p.naming]) :=
    hc ▸ ProfileTarget.read_naming writable profiled
  have hs := Planning.settle_profiles hread (by simp [ProfileTarget.naming]) hnamed
  have h := congrArg Planning.outcome (Planning.build_of_settle_ok hs t d now)
  obtain ⟨st, hst, hg⟩ := group_profile h
  obtain rfl := Except.ok.inj (hs.symm.trans hst)
  obtain ⟨os, hos⟩ := Planning.operations?_of_isProfiled profiled o.inspectionDir
    (Planning.userOf t p.ip) p.ip p.port o
  refine ⟨_, h, ?_⟩
  rw [hg]
  simp only [Planning.namedOperations, hos, Option.getD_some]

/-- A run that names no instance profiles all that it finds. -/
theorem build_profile (o : Options) :
    ∃ plan, (Plan.build t { o with collect := "profile" } d now).outcome = .ok plan ∧
      plan.group .profile = t.services.flatMap fun (h, i) => h.profiles o i := by
  have hread : TargetSpec.read "profile" = .ok (.ofTargets [(.profile, .flag)]) := rfl
  have hnone : Planning.endpointOf (.ofTargets [(.profile, .flag)]) = .ok none := rfl
  have hs := Planning.settle_profiles (o := { o with collect := "profile" }) hread (by simp) hnone
  have h := congrArg Planning.outcome (Planning.build_of_settle_ok hs t d now)
  have hbare : ∀ segments ∈ Target.written "profile" .profile, segments = [] := by decide
  refine ⟨_, h, (group_profile_of_bare h hbare).trans (if_pos ?_)⟩
  exact Options.requests_eq (o := { o with collect := "profile" }) hread .profile

end

/-! ### Before an instance, at it and behind it -/

section

variable {t : Topology} {hs hs' : List Host} {h : Host} {is is' : List Instance} {i : Instance}
  (hosts : t.hosts = hs ++ h :: hs')
include hosts

theorem Planning.userOf_first (first : ∀ g ∈ hs, g.ip ≠ h.ip) :
    Planning.userOf t h.ip = h.user := by
  have hnone : hs.find? (fun g => decide (g.ip = h.ip)) = none :=
    List.find?_eq_none.mpr fun g hg => by simpa using first g hg
  rw [Planning.userOf, hosts, List.find?_append, hnone, Option.none_or,
    List.find?_cons_of_pos (by simp)]
  rfl

/-- What is found before an instance, at it and behind it. -/
theorem Topology.profiles_of_split (instances : h.instances = is ++ i :: is') (o : Options) :
    t.services.flatMap (fun (h, i) => h.profiles o i) =
      ({ t with hosts := hs ++ [{ h with instances := is }] } : Topology).services.flatMap
          (fun (h, i) => h.profiles o i) ++
        h.profiles o i ++
        ({ t with hosts := { h with instances := is' } :: hs' } : Topology).services.flatMap
          (fun (h, i) => h.profiles o i) := by
  simp only [services, hosts, List.flatMap_append, List.flatMap_cons, List.flatMap_nil,
    List.append_nil, instances, List.map_append, List.map_cons, List.flatMap_map,
    List.append_assoc]
  rfl

end

theorem Instance.profilePort?_eq {i : Instance} (healthy : i.isHealthy = true)
    (profiled : Planning.isProfiled i.kind = true) :
    i.profilePort? = i.statusAddressPort? := by
  rw [profilePort?, if_pos healthy, statusAddressPort?]
  cases hk : i.kind <;> first | rfl | (rw [hk] at profiled; cases profiled)

/-- **An instance named as it is found.**  A healthy TiDB, TiKV or PD server with a port is named by
its service, the address of its host and the port at which it is profiled.  If the host is the
first one with its address, then the run that names the instance has a plan, and profiles just
that: the very operations that a run without any name has between those for what comes before the
instance in the cluster and those for what comes behind it. -/
theorem named_as_found {t : Topology} {hs hs' : List Host} {h : Host} {is is' : List Instance}
    {i : Instance} {port : UInt16} (hosts : t.hosts = hs ++ h :: hs')
    (first : ∀ g ∈ hs, g.ip ≠ h.ip) (instances : h.instances = is ++ i :: is')
    (writable : ',' ∉ h.ip.toList ∧ ':' ∉ h.ip.toList) (healthy : i.isHealthy = true)
    (kind : i.kind = .tidb ∨ i.kind = .tikv ∨ i.kind = .pd)
    (usable : i.statusAddressPort? = some port) (o : Options) (d : Discovery) (now : Instant) :
    ∃ named found before behind : Plan,
      (Plan.build t { o with collect :=
        "profile:" ++ i.kind.name ++ ":" ++ h.ip ++ ":" ++ Text.natural port.toNat } d
          now).outcome = .ok named ∧
      (Plan.build t { o with collect := "profile" } d now).outcome = .ok found ∧
      (Plan.build { t with hosts := hs ++ [{ h with instances := is }] }
        { o with collect := "profile" } d now).outcome = .ok before ∧
      (Plan.build { t with hosts := { h with instances := is' } :: hs' }
        { o with collect := "profile" } d now).outcome = .ok behind ∧
      Profile.operations? o.inspectionDir i.kind h.user h.ip port o =
        some (named.group .profile) ∧
      found.group .profile =
        before.group .profile ++ named.group .profile ++ behind.group .profile := by
  have profiled : Planning.isProfiled i.kind = true := by
    rcases kind with hk | hk | hk <;> rw [hk] <;> rfl
  have hport : i.profilePort? = some port := (Instance.profilePort?_eq healthy profiled).trans usable
  obtain ⟨named, hnamed, hos⟩ := build_naming t (p := ⟨i.kind, h.ip, port⟩)
    (o := { o with collect := _ }) d now writable profiled
    (ProfileTarget.render_naming ⟨i.kind, h.ip, port⟩).symm
  rw [Planning.userOf_first hosts first] at hos
  have hos' : Profile.operations? o.inspectionDir i.kind h.user h.ip port o =
    some (named.group .profile) := hos
  obtain ⟨found, hfound, hgroup⟩ := build_profile t d now o
  obtain ⟨before, hbefore, hgroup'⟩ := build_profile
    { t with hosts := hs ++ [{ h with instances := is }] } d now o
  obtain ⟨behind, hbehind, hgroup''⟩ := build_profile
    { t with hosts := { h with instances := is' } :: hs' } d now o
  have hmiddle : h.profiles o i = named.group .profile := by
    rw [Host.profiles, hport, Option.elim_some, hos', Option.getD_some]
  refine ⟨named, found, before, behind, hnamed, hfound, hbefore, hbehind, hos', ?_⟩
  rw [hgroup, hgroup', hgroup'', Topology.profiles_of_split hosts instances o, hmiddle]

/-- A host with several servers, and blanks around its address. -/
def storeHost : Host :=
  ⟨" store 2 ", "deploy", .exception, [⟨.tikv, .exception, "/tikv", some 20160, none⟩,
    ⟨.tikv, .success, "/tikv", some 20161, some 20181⟩,
    ⟨.tidb, .success, "/tidb", some 4000, some 10080⟩]⟩

/-- A cluster in which that host shares its address with one behind it. -/
def sharedAddress : Topology where
  clusterName := "shared"
  status := .success
  hosts := [⟨"10.0.0.1", "root", .success, [⟨.pd, .success, "/pd", none, some 2379⟩]⟩, storeHost,
    { storeHost with user := "root" }]

/-- The recording at the second server on the first host with its address. -/
theorem named_as_found_second :
    ∃ named found before behind : Plan,
      (Plan.build sharedAddress { unprofiledRun with
        collect := "profile:tikv: store 2 :20161" } halfAnswered .earliest).outcome = .ok named ∧
      (Plan.build sharedAddress { unprofiledRun with
        collect := "profile" } halfAnswered .earliest).outcome = .ok found ∧
      named.group .profile = [Profile.recorded unprofiledRun.inspectionDir "deploy" " store 2 "
        20161 unprofiledRun] ∧
      before.group .profile = ProfileKind.all.map
        (Profile.served unprofiledRun.inspectionDir .pd "10.0.0.1" 2379 unprofiledRun) ∧
      found.group .profile =
        before.group .profile ++ named.group .profile ++ behind.group .profile := by
  have hosts : sharedAddress.hosts =
    [⟨"10.0.0.1", "root", .success, [⟨.pd, .success, "/pd", none, some 2379⟩]⟩] ++
      storeHost :: [{ storeHost with user := "root" }] := rfl
  have instances : storeHost.instances =
    [⟨.tikv, .exception, "/tikv", some 20160, none⟩] ++
      ⟨.tikv, .success, "/tikv", some 20161, some 20181⟩ ::
        [⟨.tidb, .success, "/tidb", some 4000, some 10080⟩] := rfl
  obtain ⟨named, found, before, behind, hnamed, hfound, hbefore, -, hos, hgroup⟩ :=
    named_as_found hosts (by decide) instances (by decide) rfl (.inr (.inl rfl)) rfl unprofiledRun
      halfAnswered .earliest
  refine ⟨named, found, before, behind, hnamed, hfound, (Option.some.inj hos).symm, ?_, hgroup⟩
  cases hbefore
  rfl

end Inspection
