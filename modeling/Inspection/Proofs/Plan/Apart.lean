import Inspection.Proofs.Plan.Confined
import Inspection.Proofs.Plan.Profiled
import Inspection.Proofs.Execution.Isolated
import Inspection.Run

/-!
# Plan — the files of a plan lie apart

Every file of a plan lies below the directory of the run, under names that tell what it is of: an
artifact of a host, a profile of an instance, a metric over a window.  Where hosts and instances are
told apart by their addresses, and servers give no name twice, no two files have the same names, and
none is on the way to another.

* `FilesAt`: the files of some operations, by their names below a directory.
* `filesAt_basic`, `filesAt_profile`, `filesAt_config`, `filesAt_dbinfo`, `filesAt_metric`: the
  files of each group.
* `files_lie_apart`: all of them, and the report.
-/

namespace Inspection

/-! ### Names below a directory -/

namespace Path

/-- The components of a path that leads from a directory on by some names. -/
def behind (root : String) (ns : List String) : List Component := components root ++ ns.map .normal

/-- Of two paths, neither is the other or a directory on the way to it. -/
def SetApart (a b : String) : Prop :=
  ¬components a <+: components b ∧ ¬components b <+: components a

theorem SetApart.symm {a b : String} (h : SetApart a b) : SetApart b a := ⟨h.2, h.1⟩

theorem behind_nil (root : String) : components root = behind root [] := (List.append_nil _).symm

theorem components_join_behind {root path name : String} {ns : List String}
    (h : components path = behind root ns) (hn : IsName name) :
    components (join path name) = behind root (ns ++ [name]) := by
  rw [components_join_name _ hn, h, behind, behind, List.map_append, List.append_assoc]
  rfl

theorem behind_prefix_iff {root : String} {ns ms : List String} :
    behind root ns <+: behind root ms ↔ ns <+: ms := by
  have hinj : Function.Injective Component.normal := fun _ _ => Component.normal.inj
  rw [behind, behind, List.prefix_append_right_inj]
  constructor
  · rintro ⟨rest, hr⟩
    obtain ⟨front, back, rfl, hf, -⟩ := List.map_eq_append_iff.mp hr.symm
    rw [List.map_injective_iff.mpr hinj hf]
    exact List.prefix_append _ _
  · rintro ⟨rest, rfl⟩
    rw [List.map_append]
    exact List.prefix_append _ _

end Path

/-- Names of one length lie apart when they differ. -/
theorem Apart.of_length {ns ms : List String} (hl : ns.length = ms.length) (hne : ns ≠ ms) :
    Apart ns ms :=
  ⟨fun hp => hne (hp.eq_of_length hl), fun hp => hne (hp.eq_of_length hl.symm).symm⟩

/-- Names that begin apart lie apart. -/
theorem Apart.of_head {a b : String} (hne : a ≠ b) (ns ms : List String) :
    Apart (a :: ns) (b :: ms) :=
  ⟨fun hp => hne (List.cons_prefix_cons.mp hp).1,
    fun hp => hne (List.cons_prefix_cons.mp hp).1.symm⟩

/-! ### The files of operations -/

/-- The paths of the files that some operations write. -/
def Operation.paths (os : List Operation) : List String := os.filterMap fun o => o.sink.path?

/-- The files of some operations lie below a directory, under names in this order. -/
def FilesAt (root : String) (os : List Operation) (nss : List (List String)) : Prop :=
  (Operation.paths os).map Path.components = nss.map (Path.behind root)

namespace FilesAt

variable {root : String}

theorem nil (root : String) : FilesAt root [] [] := rfl

theorem append {os more : List Operation} {nss mss : List (List String)}
    (h : FilesAt root os nss) (hm : FilesAt root more mss) :
    FilesAt root (os ++ more) (nss ++ mss) := by
  rw [FilesAt, Operation.paths, List.filterMap_append, List.map_append, List.map_append, ← h, ← hm]
  rfl

theorem flatMap {α : Type} {f : α → List Operation} {g : α → List (List String)} :
    ∀ {xs : List α}, (∀ x ∈ xs, FilesAt root (f x) (g x)) →
      FilesAt root (xs.flatMap f) (xs.flatMap g)
  | [], _ => rfl
  | _ :: _, h => (h _ List.mem_cons_self).append (flatMap (List.forall_mem_cons.mp h).2)

/-- An operation with a file. -/
theorem single {o : Operation} {path : String} {ns : List String} (hp : o.sink.path? = some path)
    (hb : Path.components path = Path.behind root ns) : FilesAt root [o] [ns] := by
  simp [FilesAt, Operation.paths, hp, hb]

/-- An operation without a file. -/
theorem discard {o : Operation} (h : o.sink.path? = none) : FilesAt root [o] [] := by
  simp [FilesAt, Operation.paths, h]

/-- Operations with a file each. -/
theorem map {α : Type} {f : α → Operation} {g : α → List String} :
    ∀ {xs : List α}, (∀ x ∈ xs, FilesAt root [f x] [g x]) → FilesAt root (xs.map f) (xs.map g)
  | [], _ => rfl
  | _ :: _, h => (h _ List.mem_cons_self).append (map (List.forall_mem_cons.mp h).2)

/-- Where the names lie apart, the files do. -/
theorem setApart {os : List Operation} {nss : List (List String)} (h : FilesAt root os nss)
    (ha : nss.Pairwise Apart) : (Operation.paths os).Pairwise Path.SetApart := by
  have hcomponents : ((Operation.paths os).map Path.components).Pairwise
      fun a b => ¬a <+: b ∧ ¬b <+: a := by
    rw [h]
    refine List.pairwise_map.mpr (ha.imp fun hab => ?_)
    rw [Path.behind_prefix_iff, Path.behind_prefix_iff]
    exact hab
  exact (List.pairwise_map (f := Path.components)).mp hcomponents

end FilesAt

/-! ### What tells hosts and instances apart -/

/-- An address that is one name and has no colon in it. -/
structure IsAddress (ip : String) : Prop where
  isName : Path.IsName ip
  free : ':' ∉ ip.toList

instance (ip : String) : Decidable (IsAddress ip) :=
  decidable_of_iff (Path.IsName ip ∧ ':' ∉ ip.toList)
    ⟨fun h => ⟨h.1, h.2⟩, fun h => ⟨h.isName, h.free⟩⟩

/-- Two healthy instances of one service that has a configuration differ in their main port, and are
not profiled at the same port. -/
def Instance.ToldApart (i i' : Instance) : Prop :=
  i.isHealthy = true → i'.isHealthy = true → i.kind = i'.kind →
    Artifact.hasConfiguration i.kind = true →
      i.port ≠ i'.port ∧ (i.profilePort? = i'.profilePort? → i.profilePort? = none)

instance (i i' : Instance) : Decidable (i.ToldApart i') :=
  inferInstanceAs (Decidable (_ → _ → _ → _ → _))

/-- Hosts differ in their addresses, and the instances of a host in their ports. -/
structure Topology.IsDistinct (t : Topology) : Prop where
  addressed : ∀ h ∈ t.hosts, IsAddress h.ip
  hosts : t.hosts.Pairwise fun h h' => h.ip ≠ h'.ip
  instances : ∀ h ∈ t.hosts, h.instances.Pairwise Instance.ToldApart

theorem Instance.isHealthy_of_profilePort? {i : Instance} {port : UInt16}
    (h : i.profilePort? = some port) :
    i.isHealthy = true ∧ Artifact.hasConfiguration i.kind = true := by
  unfold profilePort? at h
  split at h
  next hi =>
    refine ⟨hi, ?_⟩
    split at h
    next hk => rw [hk]; rfl
    next hk => rw [hk]; rfl
    next hk => rw [hk]; rfl
    next => cases h
  next => cases h

theorem ServiceKind.name_injective {k l : ServiceKind} (h : k.name = l.name) : k = l := by
  rw [← named_name k, h, named_name]

namespace IsAddress

variable {ip ip' : String} {port port' : Option UInt16}

theorem split_addressOf (h : IsAddress ip) (port : Option UInt16) :
    Text.split ':' (addressOf ip port).toList =
      ip.toList :: (port.map fun p => (Text.natural p.toNat).toList).toList := by
  cases port with
  | none => exact Text.split_of_notMem h.free
  | some p =>
    have hcolon : ":".toList = [':'] := rfl
    rw [addressOf, String.toList_append, String.toList_append, List.append_assoc, hcolon,
      List.singleton_append, Text.split_append_sep h.free,
      Text.split_of_notMem (Text.notMem_natural rfl _)]
    rfl

/-- An address and a port come apart again. -/
theorem addressOf_injective (h : IsAddress ip) (h' : IsAddress ip')
    (he : addressOf ip port = addressOf ip' port') : ip = ip' ∧ port = port' := by
  have heq := h.split_addressOf port
  rw [he, h'.split_addressOf port'] at heq
  obtain ⟨hip, hport⟩ := List.cons.inj heq
  refine ⟨(String.toList_injective hip).symm, ?_⟩
  cases port with
  | none =>
    cases port' with
    | none => rfl
    | some p' => cases hport
  | some p =>
    cases port' with
    | none => cases hport
    | some p' =>
      have hn := String.toList_injective (List.cons.inj hport).1
      rw [UInt16.toNat_inj.mp (Text.natural_injective hn)]

/-- An address with or without a port is one name. -/
theorem isName_addressOf (h : IsAddress ip) (port : Option UInt16) :
    Path.IsName (addressOf ip port) := by
  cases port with
  | none => exact h.isName
  | some p =>
    -- Neither of the dots has a colon in it.
    have hcolon : ':' ∈ (addressOf ip (some p)).toList := by simp [addressOf]
    have hne : ∀ s : String, ':' ∉ s.toList → addressOf ip (some p) ≠ s := by
      rintro s hs rfl
      exact hs hcolon
    refine ⟨hne "" (by decide), hne "." (by decide), hne ".." (by decide), ?_⟩
    simp [addressOf, h.isName.free, Text.notMem_natural]

end IsAddress

/-- Over all hosts, instances at one address are told apart. -/
theorem Topology.IsDistinct.services {t : Topology} (h : t.IsDistinct) :
    t.services.Pairwise fun x y => x.1.ip = y.1.ip → x.2.ToldApart y.2 := by
  refine List.pairwise_flatMap.mpr ⟨fun host hm => ?_, h.hosts.imp fun hne x hx y hy => ?_⟩
  · refine List.pairwise_map.mpr ((h.instances host hm).imp fun hi => ?_)
    exact fun _ => hi
  · obtain ⟨i, -, rfl⟩ := List.mem_map.mp hx
    obtain ⟨i', -, rfl⟩ := List.mem_map.mp hy
    exact fun he => absurd he hne

/-! ### The files of each group -/

namespace Profile

/-- The files of the profiles of a service. -/
def files : ServiceKind → List String
  | .tidb | .pd => ProfileKind.all.map ProfileKind.fileName
  | .tikv => ["perf.data"]
  | _ => []

/-- The names of the files of the profiles of an instance. -/
def names (kind : ServiceKind) (ip : String) (port : UInt16) : List (List String) :=
  (files kind).map fun file => ["profile", kind.name, addressOf ip (some port), file]

theorem filesAt_operations (root : String) (kind : ServiceKind) (user : String) {ip : String}
    (h : IsAddress ip) (port : UInt16) (o : Options) :
    FilesAt root ((operations? root kind user ip port o).getD []) (names kind ip port) := by
  have hdirectory : ∀ k : ServiceKind, Path.IsName k.name →
      Path.components (directory root k ip port) =
        Path.behind root ["profile", k.name, addressOf ip (some port)] := fun k hk =>
    Path.components_join_behind (Path.components_join_behind
      (Path.components_join_behind (Path.behind_nil root) (by decide)) hk) (h.isName_addressOf _)
  have hserved : ∀ k : ServiceKind, Path.IsName k.name →
      FilesAt root (ProfileKind.all.map (served root k ip port o))
        (ProfileKind.all.map fun p => ["profile", k.name, addressOf ip (some port), p.fileName]) :=
    fun k hk => FilesAt.map fun p _ =>
      FilesAt.single rfl (Path.components_join_behind (hdirectory k hk) (by cases p <;> decide))
  cases kind with
  | tidb => exact hserved .tidb (by decide)
  | pd => exact hserved .pd (by decide)
  | tikv =>
    exact FilesAt.single rfl
      (Path.components_join_behind (hdirectory .tikv (by decide)) (by decide))
  | _ => exact FilesAt.nil root

theorem nodup_names (kind : ServiceKind) (ip : String) (port : UInt16) :
    (names kind ip port).Nodup := by
  have hfiles : (files kind).Nodup := by cases kind <;> decide
  refine hfiles.map fun file file' he => ?_
  simpa using he

theorem eq_of_mem_names {kind kind' : ServiceKind} {ip ip' : String} {port port' : UInt16}
    (h : IsAddress ip) (h' : IsAddress ip') {ns : List String} (hm : ns ∈ names kind ip port)
    (hm' : ns ∈ names kind' ip' port') : kind = kind' ∧ ip = ip' ∧ port = port' := by
  obtain ⟨file, -, rfl⟩ := List.mem_map.mp hm
  obtain ⟨file', -, he⟩ := List.mem_map.mp hm'
  simp only [List.cons.injEq, true_and] at he
  obtain ⟨hip, hport⟩ := h'.addressOf_injective h he.2.1
  exact ⟨(ServiceKind.name_injective he.1).symm, hip.symm, (Option.some.inj hport).symm⟩

end Profile

namespace Artifact

/-- The names of the files of the state of a host. -/
def stateNames (h : Host) : List (List String) :=
  hostCommands.map fun entry => ["basic", h.ip, entry.1]

/-- The names of the file of the configuration of an instance. -/
def configurationNames (ip : String) (i : Instance) : List (List String) :=
  if hasConfiguration i.kind then [["config", addressOf ip i.port, i.kind.name ++ ".toml"]] else []

theorem nodup_stateNames (h : Host) : (stateNames h).Nodup := by
  have hfiles : ∀ a ∈ hostCommands, ∀ b ∈ hostCommands, a.1 = b.1 → a = b := by decide
  have hcommands : hostCommands.Nodup := by decide
  refine hcommands.map_on fun a ha b hb he => hfiles a ha b hb ?_
  simpa using he

theorem nodup_configurationNames (ip : String) (i : Instance) :
    (configurationNames ip i).Nodup := by
  unfold configurationNames
  split <;> simp

theorem mem_configurationNames {ip : String} {i : Instance} {ns : List String} :
    ns ∈ configurationNames ip i ↔ hasConfiguration i.kind = true ∧
      ns = ["config", addressOf ip i.port, i.kind.name ++ ".toml"] := by
  unfold configurationNames
  split <;> simp_all

theorem filesAt_hostState (root : String) {h : Host} (ha : IsAddress h.ip) :
    FilesAt root (hostState root h) (stateNames h) := by
  have hfile : ∀ entry ∈ hostCommands, Path.IsName entry.1 := by decide
  exact FilesAt.map fun entry he => FilesAt.single rfl (Path.components_join_behind
    (Path.components_join_behind (Path.components_join_behind (Path.behind_nil root) (by decide))
      ha.isName) (hfile entry he))

theorem filesAt_configuration (root user : String) {ip : String} (ha : IsAddress ip)
    (i : Instance) :
    FilesAt root (configuration? root user ip i).toList (configurationNames ip i) := by
  unfold configuration? configurationNames
  split
  next =>
    have hfile : Path.IsName (i.kind.name ++ ".toml") := by cases i.kind <;> decide
    exact FilesAt.single rfl (Path.components_join_behind
      (Path.components_join_behind (Path.components_join_behind (Path.behind_nil root) (by decide))
        (ha.isName_addressOf _)) hfile)
  next => exact FilesAt.nil root

theorem filesAt_schemas (root address : String) (timeout : Nat) (names : List String) :
    FilesAt root (schemas root address timeout names)
      ((names.filter isFileName).map fun name => ["dbinfo", name ++ ".json"]) :=
  FilesAt.map fun name hm => FilesAt.single rfl (Path.components_join_behind
    (Path.components_join_behind (Path.behind_nil root) (by decide))
    (Path.isName_append (slash_notMem_of_isFileName (List.mem_filter.mp hm).2) (by decide)
      (by decide)))

theorem filesAt_metricRanges (root address : String) (timeout : Nat) (w : Window)
    {names : List String} (hfree : ∀ name ∈ names, '/' ∉ name.toList) :
    FilesAt root (metricRanges root address timeout w names)
      ((names.filter (· ≠ alertMetric)).map fun name => ["metric", w.fileName name]) := by
  refine FilesAt.map fun name hm => FilesAt.single rfl (Path.components_join_behind
    (Path.components_join_behind (Path.behind_nil root) (by decide)) ?_)
  rw [Window.fileName_eq]
  exact Path.isName_append (hfree name (List.mem_of_mem_filter hm)) w.slash_notMem_fileEnding
    w.length_fileEnding

theorem filesAt_alerts (root address : String) (timeout : Nat) :
    FilesAt root [alerts root address timeout] [["metric", "alert.json"]] :=
  FilesAt.single rfl (Path.components_join_behind
    (Path.components_join_behind (Path.behind_nil root) (by decide)) (by decide))

theorem filesAt_logs (root : String) (o : Options) :
    FilesAt root (logs root o).toOption.toList [] := by
  cases h : logs root o with
  | error e => exact FilesAt.nil root
  | ok operation =>
    refine FilesAt.discard ?_
    simp only [logs, Check.bind_eq_ok, Check.pure_eq_ok] at h
    obtain ⟨_, -, _, -, _, -, _, -, rfl⟩ := h
    rfl

/-- The file of the alerts is that of no metric. -/
theorem fileName_ne_alerts (w : Window) (metric : String) : w.fileName metric ≠ "alert.json" := by
  intro he
  have hend : (metric ++ "_" ++ Text.integer w.start.seconds ++ "_to_" ++
      Text.integer w.finish.seconds ++ "_" ++ Text.natural w.step).toList ++ "s.json".toList =
        "aler".toList ++ "t.json".toList := by
    rw [← String.toList_append]
    exact congrArg String.toList he
  exact absurd (List.append_inj' hend rfl).2 (by decide)

theorem fileName_injective {w : Window} {a b : String} (h : w.fileName a = w.fileName b) :
    a = b := by
  rw [Window.fileName_eq, Window.fileName_eq] at h
  have hl := congrArg String.toList h
  rw [String.toList_append, String.toList_append] at hl
  exact String.toList_injective (List.append_cancel_right hl)

end Artifact

/-- What the names of the files of a category begin with. -/
def Category.tops : Category → List String
  | .setup => ["args.json", "env.json", "topology.json"]
  | .teardown => ["meta.json"]
  | .log => []
  | c => [c.name]

/-- The files of a group lie below the directory of the run, under names that differ, are equally
many, and begin as those of the category do. -/
structure Laid (root : String) (c : Category) (os : List Operation) (nss : List (List String)) :
    Prop where
  files : FilesAt root os nss
  nodup : nss.Nodup
  level : ∃ n, ∀ ns ∈ nss, ns.length = n
  top : ∀ ns ∈ nss, ∃ first ∈ c.tops, ns.head? = some first

theorem Laid.pairwise {root : String} {c : Category} {os : List Operation}
    {nss : List (List String)} (h : Laid root c os nss) : nss.Pairwise Apart := by
  obtain ⟨n, hn⟩ := h.level
  refine List.Pairwise.imp_of_mem (fun hx hy hne => ?_) h.nodup
  exact Apart.of_length ((hn _ hx).trans (hn _ hy).symm) hne

theorem Laid.begins {root : String} {c : Category} {os : List Operation}
    {nss : List (List String)} (h : Laid root c os nss) {ns : List String} (hm : ns ∈ nss) :
    ∃ first rest, ns = first :: rest ∧ first ∈ c.tops := by
  obtain ⟨first, hf, hh⟩ := h.top ns hm
  obtain ⟨rest, rfl⟩ := List.head?_eq_some_iff.mp hh
  exact ⟨first, rest, rfl, hf⟩

theorem Laid.nothing (root : String) (c : Category) : Laid root c [] [] :=
  ⟨rfl, .nil, ⟨0, by simp⟩, by simp⟩

/-- Names that all begin with the same, and are equally many. -/
theorem Laid.of_shape (first : String) {root : String} {c : Category} {os : List Operation}
    {nss : List (List String)} (files : FilesAt root os nss) (nodup : nss.Nodup)
    (top : first ∈ c.tops) (n : Nat)
    (shape : ∀ ns ∈ nss, ∃ rest, ns = first :: rest ∧ rest.length = n) : Laid root c os nss := by
  refine ⟨files, nodup, ⟨n + 1, fun ns hm => ?_⟩, fun ns hm => ⟨first, top, ?_⟩⟩
  · obtain ⟨rest, rfl, hl⟩ := shape ns hm
    rw [List.length_cons, hl]
  · obtain ⟨rest, rfl, -⟩ := shape ns hm
    rfl

/-- What every instance of a cluster has is laid out if it is for every one of them, and differs for
instances that are told apart. -/
theorem Laid.of_services (first : String) {t : Topology} (distinct : t.IsDistinct) {root : String}
    {c : Category} {f : Host × Instance → List Operation}
    {names : Host × Instance → List (List String)}
    (files : ∀ x, IsAddress x.1.ip → FilesAt root (f x) (names x)) (nodup : ∀ x, (names x).Nodup)
    (apart : ∀ x y, IsAddress x.1.ip → IsAddress y.1.ip →
      (x.1.ip = y.1.ip → x.2.ToldApart y.2) → ∀ ns ∈ names x, ns ∉ names y)
    (top : first ∈ c.tops) (n : Nat)
    (shape : ∀ x, ∀ ns ∈ names x, ∃ rest, ns = first :: rest ∧ rest.length = n) :
    Laid root c (t.services.flatMap f) (t.services.flatMap names) := by
  have haddress : ∀ x ∈ t.services, IsAddress x.1.ip := fun x hx =>
    distinct.addressed _ (Topology.mem_services.mp hx).1
  refine Laid.of_shape first (FilesAt.flatMap fun x hx => files x (haddress x hx)) ?_ top n
    fun ns hm => ?_
  · refine List.nodup_flatMap.mpr ⟨fun x _ => nodup x, ?_⟩
    exact List.Pairwise.imp_of_mem (fun {x y} hx hy hxy ns hm hm' =>
      apart x y (haddress x hx) (haddress y hy) hxy ns hm hm') distinct.services
  · obtain ⟨x, -, hm⟩ := List.mem_flatMap.mp hm
    exact shape x ns hm

namespace Plan

variable {p : Plan} {root : String} {nss : Category → List (List String)}
  (h : ∀ c, Laid root c (p.group c) (nss c))
include h

/-- Names of different categories begin apart. -/
theorem pairwise_names : (["status.json"] :: Category.all.flatMap nss).Pairwise Apart := by
  have hreport : ∀ c : Category, "status.json" ∉ c.tops := by intro c; cases c <;> decide
  have htops : Category.all.Pairwise fun c d => ∀ a ∈ c.tops, a ∉ d.tops := by decide
  refine .cons (fun ns hm => ?_) (List.pairwise_flatMap.mpr ⟨fun c _ => (h c).pairwise, ?_⟩)
  · obtain ⟨c, -, hm⟩ := List.mem_flatMap.mp hm
    obtain ⟨first, rest, rfl, hf⟩ := (h c).begins hm
    refine Apart.of_head ?_ _ _
    rintro rfl
    exact hreport c hf
  · refine htops.imp fun {c d} hcd ns hn ms hm => ?_
    obtain ⟨a, ns, rfl, ha⟩ := (h c).begins hn
    obtain ⟨b, ms, rfl, hb⟩ := (h d).begins hm
    refine Apart.of_head ?_ _ _
    rintro rfl
    exact hcd a ha hb

/-- So the files of a plan lie apart, from each other and from the report. -/
theorem setApart_of_laid : p.paths.Pairwise Path.SetApart ∧
    ∀ path ∈ p.paths, Path.SetApart (Path.join root "status.json") path := by
  -- The report is one more file, that of an operation before all others.
  let report : Operation := ⟨.environment, .file (Path.join root "status.json"), none⟩
  have hreport : FilesAt root [report] [["status.json"]] :=
    FilesAt.single rfl (Path.components_join_behind (Path.behind_nil root) (by decide))
  have hall : FilesAt root (report :: Category.all.flatMap p.group)
      (["status.json"] :: Category.all.flatMap nss) :=
    hreport.append (FilesAt.flatMap fun c _ => (h c).files)
  have hapart := hall.setApart (pairwise_names h)
  have hperm : (Operation.paths (report :: Category.all.flatMap p.group)).Perm
      (Path.join root "status.json" :: p.paths) := by
    refine List.Perm.cons _ ?_
    have := (flatMap_groupOf_perm p.entries).filterMap fun o => o.sink.path?
    rwa [List.filterMap_map] at this
  obtain ⟨hfirst, hrest⟩ :=
    List.pairwise_cons.mp ((hperm.pairwise_iff fun hab => hab.symm).mp hapart)
  exact ⟨hrest, hfirst⟩

end Plan

/-! ### The groups of a plan -/

section

variable {t : Topology} {o : Options} {d : Discovery} {now : Instant} {plan : Plan}
  (h : (Plan.build t o d now).outcome = .ok plan)
include h

theorem laid_setup : Laid o.inspectionDir .setup (plan.group .setup)
    [["args.json"], ["env.json"], ["topology.json"]] := by
  have hfile : ∀ name : String, Path.IsName name →
      Path.components (Path.join o.inspectionDir name) = Path.behind o.inspectionDir [name] :=
    fun name => Path.components_join_behind (Path.behind_nil _)
  refine ⟨?_, by decide, ⟨1, by decide⟩, by decide⟩
  rw [group_setup h]
  exact (FilesAt.single rfl (hfile _ (by decide))).append ((FilesAt.single rfl
    (hfile _ (by decide))).append (FilesAt.single rfl (hfile _ (by decide))))

theorem laid_teardown : Laid o.inspectionDir .teardown (plan.group .teardown) [["meta.json"]] := by
  refine ⟨?_, by decide, ⟨1, by decide⟩, by decide⟩
  rw [group_teardown h]
  exact FilesAt.single rfl (Path.components_join_behind (Path.behind_nil _) (by decide))

theorem laid_log : Laid o.inspectionDir .log (plan.group .log) [] := by
  refine ⟨?_, .nil, ⟨0, by simp⟩, by simp⟩
  rw [group_log h]
  split
  · exact Artifact.filesAt_logs _ o
  · exact FilesAt.nil _

theorem laid_basic (distinct : t.IsDistinct) :
    ∃ nss, Laid o.inspectionDir .basic (plan.group .basic) nss := by
  rw [group_basic h]
  split
  next =>
    refine ⟨t.hosts.flatMap Artifact.stateNames, Laid.of_shape "basic"
      (FilesAt.flatMap fun h hm => Artifact.filesAt_hostState _ (distinct.addressed h hm)) ?_
      (by decide) 2 fun ns hm => ?_⟩
    · refine List.nodup_flatMap.mpr ⟨fun h _ => Artifact.nodup_stateNames h,
        distinct.hosts.imp fun hne ns hm hm' => ?_⟩
      obtain ⟨entry, -, rfl⟩ := List.mem_map.mp hm
      obtain ⟨entry', -, he⟩ := List.mem_map.mp hm'
      simp only [List.cons.injEq, true_and] at he
      exact hne he.1.symm
    · obtain ⟨h, -, hm⟩ := List.mem_flatMap.mp hm
      obtain ⟨entry, -, rfl⟩ := List.mem_map.mp hm
      exact ⟨_, rfl, rfl⟩
  next => exact ⟨[], Laid.nothing _ _⟩

theorem laid_config (distinct : t.IsDistinct) :
    ∃ nss, Laid o.inspectionDir .config (plan.group .config) nss := by
  rw [group_config h]
  split
  next =>
    let names : Host × Instance → List (List String) := fun x =>
      if x.2.isHealthy then Artifact.configurationNames x.1.ip x.2 else []
    have hnames : ∀ x, ∀ ns ∈ names x, x.2.isHealthy = true ∧
        Artifact.hasConfiguration x.2.kind = true ∧
        ns = ["config", addressOf x.1.ip x.2.port, x.2.kind.name ++ ".toml"] := by
      rintro ⟨h, i⟩ ns hm
      dsimp only [names] at hm
      split at hm
      next hi => exact ⟨hi, Artifact.mem_configurationNames.mp hm⟩
      next => cases hm
    refine ⟨t.services.flatMap names, Laid.of_services "config" distinct ?_ ?_ ?_
      (by decide) 2 fun x ns hm => ⟨_, (hnames x ns hm).2.2, rfl⟩⟩
    · rintro ⟨h, i⟩ ha
      dsimp only [names, Host.configurations]
      split
      · exact Artifact.filesAt_configuration _ _ ha i
      · exact FilesAt.nil _
    · rintro ⟨h, i⟩
      dsimp only [names]
      split
      · exact Artifact.nodup_configurationNames h.ip i
      · exact .nil
    · intro x y ha ha' hxy ns hm hm'
      obtain ⟨hi, hc, he⟩ := hnames x ns hm
      obtain ⟨hi', -, he'⟩ := hnames y ns hm'
      rw [he] at he'
      simp only [List.cons.injEq, and_true, true_and, String.append_left_inj] at he'
      obtain ⟨hip, hport⟩ := ha.addressOf_injective ha' he'.1
      exact (hxy hip hi hi' (ServiceKind.name_injective he'.2) hc).1 hport
  next => exact ⟨[], Laid.nothing _ _⟩

/-- An instance that is named has an address. -/
def Options.NamesAddress (o : Options) : Prop :=
  ∀ service ip port, (Target.written o.collect .profile).find? (!·.isEmpty) =
    some [service, ip, port] → IsAddress ip

theorem laid_profile (distinct : t.IsDistinct) (named : o.NamesAddress) :
    ∃ nss, Laid o.inspectionDir .profile (plan.group .profile) nss := by
  have hshape : ∀ (kind : ServiceKind) (ip : String) (port : UInt16),
      ∀ ns ∈ Profile.names kind ip port, ∃ rest, ns = "profile" :: rest ∧ rest.length = 3 := by
    intro kind ip port ns hm
    obtain ⟨file, -, rfl⟩ := List.mem_map.mp hm
    exact ⟨_, rfl, rfl⟩
  cases hw : (Target.written o.collect .profile).find? (!·.isEmpty) with
  | some segments =>
    obtain ⟨service, ip, port, kind, number, rfl, -, -, hos⟩ := group_profile_of_named h hw
    have hfiles := Profile.filesAt_operations o.inspectionDir kind (Planning.userOf t ip)
      (named service ip port hw) (UInt16.ofNat number) o
    rw [hos] at hfiles
    exact ⟨_, Laid.of_shape "profile" hfiles (Profile.nodup_names kind ip _) (by decide) 3
      (hshape kind ip _)⟩
  | none =>
    have hbare : ∀ segments ∈ Target.written o.collect .profile, segments = [] := by
      intro segments hm
      simpa using List.find?_eq_none.mp hw segments hm
    rw [group_profile_of_bare h hbare]
    split
    next =>
      let names : Host × Instance → List (List String) := fun x =>
        x.2.profilePort?.elim [] (Profile.names x.2.kind x.1.ip)
      have hnames : ∀ x, ∀ ns ∈ names x, ∃ port, x.2.profilePort? = some port ∧
          ns ∈ Profile.names x.2.kind x.1.ip port := by
        rintro ⟨h, i⟩ ns hm
        dsimp only [names] at hm
        cases hp : i.profilePort? with
        | none =>
          rw [hp] at hm
          cases hm
        | some port =>
          rw [hp] at hm
          exact ⟨port, rfl, hm⟩
      refine ⟨t.services.flatMap names, Laid.of_services "profile" distinct ?_ ?_ ?_
        (by decide) 3 fun x ns hm => ?_⟩
      · rintro ⟨h, i⟩ ha
        dsimp only [names, Host.profiles]
        cases i.profilePort? with
        | none => exact FilesAt.nil _
        | some port => exact Profile.filesAt_operations _ _ _ ha port o
      · rintro ⟨h, i⟩
        dsimp only [names]
        cases i.profilePort? with
        | none => exact .nil
        | some port => exact Profile.nodup_names i.kind h.ip port
      · intro x y ha ha' hxy ns hm hm'
        obtain ⟨port, hp, hm⟩ := hnames x ns hm
        obtain ⟨port', hp', hm'⟩ := hnames y ns hm'
        obtain ⟨hk, hip, rfl⟩ := Profile.eq_of_mem_names ha ha' hm hm'
        obtain ⟨hi, hc⟩ := Instance.isHealthy_of_profilePort? hp
        have hnone := (hxy hip hi (Instance.isHealthy_of_profilePort? hp').1 hk hc).2
          (hp.trans hp'.symm)
        rw [hp] at hnone
        cases hnone
      · obtain ⟨port, -, hm⟩ := hnames x ns hm
        exact hshape _ _ _ ns hm
    next => exact ⟨[], Laid.nothing _ _⟩

/-- Answers without repeated names, and without slashes in the names of metrics. -/
def Planning.AnswersPlainly (d : Discovery) (qs : List Query) : Prop :=
  ∀ q ∈ qs, ∀ names, d q = .ok names →
    names.Nodup ∧ (q.isMetrics = true → ∀ name ∈ names, '/' ∉ name.toList)

theorem laid_dbinfo (plain : Planning.AnswersPlainly d (Plan.build t o d now).queries) :
    ∃ nss, Laid o.inspectionDir .dbinfo (plan.group .dbinfo) nss := by
  rw [group_dbinfo h]
  cases ha : Planning.askedForDatabases t o with
  | none => exact ⟨[], Laid.nothing _ _⟩
  | some address =>
    rw [Option.map_some, Option.getD_some]
    cases hd : d (.databases address) with
    | error e =>
      exact ⟨[], Laid.of_shape "dbinfo" (FilesAt.discard rfl) .nil (by decide) 0
        (by simp)⟩
    | ok names =>
      obtain ⟨hnodup, -⟩ := plain _ ((databases_mem_queries h).mpr ha) names hd
      refine ⟨_, Laid.of_shape "dbinfo" (Artifact.filesAt_schemas _ _ _ names) ?_
        (by decide) 1 fun ns hm => ?_⟩
      · refine (hnodup.filter _).map fun a b he => ?_
        simpa using he
      · obtain ⟨name, -, rfl⟩ := List.mem_map.mp hm
        exact ⟨_, rfl, rfl⟩

theorem laid_metric (plain : Planning.AnswersPlainly d (Plan.build t o d now).queries) :
    ∃ nss, Laid o.inspectionDir .metric (plan.group .metric) nss := by
  cases ha : Planning.askedForMetrics t o with
  | none =>
    rw [group_metric_eq_nil h ha]
    exact ⟨[], Laid.nothing _ _⟩
  | some address =>
    obtain ⟨-, w, -, -, hg⟩ := group_metric h ha
    rw [hg]
    cases hd : d (.metrics address) with
    | error e =>
      exact ⟨[["metric", "alert.json"]], Laid.of_shape "metric"
        ((FilesAt.discard rfl).append (Artifact.filesAt_alerts ..)) (by decide) (by decide) 1
        (by simp)⟩
    | ok names =>
      obtain ⟨hnodup, hfree⟩ := plain _ ((metrics_mem_queries h).mpr ha) names hd
      refine ⟨_, Laid.of_shape "metric"
        ((Artifact.filesAt_metricRanges _ _ _ w (hfree rfl)).append (Artifact.filesAt_alerts ..)) ?_
        (by decide) 1 fun ns hm => ?_⟩
      · refine List.nodup_append.mpr ⟨(hnodup.filter _).map fun a b he => ?_, by simp, ?_⟩
        · simp only [List.cons.injEq, and_true, true_and] at he
          exact Artifact.fileName_injective he
        · intro ns hm ms hm' he
          obtain ⟨name, -, rfl⟩ := List.mem_map.mp hm
          rw [List.mem_singleton.mp hm'] at he
          simp only [List.cons.injEq, and_true, true_and] at he
          exact Artifact.fileName_ne_alerts w name he
      · rcases List.mem_append.mp hm with hm | hm
        · obtain ⟨name, -, rfl⟩ := List.mem_map.mp hm
          exact ⟨_, rfl, rfl⟩
        · rw [List.mem_singleton.mp hm]
          exact ⟨_, rfl, rfl⟩

/-- **The files of a plan lie apart.**  Where hosts and instances are told apart by addresses and
ports, and servers answer plainly, no operation of the plan, in whichever group, writes the file of
another or to a directory on the way to it, and none touches the report of the run. -/
theorem files_lie_apart (distinct : t.IsDistinct) (named : o.NamesAddress)
    (plain : Planning.AnswersPlainly d (Plan.build t o d now).queries) :
    plan.paths.Pairwise Path.SetApart ∧
      ∀ path ∈ plan.paths, Path.SetApart (Run.reportPath o) path := by
  have hall : ∀ c, ∃ nss, Laid o.inspectionDir c (plan.group c) nss := by
    intro c
    cases c with
    | setup => exact ⟨_, laid_setup h⟩
    | basic => exact laid_basic h distinct
    | profile => exact laid_profile h distinct named
    | metric => exact laid_metric h plain
    | config => exact laid_config h distinct
    | dbinfo => exact laid_dbinfo h plain
    | log => exact ⟨_, laid_log h⟩
    | teardown => exact ⟨_, laid_teardown h⟩
  choose nss hnss using hall
  exact Plan.setApart_of_laid hnss

end

/-- A run that asks for everything. -/
def fullRun : Options :=
  { unprofiledRun with collect := "basic,profile,metric,config,dbinfo,log" }

/-- Servers that give no name twice. -/
def distinctNames : Discovery
  | .databases _ => .ok ["test", "../escape", "test.json"]
  | .metrics _ => .ok ["up", "ALERTS", "alert", "up_0_to_0_15s.json"]

theorem files_lie_apart_full :
    ∃ plan, (Plan.build smallCluster fullRun distinctNames .earliest).outcome = .ok plan ∧
      plan.paths.length = 39 ∧ plan.paths.Pairwise Path.SetApart ∧
      ∀ path ∈ plan.paths, Path.SetApart (Run.reportPath fullRun) path := by
  have h : (Plan.build smallCluster fullRun distinctNames .earliest).outcome = .ok _ := rfl
  refine ⟨_, h, rfl, files_lie_apart h ?_ ?_ ?_⟩
  · exact ⟨by decide, by decide, by decide⟩
  · have hnone : (Target.written fullRun.collect .profile).find? (!·.isEmpty) = none := by decide
    intro service ip port hw
    rw [hnone] at hw
    cases hw
  · rintro (_ | _) - names ⟨⟩
    · exact ⟨by decide, nofun⟩
    · exact ⟨by decide, fun _ => by decide⟩

end Inspection
