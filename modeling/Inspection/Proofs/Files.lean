import Inspection.Proofs.Execution.Isolated
import Inspection.Proofs.FileTree.Read
import Inspection.Proofs.Json.Sorted
import Inspection.Proofs.Plan.Unasked
import Inspection.Proofs.Records

/-!
# Files — what describes a run

A run writes its arguments, its topology and its times as documents.  On the way the record becomes
a value, in order or not, the value a text, the text a value in order, and that a text over several
lines (`Filed`); at the end a file holds it, whatever links lead there.  What is read from the file
is the record, for none of these steps does more than to put it in other words.

* `Operation.Leaves`: where an operation succeeds, its file holds the text of a record.
* `Record.leaves_snapshot`, `Record.leaves_closing`: the operations of a run do so.
* `Record.becomes_closing`: run again and again, the last one keeps all but the end.
* `run_files_read_back`: the files of a run are read as what the run was planned from.
-/

namespace Inspection

open Decoder
open Json (Shape Respelled isScalar_optional)
open Json.Respelled (isOrderly_scalar)

/-! ### Documents of records -/

/-- Records whose documents hold them: they are kept, they are the same in order, and they are not
too deep to be read as values. -/
structure Filed {α : Type} (toJson : α → Json) (decode : Decoder α) (shape : Shape) : Prop where
  kept : Kept toJson decode shape fun _ => True
  ordered : ∀ r, Respelled shape (toJson r) (toJson r).sorted
  shallow : ∀ r, (toJson r).Within Json.depthLimit

namespace Filed

variable {α : Type} {toJson : α → Json} {decode : Decoder α} {shape : Shape}
  (h : Filed toJson decode shape) (r : α)
include h

/-- The document of a record over several lines is read as the record. -/
theorem ofText : Decoder.ofText decode (toJson r).sorted.pretty = .ok r :=
  h.kept.ofText trivial (h.ordered r)
    (Json.spelled_pretty (Json.inWords_sorted (h.kept.inWords r trivial)))

theorem tidy : Sink.tidy (Text.encode (toJson r).compact) =
    .ok (Text.encode (toJson r).sorted.pretty) :=
  Json.tidy_of_spelled (h.shallow r) (Json.spelled_compact (h.kept.inWords r trivial))

theorem tidy_sorted : Sink.tidy (Text.encode (toJson r).sorted.compact) =
    .ok (Text.encode (toJson r).sorted.pretty) := by
  have hwords := Json.inWords_sorted (h.kept.inWords r trivial)
  rw [Json.tidy_of_spelled (Json.within_sorted (h.shallow r)) (Json.spelled_compact hwords),
    Json.sorted_sorted]

end Filed

/-! ### The records of a run -/

theorem Options.isFlat (o : Options) : o.toJson.IsFlat := by
  have htime : ∀ o, (Json.optional Instant.toJson o).IsScalar := isScalar_optional fun _ => trivial
  have hpath : ∀ o, (Json.optional Json.string o).IsScalar := isScalar_optional fun _ => trivial
  refine ⟨by simp, ?_⟩
  simp only [List.forall_mem_cons]
  exact ⟨trivial, trivial, trivial, htime o.windowBegin, htime o.windowEnd, hpath o.logDir,
    hpath o.logSpliter, trivial, trivial, nofun⟩

theorem Options.filed : Filed toJson decode shape :=
  ⟨kept, fun o => .of_isFlat o.isFlat, fun o => o.isFlat.within⟩

theorem RunRecord.isFlat (r : RunRecord) : r.toJson.IsFlat := by
  have htime : ∀ o, (Json.optional Instant.toJson o).IsScalar := isScalar_optional fun _ => trivial
  refine ⟨by simp [endKey], ?_⟩
  simp only [List.forall_mem_cons]
  exact ⟨trivial, trivial, trivial, htime r.endTime, nofun⟩

theorem RunRecord.filed : Filed toJson decode shape :=
  ⟨kept, fun r => .of_isFlat r.isFlat, fun r => r.isFlat.within⟩

theorem Instance.isFlat (i : Instance) : i.toJson.IsFlat := by
  have hport : ∀ o, (Json.optional portJson o).IsScalar := isScalar_optional fun _ => trivial
  refine ⟨by simp, ?_⟩
  simp only [List.forall_mem_cons]
  exact ⟨trivial, trivial, trivial, hport i.port, hport i.statusPort, nofun⟩

theorem Host.ordered (h : Host) : Respelled shape h.toJson h.toJson.sorted :=
  .sorted_record (.cons (isOrderly_scalar trivial) <| .cons (isOrderly_scalar trivial) <|
    .cons (isOrderly_scalar trivial) <|
    .cons ⟨rfl, .sorted_list (List.forall_mem_map.mpr fun i _ => .of_isFlat i.isFlat)⟩ .nil)
    (by decide)

theorem Host.within (h : Host) {depth : Nat} : h.toJson.Within (depth + 3) := by
  refine Json.within_object.mpr ?_
  simp only [List.forall_mem_cons]
  exact ⟨trivial, trivial, trivial, Json.within_array.mpr <| List.forall_mem_map.mpr fun i _ =>
    i.isFlat.within, nofun⟩

theorem Topology.ordered (t : Topology) : Respelled shape t.toJson t.toJson.sorted :=
  .sorted_record (.cons (isOrderly_scalar trivial) <| .cons (isOrderly_scalar trivial) <|
    .cons ⟨rfl, .sorted_list (List.forall_mem_map.mpr fun h _ => h.ordered)⟩ .nil) (by decide)

theorem Topology.within (t : Topology) {depth : Nat} : t.toJson.Within (depth + 5) := by
  refine Json.within_object.mpr ?_
  simp only [List.forall_mem_cons]
  exact ⟨trivial, trivial, Json.within_array.mpr <| List.forall_mem_map.mpr fun h _ => h.within,
    nofun⟩

theorem Topology.filed : Filed toJson decode shape :=
  ⟨kept, Topology.ordered, fun t => t.within⟩

/-! ### Operations that leave a record -/

/-- Where the operation succeeds, a file holds the text of a record, which may depend on the
world. -/
def Operation.Leaves {α : Type} (o : Operation) (path : String) (decode : Decoder α)
    (r : World → α) : Prop :=
  ∀ w tree, (o.run w tree).outcome = .success → ∃ text,
    (o.run w tree).tree.read? path = some (Text.encode text) ∧
      Decoder.ofText decode text = .ok (r w)

theorem Operation.leaves_of_prepare {α : Type} {o : Operation} {path : String}
    {decode : Decoder α} {r : World → α} {text : World → String} (hpath : o.sink.path? = some path)
    (hprepare : ∀ w tree, o.prepare w tree = .ok (Text.encode (text w)))
    (hread : ∀ w, Decoder.ofText decode (text w) = .ok (r w)) : o.Leaves path decode r := by
  intro w tree hs
  obtain ⟨houtcome, htree⟩ := run_of_path w tree o (hprepare w tree) hpath
  rw [houtcome] at hs
  split at hs
  next hw =>
    rw [htree]
    exact ⟨text w, FileTree.read?_of_write hw, hread w⟩
  next => cases hs

/-- An operation that gathers nothing else succeeds where its file can be opened, and the device
takes everything. -/
theorem Operation.succeeds_of_prepare {o : Operation} {w : World} {tree : FileTree} {path : String}
    {bytes : List UInt8} (hprepare : o.prepare w tree = .ok bytes)
    (hpath : o.sink.path? = some path) (hgathered : o.gathered w tree = tree)
    (hfits : FileTree.Fits tree path) (hwritable : FileTree.Writable tree path)
    (hroom : tree.room (Path.locate tree.working path) = none) :
    (o.run w tree).outcome = .success := by
  have hkept : tree.kept (Path.locate tree.working path) bytes = bytes := by
    rw [FileTree.kept, hroom]
  have hwrite := (FileTree.write_succeeds_iff hfits bytes).mpr ⟨hwritable, hkept⟩
  rw [(run_of_path w tree o hprepare hpath).1, hgathered, if_pos hwrite]

/-- What is collected for a document is put over several lines. -/
theorem Operation.prepare_of_json {o : Operation} {w : World} {tree : FileTree} {path : String}
    {content bytes : List UInt8} (hpassed : (o.takeHook w tree).ending = .passed)
    (hcollected : (o.collected w tree).yield = .bytes content) (hsink : o.sink = .json path)
    (htidy : Sink.tidy content = .ok bytes) : o.prepare w tree = .ok bytes := by
  unfold prepare
  simp only [hpassed, hcollected, hsink, htidy]
  rfl

namespace Record

variable {α : Type} {toJson : α → Json} {decode : Decoder α} {shape : Shape}

theorem prepare_snapshot (h : Filed toJson decode shape) (r : α) (root file name : String)
    (w : World) (tree : FileTree) : (snapshot root file name (toJson r)).prepare w tree =
      .ok (Text.encode (toJson r).sorted.pretty) :=
  Operation.prepare_of_json rfl rfl rfl (h.tidy_sorted r)

/-- **A snapshot leaves its record.** -/
theorem leaves_snapshot (h : Filed toJson decode shape) (r : α) (root file name : String) :
    (snapshot root file name (toJson r)).Leaves (Path.join root file) decode fun _ => r :=
  Operation.leaves_of_prepare rfl (prepare_snapshot h r root file name) fun _ => h.ofText r

/-- The operation that writes the times of a run, as they are kept. -/
def closing (root : String) (r : RunRecord) : Operation where
  collector := .held "inspection metadata" r.toJson
  sink := .json (Path.join root "meta.json")
  hook := some (.stamp RunRecord.endKey)

theorem teardown_eq (root : String) (t : Topology) (now : Instant) :
    teardown root t now = closing root (RunRecord.start t now) := rfl

/-- The hook stamps the end, whatever it was. -/
theorem takeHook_closing (root : String) (r : RunRecord) (w : World) (tree : FileTree) :
    (closing root r).takeHook w tree =
      ⟨{ r with endTime := some w.now }.toJson, tree, [], .passed⟩ := rfl

theorem prepare_closing (root : String) (r : RunRecord) (w : World) (tree : FileTree) :
    (closing root r).prepare w tree =
      .ok (Text.encode { r with endTime := some w.now }.toJson.sorted.pretty) :=
  Operation.prepare_of_json (congrArg Hooked.ending (takeHook_closing root r w tree)) rfl rfl
    (RunRecord.filed.tidy { r with endTime := some w.now })

theorem leaves_closing (root : String) (r : RunRecord) :
    (closing root r).Leaves (Path.join root "meta.json") RunRecord.decode fun w =>
      { r with endTime := some w.now } :=
  Operation.leaves_of_prepare rfl (prepare_closing root r) fun w =>
    RunRecord.filed.ofText { r with endTime := some w.now }

theorem gathered_closing (root : String) (r : RunRecord) (w : World) (tree : FileTree) :
    (closing root r).gathered w tree = tree := by
  unfold Operation.gathered
  rw [takeHook_closing]
  rfl

/-- Run once, the operation keeps the time of that run, whether it succeeded or not. -/
theorem operation_closing (root : String) (r : RunRecord) (w : World) (tree : FileTree) :
    ((closing root r).run w tree).operation = closing root { r with endTime := some w.now } := by
  unfold Operation.run
  rw [takeHook_closing]
  rfl

end Record

/-- What an operation becomes by being run any number of times, in whatever surroundings. -/
inductive Operation.Becomes : Operation → Operation → Prop
  | refl (o : Operation) : Becomes o o
  | more {o later : Operation} (w : World) (tree : FileTree)
      (rest : Becomes (o.run w tree).operation later) : Becomes o later

/-- **However often it is run**, the operation keeps all but the end. -/
theorem Record.becomes_closing {root : String} {r : RunRecord} {later : Operation}
    (h : (closing root r).Becomes later) : ∃ e, later = closing root { r with endTime := e } := by
  generalize ho : closing root r = o at h
  induction h generalizing r with
  | refl => exact ⟨r.endTime, ho.symm⟩
  | more w tree _ ih =>
    subst ho
    exact @ih { r with endTime := some w.now } (operation_closing root r w tree).symm

theorem Report.leaves_save {r : Report} (hr : r.InBounds) {tree : FileTree} {path : String}
    (hs : (r.save tree path).2 = true) : ∃ text,
      (r.save tree path).1.read? path = some (Text.encode text) ∧
        Decoder.ofText decode text = .ok r :=
  ⟨r.toJson.pretty, FileTree.read?_of_write hs,
    kept.ofText hr (.refl _) (Json.spelled_pretty (kept.inWords r hr))⟩

/-! ### The files of a run -/

section

variable {t : Topology} {o : Options} {d : Discovery} {now : Instant} {plan : Plan}
  (h : (Plan.build t o d now).outcome = .ok plan)
include h

/-- **The files of a run describe the run.** -/
theorem run_files_read_back :
    (∃ arguments environment topology, plan.group .setup = [arguments, environment, topology] ∧
      arguments.Leaves (Path.join o.inspectionDir "args.json") Options.decode (fun _ => o) ∧
      topology.Leaves (Path.join o.inspectionDir "topology.json") Topology.decode fun _ => t) ∧
    (∃ closing, plan.group .teardown = [closing] ∧ ∀ later, closing.Becomes later →
      later.Leaves (Path.join o.inspectionDir "meta.json") RunRecord.decode fun w =>
        ⟨t.clusterName, now, now, some w.now⟩) ∧
    ∀ r : Report, r.InBounds → ∀ tree path, (r.save tree path).2 = true → ∃ text,
      (r.save tree path).1.read? path = some (Text.encode text) ∧
        Decoder.ofText Report.decode text = .ok r := by
  refine ⟨⟨_, _, _, group_setup h, Record.leaves_snapshot Options.filed o _ _ _,
    Record.leaves_snapshot Topology.filed t _ _ _⟩, ⟨_, group_teardown h, fun later hl => ?_⟩,
    fun r hr tree path => Report.leaves_save hr⟩
  obtain ⟨e, rfl⟩ := Record.becomes_closing hl
  exact Record.leaves_closing _ _

end

/-- The files of the run that lists. -/
def listedFiles : List String :=
  ["/data/insp-1/args.json", "/data/insp-1/topology.json", "/data/insp-1/meta.json",
    "/data/insp-1/status.json"]

theorem listedFiles_writable {path : String} (hpath : path ∈ listedFiles) :
    FileTree.Fits homeTree path ∧ FileTree.Writable homeTree path := by
  have hdirect : ∀ path ∈ listedFiles, Path.base homeTree.working path = [] ∧
      Component.here ∉ Path.components path ∧ Component.up ∉ Path.components path := by decide
  have hnames : ∀ path ∈ listedFiles, FileTree.isFilePath path = true ∧
      (∀ n ∈ Path.names path, FileTree.isName n = true) ∧
      ¬["home", "old"] <+: Path.names path ∧
      homeTree.node? (Path.locate homeTree.working path) ≠ some .directory := by decide
  obtain ⟨hbase, hdirect⟩ := hdirect path hpath
  obtain ⟨hfile, hnamed, hold, htarget⟩ := hnames path hpath
  refine ⟨⟨hdirect, ?_, fun front _ target hlink => ?_⟩, hfile, hnamed,
    fun front hf content hc => ?_, htarget⟩
  · rw [hbase]
    rfl
  · obtain ⟨⟨⟩⟩ | ⟨⟨⟩, -⟩ := homeTree_node? hlink
  · obtain ⟨⟨⟩⟩ | ⟨-, hl⟩ := homeTree_node? hc
    rw [hbase] at hl
    exact hold (hl ▸ hf.1)

theorem run_files_read_back_listed :
    ∃ plan arguments topology closing,
      (Plan.build smallCluster listedRun halfAnswered .earliest).outcome = .ok plan ∧
      arguments ∈ plan.group .setup ∧ topology ∈ plan.group .setup ∧
      plan.group .teardown = [closing] ∧ ∀ w,
        (∃ text, (arguments.run w homeTree).tree.read? "/data/insp-1/args.json" =
            some (Text.encode text) ∧ Decoder.ofText Options.decode text = .ok listedRun) ∧
        (∃ text, (topology.run w homeTree).tree.read? "/data/insp-1/topology.json" =
            some (Text.encode text) ∧ Decoder.ofText Topology.decode text = .ok smallCluster) ∧
        (∃ text, ((closing.run w homeTree).operation.run w homeTree).tree.read?
            "/data/insp-1/meta.json" = some (Text.encode text) ∧
          Decoder.ofText RunRecord.decode text =
            .ok ⟨"small", .earliest, .earliest, some w.now⟩) ∧
        ∃ text, (briefReport.save homeTree "/data/insp-1/status.json").1.read?
            "/data/insp-1/status.json" = some (Text.encode text) ∧
          Decoder.ofText Report.decode text = .ok briefReport := by
  obtain ⟨plan, h⟩ : ∃ plan, (Plan.build smallCluster listedRun halfAnswered
    .earliest).outcome = .ok plan := ⟨_, rfl⟩
  obtain ⟨⟨arguments, environment, topology, hsetup, harguments, htopology⟩,
    ⟨closing, hteardown, hclosing⟩, hreport⟩ := run_files_read_back h
  have hsucceeds : ∀ {o : Operation} {w : World} {bytes : List UInt8} (path : String),
      path ∈ listedFiles → o.prepare w homeTree = .ok bytes → o.sink.path? = some path →
      o.gathered w homeTree = homeTree → (o.run w homeTree).outcome = .success :=
    fun _ hm hprepare hpath hgathered => Operation.succeeds_of_prepare hprepare hpath hgathered
      (listedFiles_writable hm).1 (listedFiles_writable hm).2 rfl
  have hoperations := hsetup.symm.trans (group_setup h)
  obtain ⟨rfl, -, rfl, -⟩ : arguments = _ ∧ environment = _ ∧ topology = _ ∧ True := by
    simpa [Record.setup] using hoperations
  obtain rfl : closing = _ := by simpa using hteardown.symm.trans (group_teardown h)
  refine ⟨plan, _, _, _, h, hsetup ▸ List.mem_cons_self, by simp [hsetup], hteardown,
    fun w => ⟨harguments w homeTree ?_, htopology w homeTree ?_,
      hclosing _ (.more w homeTree (.refl _)) w homeTree ?_, hreport _ briefReport_inBounds _ _ ?_⟩⟩
  · exact hsucceeds "/data/insp-1/args.json" (by decide)
      (Record.prepare_snapshot Options.filed listedRun _ _ _ w homeTree) rfl rfl
  · exact hsucceeds "/data/insp-1/topology.json" (by decide)
      (Record.prepare_snapshot Topology.filed smallCluster _ _ _ w homeTree) rfl rfl
  · rw [Record.teardown_eq, Record.operation_closing]
    exact hsucceeds "/data/insp-1/meta.json" (by decide) (Record.prepare_closing _ _ w homeTree) rfl
      (Record.gathered_closing ..)
  · exact (FileTree.write_succeeds_iff (listedFiles_writable (by decide)).1 _).mpr
      ⟨(listedFiles_writable (by decide)).2, rfl⟩

end Inspection
