import Inspection.Proofs.Json.Kept
import Inspection.Proofs.Time.Rfc3339
import Inspection.Record
import Inspection.Report
import Inspection.Statistics

/-!
# Records — what is written comes back

The records of a run are its arguments, the topology it goes by, when it took place, its report
and its statistics.  Each is kept (`Kept`): for every type there are the parts of its records, the
shape that tells what may be left out, and the decoder goes by both (`reads`).  Numbers that count
things have to fit 64 bits (`InBounds`).

So every record comes back from its writing on one line and from that over several, and from every
text of a value that differs from the one written in the order of fields, in fields left out that
have their defaults, in fields that the record does not know, and in blanks (`records_come_back`).
-/

namespace Inspection

open Decoder
open Json (Shape Respelled Spelled inWords_array inWords_object inWords_natural inWords_optional)

/-! ### Times -/

theorem Instant.written (t : Instant) : decode t.toJson.draft = .ok t := by
  simp only [toJson, Json.draft, decode, read?_render]

theorem Instant.inWords (t : Instant) : t.toJson.InWords := trivial

/-! ### The topology -/

theorem Status.written : ∀ s : Status, decode s.toJson.draft = .ok s
  | success | exception => rfl

theorem ServiceKind.written (k : ServiceKind) : decode k.toJson.draft = .ok k :=
  congrArg Except.ok (named_name k)

namespace Instance

/-- An instance as its record has it. -/
def parts (i : Instance) : List Part :=
  [⟨kindField, i.kind⟩, ⟨statusField, i.status⟩, ⟨deployDirField, i.deployDir⟩,
    ⟨portField, i.port⟩, ⟨statusPortField, i.statusPort⟩]

/-- An instance is healthy, in no directory and without ports, if nothing else is said. -/
def shape : Shape :=
  .record [("name", none, .plain), ("status", some (.string "success"), .plain),
    ("deploy_dir", some (.string ""), .plain), ("port", some .null, .plain),
    ("status_port", some .null, .plain)]

theorem reads : Reads decode [kindField.rule, statusField.rule, deployDirField.rule,
    portField.rule, statusPortField.rule] parts where
  aligned _ := rfl
  decodes := by
    refine ⟨"Component", fun d i => ?_⟩
    cases i
    simp [-bind_pure_comp, decode, parts, Check.bind_eq_ok, Check.pure_eq_ok]

theorem kept : Kept toJson decode shape fun _ => True where
  suits := suits_record reads (by decide) fun _ =>
    .cons (fits_required (suits_plain _)) <| .cons (fits_defaulted rfl (suits_plain _)) <|
      .cons (fits_defaulted rfl (suits_plain _)) <| .cons (fits_defaulted rfl (suits_plain _)) <|
      .cons (fits_defaulted rfl (suits_plain _)) .nil
  written i _ := by
    have hport : ∀ o, optional word16 (Json.optional portJson o).draft = .ok o :=
      optional_written word16_written fun _ => nofun
    exact reads.written (by decide) <| .cons (written_required i.kind.written) <|
      .cons (written_defaulted i.status.written) <| .cons (written_defaulted rfl) <|
      .cons (written_defaulted (hport i.port)) <|
      .cons (written_defaulted (hport i.statusPort)) .nil
  inWords i _ := by
    have hport : ∀ o, (Json.optional portJson o).InWords :=
      inWords_optional fun p => inWords_natural (Nat.lt_trans p.toNat_lt (by decide))
    exact ⟨trivial, trivial, trivial, hport i.port, hport i.statusPort, trivial⟩

end Instance

namespace Host

/-- A host as its record has it. -/
def parts (h : Host) : List Part :=
  [⟨ipField, h.ip⟩, ⟨userField, h.user⟩, ⟨statusField, h.status⟩, ⟨instancesField, h.instances⟩]

/-- A host is healthy, of no user and without instances, if nothing else is said. -/
def shape : Shape :=
  .record [("ip", none, .plain), ("user", some (.string ""), .plain),
    ("status", some (.string "success"), .plain),
    ("components", some (.array []), .list Instance.shape)]

theorem reads : Reads decode [ipField.rule, userField.rule, statusField.rule, instancesField.rule]
    parts where
  aligned _ := rfl
  decodes := by
    refine ⟨"Host", fun d h => ?_⟩
    cases h
    simp [-bind_pure_comp, decode, parts, Check.bind_eq_ok, Check.pure_eq_ok]

theorem kept : Kept toJson decode shape fun _ => True where
  suits := suits_record reads (by decide) fun _ =>
    .cons (fits_required (suits_plain _)) <| .cons (fits_defaulted rfl (suits_plain _)) <|
      .cons (fits_defaulted rfl (suits_plain _)) <|
      .cons (fits_defaulted rfl (suits_list Instance.kept.suits)) .nil
  written h _ := reads.written (by decide) <| .cons (written_required rfl) <|
    .cons (written_defaulted rfl) <|
    .cons (written_defaulted h.status.written) <|
    .cons (written_defaulted (list_written fun i _ => Instance.kept.written i trivial)) .nil
  inWords h _ := ⟨trivial, trivial, trivial,
    inWords_array.mpr (List.forall_mem_map.mpr fun i _ => Instance.kept.inWords i trivial), trivial⟩

end Host

namespace Topology

/-- A topology as its record has it. -/
def parts (t : Topology) : List Part :=
  [⟨clusterNameField, t.clusterName⟩, ⟨statusField, t.status⟩, ⟨hostsField, t.hosts⟩]

/-- A topology is healthy and without hosts, if nothing else is said. -/
def shape : Shape :=
  .record [("cluster_name", none, .plain), ("status", some (.string "success"), .plain),
    ("hosts", some (.array []), .list Host.shape)]

theorem reads : Reads decode [clusterNameField.rule, statusField.rule, hostsField.rule]
    parts where
  aligned _ := rfl
  decodes := by
    refine ⟨"Topology", fun d t => ?_⟩
    cases t
    simp [-bind_pure_comp, decode, parts, Check.bind_eq_ok, Check.pure_eq_ok]

theorem kept : Kept toJson decode shape fun _ => True where
  suits := suits_record reads (by decide) fun _ =>
    .cons (fits_required (suits_plain _)) <| .cons (fits_defaulted rfl (suits_plain _)) <|
      .cons (fits_defaulted rfl (suits_list Host.kept.suits)) .nil
  written t _ := reads.written (by decide) <| .cons (written_required rfl) <|
    .cons (written_defaulted t.status.written) <|
    .cons (written_defaulted (list_written fun h _ => Host.kept.written h trivial)) .nil
  inWords t _ := ⟨trivial, trivial,
    inWords_array.mpr (List.forall_mem_map.mpr fun h _ => Host.kept.inWords h trivial), trivial⟩

end Topology

/-! ### The arguments and the times of a run -/

namespace Options

/-- Options as their record has them. -/
def parts (o : Options) : List Part :=
  [⟨inspectionIdField, o.inspectionId⟩, ⟨dataDirField, o.dataDir⟩, ⟨collectField, o.collect⟩,
    ⟨windowBeginField, o.windowBegin⟩, ⟨windowEndField, o.windowEnd⟩, ⟨logDirField, o.logDir⟩,
    ⟨logSpliterField, o.logSpliter⟩, ⟨profileSecondsField, o.profileSeconds⟩,
    ⟨httpTimeoutField, o.httpTimeout⟩]

/-- What was not given may be left out. -/
def shape : Shape :=
  .record [("inspection_id", none, .plain), ("data_dir", none, .plain), ("collect", none, .plain),
    ("begin", some .null, .plain), ("end", some .null, .plain), ("log_dir", some .null, .plain),
    ("log_spliter", some .null, .plain), ("profile_seconds", none, .plain),
    ("http_timeout_secs", none, .plain)]

theorem reads : Reads decode [inspectionIdField.rule, dataDirField.rule, collectField.rule,
    windowBeginField.rule, windowEndField.rule, logDirField.rule, logSpliterField.rule,
    profileSecondsField.rule, httpTimeoutField.rule] parts where
  aligned _ := rfl
  decodes := by
    refine ⟨"InspectOptions", fun d o => ?_⟩
    cases o
    simp [-bind_pure_comp, decode, parts, Check.bind_eq_ok, Check.pure_eq_ok]

theorem kept : Kept toJson decode shape fun _ => True where
  suits := suits_record reads (by decide) fun _ =>
    .cons (fits_required (suits_plain _)) <| .cons (fits_required (suits_plain _)) <|
      .cons (fits_required (suits_plain _)) <| .cons fits_nullable <| .cons fits_nullable <|
      .cons fits_nullable <| .cons fits_nullable <| .cons (fits_required (suits_plain _)) <|
      .cons (fits_required (suits_plain _)) .nil
  written o _ := by
    have htime : ∀ o, optional Instant.decode (Json.optional Instant.toJson o).draft = .ok o :=
      optional_written Instant.written fun _ => nofun
    have hpath : ∀ o, optional path (Json.optional Json.string o).draft = .ok o :=
      optional_written (fun _ => rfl) fun _ => nofun
    exact reads.written (by decide) <| .cons (written_required rfl) <|
      .cons (written_required rfl) <| .cons (written_required rfl) <|
      .cons (written_nullable (htime o.windowBegin)) <|
      .cons (written_nullable (htime o.windowEnd)) <|
      .cons (written_nullable (hpath o.logDir)) <| .cons (written_nullable (hpath o.logSpliter)) <|
      .cons (written_required (word64_written o.profileSeconds)) <|
      .cons (written_required (word64_written o.httpTimeout)) .nil
  inWords o _ := by
    have htime : ∀ o, (Json.optional Instant.toJson o).InWords := inWords_optional Instant.inWords
    have hpath : ∀ o, (Json.optional Json.string o).InWords := inWords_optional fun _ => trivial
    exact ⟨trivial, trivial, trivial, htime o.windowBegin, htime o.windowEnd, hpath o.logDir,
      hpath o.logSpliter, inWords_natural o.profileSeconds.toNat_lt,
      inWords_natural o.httpTimeout.toNat_lt, trivial⟩

end Options

namespace RunRecord

/-- The times of a run as their record has them. -/
def parts (r : RunRecord) : List Part :=
  [⟨clusterNameField, r.clusterName⟩, ⟨createTimeField, r.createTime⟩,
    ⟨inspectTimeField, r.inspectTime⟩, ⟨endTimeField, r.endTime⟩]

/-- The end of a run that goes on may be left out. -/
def shape : Shape :=
  .record [("cluster_name", none, .plain), ("create_time", none, .plain),
    ("inspect_time", none, .plain), (endKey, some .null, .plain)]

theorem reads : Reads decode [clusterNameField.rule, createTimeField.rule, inspectTimeField.rule,
    endTimeField.rule] parts where
  aligned _ := rfl
  decodes := by
    refine ⟨"InspectionMeta", fun d r => ?_⟩
    cases r
    simp [-bind_pure_comp, decode, parts, Check.bind_eq_ok, Check.pure_eq_ok]

theorem kept : Kept toJson decode shape fun _ => True where
  suits := suits_record reads (by decide) fun _ =>
    .cons (fits_required (suits_plain _)) <| .cons (fits_required (suits_plain _)) <|
      .cons (fits_required (suits_plain _)) <| .cons fits_nullable .nil
  written r _ := reads.written (by decide) <| .cons (written_required rfl) <|
    .cons (written_required r.createTime.written) <|
    .cons (written_required r.inspectTime.written) <|
    .cons (written_nullable (optional_written Instant.written (fun _ => nofun) r.endTime)) .nil
  inWords r _ := ⟨trivial, trivial, trivial, inWords_optional Instant.inWords r.endTime, trivial⟩

end RunRecord

/-! ### The report -/

namespace Failure

/-- A failure as its record has it. -/
def parts (f : Failure) : List Part :=
  [⟨operationField, f.operation⟩, ⟨messageField, f.message⟩, ⟨preparationField, f.preparation⟩]

/-- A failure was not in preparation, if nothing else is said. -/
def shape : Shape :=
  .record [("operation", none, .plain), ("message", none, .plain),
    ("preparation", some (.bool false), .plain)]

theorem reads : Reads decode [operationField.rule, messageField.rule, preparationField.rule]
    parts where
  aligned _ := rfl
  decodes := by
    refine ⟨"OperationFailure", fun d f => ?_⟩
    cases f
    simp [-bind_pure_comp, -Bool.exists_bool, decode, parts, Check.bind_eq_ok, Check.pure_eq_ok]

theorem kept : Kept toJson decode shape fun _ => True where
  suits := suits_record reads (by decide) fun _ =>
    .cons (fits_required (suits_plain _)) <| .cons (fits_required (suits_plain _)) <|
      .cons (fits_defaulted rfl (suits_plain _)) .nil
  written _ _ := reads.written (by decide) <| .cons (written_required rfl) <|
    .cons (written_required rfl) <|
    .cons (written_defaulted rfl) .nil
  inWords _ _ := ⟨trivial, trivial, trivial, trivial⟩

end Failure

theorem GroupState.written : ∀ s : GroupState, decode (Json.string s.name).draft = .ok s
  | success | error => rfl

namespace GroupStatus

/-- The status of a group as its record has it. -/
def parts (s : GroupStatus) : List Part :=
  [⟨stateField, s.state⟩, ⟨totalField, s.total⟩, ⟨failedField, s.failed⟩,
    ⟨failuresField, s.failures⟩]

/-- Nothing failed, if nothing else is said. -/
def shape : Shape :=
  .record [("status", none, .plain), ("total", none, .plain), ("failed", none, .plain),
    ("errors", some (.array []), .list Failure.shape)]

/-- There are no more operations than can be counted. -/
structure InBounds (s : GroupStatus) : Prop where
  total : s.total < UInt64.size
  failed : s.failed < UInt64.size

theorem reads : Reads decode [stateField.rule, totalField.rule, failedField.rule,
    failuresField.rule] parts where
  aligned _ := rfl
  decodes := by
    refine ⟨"GroupStatus", fun d s => ?_⟩
    cases s
    simp [-bind_pure_comp, decode, parts, Check.bind_eq_ok, Check.pure_eq_ok]

theorem suits : Suits decode shape :=
  suits_record reads (by decide) fun _ =>
    .cons (fits_required (suits_plain _)) <| .cons (fits_required (suits_plain _)) <|
      .cons (fits_required (suits_plain _)) <|
      .cons (fits_defaulted rfl (suits_list Failure.kept.suits)) .nil

/-- The fields that are always written. -/
def counts (s : GroupStatus) : List (String × Json) :=
  [("status", .string s.state.name), ("total", .natural s.total), ("failed", .natural s.failed)]

/-- The field that is written if anything failed. -/
def errors (s : GroupStatus) : String × Json := ("errors", .array (s.failures.map Failure.toJson))

/-- The record of a status is that with its failures, or what is left of it if there are none. -/
theorem respelled_toJson (s : GroupStatus) :
    Respelled shape (.object (s.counts ++ [s.errors])) s.toJson := by
  unfold toJson
  by_cases h : s.failures.isEmpty = true
  · have herrors : s.errors = ("errors", .array []) := by
      rw [errors, List.isEmpty_iff.mp h, List.map_nil]
    rw [if_pos h, List.append_nil, herrors]
    exact .more (.reorder (List.perm_append_singleton _ _)) <|
      .more (.leaveOut (.tail _ (.tail _ (.tail _ (.head _))))) (.refl _)
  · rw [if_neg h]
    exact .refl _

theorem kept : Kept toJson decode shape InBounds where
  suits := suits
  written s hs := suits.respelled s.respelled_toJson <| reads.written (by decide) <|
    .cons (written_required s.state.written) <| .cons (written_required (count_written hs.total)) <|
    .cons (written_required (count_written hs.failed)) <|
    .cons (written_defaulted (list_written fun f _ => Failure.kept.written f trivial)) .nil
  inWords s hs := by
    have hcounts : ∀ e ∈ s.counts, e.2.InWords :=
      List.forall_mem_cons.mpr ⟨trivial, List.forall_mem_cons.mpr ⟨inWords_natural hs.total,
        List.forall_mem_singleton.mpr (inWords_natural hs.failed)⟩⟩
    have herrors : s.errors.2.InWords :=
      inWords_array.mpr (List.forall_mem_map.mpr fun f _ => Failure.kept.inWords f trivial)
    refine inWords_object.mpr (List.forall_mem_append.mpr ⟨hcounts, ?_⟩)
    split
    next => nofun
    next => exact List.forall_mem_singleton.mpr herrors

end GroupStatus

namespace Report

/-- A report as its record has it. -/
def parts (r : Report) : List Part :=
  [⟨inspectionIdField, r.inspectionId⟩, ⟨startedField, r.started⟩, ⟨finishedField, r.finished⟩,
    ⟨groupsField, r.groups⟩]

/-- A report is that of a run that goes on, if nothing else is said. -/
def shape : Shape :=
  .record [("inspection_id", none, .plain), ("started", none, .plain),
    ("finished", some .null, .plain), ("groups", none, .map GroupStatus.shape)]

/-- No group has more operations than can be counted. -/
def InBounds (r : Report) : Prop := ∀ e ∈ r.groups.entries, e.2.InBounds

theorem reads : Reads decode [inspectionIdField.rule, startedField.rule, finishedField.rule,
    groupsField.rule] parts where
  aligned _ := rfl
  decodes := by
    refine ⟨"StatusReport", fun d r => ?_⟩
    cases r
    simp [-bind_pure_comp, decode, parts, Check.bind_eq_ok, Check.pure_eq_ok]

theorem kept : Kept toJson decode shape InBounds where
  suits := suits_record reads (by decide) fun _ =>
    .cons (fits_required (suits_plain _)) <| .cons (fits_required (suits_plain _)) <|
      .cons fits_nullable <| .cons (fits_required (suits_keyed GroupStatus.kept.suits)) .nil
  written r hr := reads.written (by decide) <| .cons (written_required rfl) <|
    .cons (written_required r.started.written) <|
    .cons (written_nullable (optional_written Instant.written (fun _ => nofun) r.finished)) <|
    .cons (written_required (keyed_written fun e he => GroupStatus.kept.written e.2 (hr e he))) .nil
  inWords r hr := ⟨trivial, trivial, inWords_optional Instant.inWords r.finished,
    inWords_object.mpr (List.forall_mem_map.mpr fun e he => GroupStatus.kept.inWords e.2 (hr e he)),
    trivial⟩

end Report

/-! ### Statistics -/

namespace Statistics

/-- Statistics as their record has them. -/
def parts (s : Statistics) : List Part :=
  [⟨filesField, s.files⟩, ⟨bytesField, s.bytes⟩, ⟨secondsField, s.seconds⟩]

/-- Nothing may be left out. -/
def shape : Shape :=
  .record [("total_files", none, .plain), ("total_size_bytes", none, .plain),
    ("duration_secs", none, .plain)]

/-- There is no more than can be counted. -/
structure InBounds (s : Statistics) : Prop where
  files : s.files < UInt64.size
  bytes : s.bytes < UInt64.size

theorem reads : Reads decode [filesField.rule, bytesField.rule, secondsField.rule] parts where
  aligned _ := rfl
  decodes := by
    refine ⟨"CollectionStats", fun d s => ?_⟩
    cases s
    simp [-bind_pure_comp, decode, parts, Check.bind_eq_ok, Check.pure_eq_ok]

theorem kept : Kept toJson decode shape InBounds where
  suits := suits_record reads (by decide) fun _ =>
    .cons (fits_required (suits_plain _)) <| .cons (fits_required (suits_plain _)) <|
      .cons (fits_required (suits_plain _)) .nil
  written s hs := reads.written (by decide) <| .cons (written_required (count_written hs.files)) <|
    .cons (written_required (unsigned_written (Nat.le_pred_of_lt hs.bytes))) <|
    .cons (written_required (word64_written s.seconds)) .nil
  inWords s hs := ⟨inWords_natural hs.files, inWords_natural hs.bytes,
    inWords_natural s.seconds.toNat_lt, trivial⟩

end Statistics

/-! ### Every record -/

/-- A record is read from both of its writings, and from every text of a value that is the record
in other words. -/
structure ComesBack {α : Type} (toJson : α → Json) (decode : Decoder α) (shape : Shape) (r : α) :
    Prop where
  compact : ofText decode (toJson r).compact = .ok r
  pretty : ofText decode (toJson r).pretty = .ok r
  respelled : ∀ v, Respelled shape (toJson r) v → ∀ text : String, Spelled v text.toList →
    ofText decode text = .ok r ∧ ofBytes decode (Text.encode text) = .ok r

theorem Decoder.Kept.comesBack {α : Type} {toJson : α → Json} {decode : Decoder α} {shape : Shape}
    {bounds : α → Prop} (h : Kept toJson decode shape bounds) {r : α} (hr : bounds r) :
    ComesBack toJson decode shape r where
  compact := h.ofText hr (.refl _) (Json.spelled_compact (h.inWords r hr))
  pretty := h.ofText hr (.refl _) (Json.spelled_pretty (h.inWords r hr))
  respelled _ hv _ ht := ⟨h.ofText hr hv ht, h.ofBytes hr hv ht⟩

/-- **Every record of a run comes back**, in whatever words it is written. -/
theorem records_come_back :
    (∀ o : Options, ComesBack Options.toJson Options.decode Options.shape o) ∧
    (∀ r : RunRecord, ComesBack RunRecord.toJson RunRecord.decode RunRecord.shape r) ∧
    (∀ r : Report, r.InBounds → ComesBack Report.toJson Report.decode Report.shape r) ∧
    (∀ s : GroupStatus, s.InBounds →
      ComesBack GroupStatus.toJson GroupStatus.decode GroupStatus.shape s) ∧
    (∀ f : Failure, ComesBack Failure.toJson Failure.decode Failure.shape f) ∧
    (∀ s : Statistics, s.InBounds →
      ComesBack Statistics.toJson Statistics.decode Statistics.shape s) ∧
    (∀ t : Topology, ComesBack Topology.toJson Topology.decode Topology.shape t) ∧
    (∀ h : Host, ComesBack Host.toJson Host.decode Host.shape h) ∧
    ∀ i : Instance, ComesBack Instance.toJson Instance.decode Instance.shape i :=
  ⟨fun _ => Options.kept.comesBack trivial, fun _ => RunRecord.kept.comesBack trivial,
    fun _ => Report.kept.comesBack, fun _ => GroupStatus.kept.comesBack,
    fun _ => Failure.kept.comesBack trivial, fun _ => Statistics.kept.comesBack,
    fun _ => Topology.kept.comesBack trivial, fun _ => Host.kept.comesBack trivial,
    fun _ => Instance.kept.comesBack trivial⟩

/-- A service of a kind of its own. -/
def strangeService : Instance := ⟨.unknown, .exception, "", some 4000, none⟩

/-- A cluster of one host with that service. -/
def strangeCluster : Topology := ⟨"prod", .success, [⟨"10.0.0.1", "", .success, [strangeService]⟩]⟩

/-- The record of that cluster in other words: the hosts come first, each with a note of its own,
and nothing is said of users and of health. -/
def strangeClusterNoted : Json :=
  .object [("hosts", .array [.object [("note", .array [.natural 1, .null]),
    ("ip", .string "10.0.0.1"), ("components", .array [strangeService.toJson])]]),
    ("cluster_name", .string "prod")]

theorem respelled_strangeCluster :
    Respelled Topology.shape strangeCluster.toJson strangeClusterNoted :=
  -- The name of the cluster goes behind its hosts, and its status is left out.
  .more (.reorder (List.Perm.swap _ _ _)) <|
  .more (.leaveOut (.tail _ (.head _))) <|
  .more (.reorder (List.Perm.swap _ _ _)) <|
  -- The host gets a note, and its user and its status are left out.
  .more (host (.reorder (List.Perm.swap _ _ _))) <|
  .more (host (.leaveOut (.tail _ (.head _)))) <|
  .more (host (.reorder (List.Perm.swap _ _ _))) <|
  .more (host (.leaveOut (.tail _ (.tail _ (.head _))))) <|
  .more (host (.add (by decide))) (.refl _)
where
  host {v v' : Json} (h : Json.Respelling Host.shape v v') : Json.Respelling Topology.shape
      (.object [("hosts", .array [v]), ("cluster_name", .string "prod")])
      (.object [("hosts", .array [v']), ("cluster_name", .string "prod")]) :=
    .field (.tail _ (.tail _ (.head _))) (@Json.Respelling.item _ _ _ [] [] h)

/-- A group of as many operations as can be counted. -/
def fullGroup : GroupStatus := ⟨.success, 18446744073709551615, 0, []⟩

/-- The report of a run that took half a second. -/
def briefReport : Report where
  inspectionId := "run"
  started := ⟨1577836800, 0, by decide, by decide⟩
  finished := some ⟨1577836800, 500000000, by decide, by decide⟩
  groups := Keyed.ofList [("basic", fullGroup)]

theorem fullGroup_inBounds : fullGroup.InBounds := ⟨by decide, by decide⟩

theorem briefReport_inBounds : briefReport.InBounds := by
  intro e he
  rw [List.mem_singleton.mp he]
  exact fullGroup_inBounds

theorem records_come_back_brief :
    (fullGroup.InBounds ∧ ofText GroupStatus.decode fullGroup.toJson.pretty = .ok fullGroup) ∧
    (briefReport.InBounds ∧ ofText Report.decode briefReport.toJson.compact = .ok briefReport) ∧
    (Statistics.InBounds ⟨1, 18446744073709551615, 0⟩ ∧
      ofText Statistics.decode (Statistics.toJson ⟨1, 18446744073709551615, 0⟩).compact =
        .ok ⟨1, 18446744073709551615, 0⟩) ∧
    ofText Topology.decode strangeClusterNoted.pretty = .ok strangeCluster := by
  have hstatistics : Statistics.InBounds ⟨1, 18446744073709551615, 0⟩ := ⟨by decide, by decide⟩
  have hwords : strangeClusterNoted.InWords := by
    have hservice := Instance.kept.inWords strangeService trivial
    exact ⟨⟨⟨⟨inWords_natural (by decide), trivial, trivial⟩, trivial, ⟨hservice, trivial⟩,
      trivial⟩, trivial⟩, trivial, trivial⟩
  obtain ⟨-, -, report, group, -, statistics, topology, -⟩ := records_come_back
  exact ⟨⟨fullGroup_inBounds, (group _ fullGroup_inBounds).pretty⟩,
    ⟨briefReport_inBounds, (report _ briefReport_inBounds).compact⟩,
    ⟨hstatistics, (statistics _ hstatistics).compact⟩,
    ((topology _).respelled _ respelled_strangeCluster _ (Json.spelled_pretty hwords)).1⟩

end Inspection
