import Inspection.Execution
import Inspection.Proofs.Check
import Inspection.Proofs.FileTree.Write

/-!
# Execution — one operation

An operation collects bytes, and then puts them where they go.  Where programs are *given* and its
hook is *still*, what is collected does not depend on any file, and the tree changes only where
programs write.

* `run_eq`: what comes of an operation, by what it prepares.
* `prepare_congr`: what is prepared is the same in every tree.
* `succeeds_iff_of_path`: an operation with a file ends by whether the file can be opened and keeps
  all.
* `run_grows`, `holds_run`: what it changes, and what is there once its file was opened.
-/

namespace Inspection

open FileTree Check

/-- Programs are given: what they print does not depend on any file, and what they change lies in
places of their own, apart from directories that they make on the way. -/
structure World.Given (w : World) (own : Location → Prop) : Prop where
  result : ∀ tree later program arguments,
    (w.execute tree program arguments).1 = (w.execute later program arguments).1
  grows : ∀ tree program arguments,
    Grows own (fun l => ∃ m, own m ∧ Before m l) tree (w.execute tree program arguments).2

/-- What a sink makes of bytes: a document over several lines, or the bytes as they are. -/
def Sink.Renders : Sink → List UInt8 → List UInt8 → Prop
  | .json _, content, bytes =>
    ∃ value, Json.read content = .ok value ∧ bytes = Text.encode value.pretty
  | .file _, content, bytes | .discard, content, bytes => bytes = content

/-- Of two locations, neither is on the way to the other, and they are not the same. -/
def Apart (l m : Location) : Prop := ¬l <+: m ∧ ¬m <+: l

instance (l m : Location) : Decidable (Apart l m) := inferInstanceAs (Decidable (_ ∧ _))

theorem Apart.symm {l m : Location} (h : Apart l m) : Apart m l := ⟨h.2, h.1⟩

namespace Operation

/-- The hook of an operation is still: it neither looks at files nor changes any. -/
def IsStill (w : World) (o : Operation) : Prop :=
  ∃ value notes ending, ∀ tree, o.takeHook w tree = ⟨value, tree, notes, ending⟩

theorem isStill_of_no_hook {o : Operation} (h : o.hook = none) (w : World) : o.IsStill w :=
  ⟨o.collector.value, [], .passed, fun tree => by rw [takeHook, h]⟩

/-- What an operation collects, if its hook passes: with the collector that the hook leaves, in the
tree that it leaves. -/
def collected (w : World) (tree : FileTree) (o : Operation) : Collected :=
  (o.collector.hold (o.takeHook w tree).value).collect w (o.takeHook w tree).tree

/-- The tree after an operation has collected, or after a hook that does not pass. -/
def gathered (w : World) (tree : FileTree) (o : Operation) : FileTree :=
  match (o.takeHook w tree).ending with
  | .passed => (o.collected w tree).tree
  | .refused _ | .died _ => (o.takeHook w tree).tree

/-- The bytes that an operation collects, if its hook passes. -/
def collected? (w : World) (tree : FileTree) (o : Operation) : Option (List UInt8) :=
  match (o.takeHook w tree).ending, (o.collected w tree).yield with
  | .passed, .bytes content => some content
  | _, _ => none

/-- The bytes that an operation puts, or how it ends without. -/
def prepare (w : World) (tree : FileTree) (o : Operation) : Except Outcome (List UInt8) :=
  match (o.takeHook w tree).ending with
  | .refused chain => .error (.failure (.hook (String.intercalate ": " chain)))
  | .died text => .error (.death text)
  | .passed =>
    match (o.collected w tree).yield with
    | .death text => .error (.death text)
    | .failure e => .error (.failure (.collection e))
    | .bytes content =>
      match o.sink with
      | .json path =>
        (Sink.tidy content).mapError fun reason => .failure (.sink (.invalidJson path reason))
      | .file _ | .discard => .ok content

section

variable (w : World) (tree : FileTree) (o : Operation)

/-- An operation gathers, and then writes what it has prepared, if anything. -/
theorem run_eq : ((o.run w tree).outcome, (o.run w tree).tree) =
    match o.prepare w tree with
    | .error x => (x, o.gathered w tree)
    | .ok bytes =>
      match o.sink.path? with
      | none => (.success, o.gathered w tree)
      | some path =>
        (if ((o.gathered w tree).write path bytes).2 then .success
          else .failure (.sink (.write path none)),
          ((o.gathered w tree).write path bytes).1) := by
  unfold run prepare gathered collected
  generalize o.takeHook w tree = hooked
  simp only
  cases hooked.ending with
  | refused chain => rfl
  | died text => rfl
  | passed =>
    simp only [collectAndPut]
    generalize (o.collector.hold hooked.value).collect w hooked.tree = collected
    cases collected.yield with
    | death text => rfl
    | failure e => rfl
    | bytes content =>
      cases o.sink with
      | discard => rfl
      | file path =>
        simp only [Sink.put, Sink.writeFile, Sink.path?]
        cases collected.tree.write path content with
        | mk later ok => cases ok <;> rfl
      | json path =>
        simp only [Sink.put, Sink.writeFile, Sink.path?]
        cases Sink.tidy content with
        | error reason => rfl
        | ok tidied =>
          simp only [Except.mapError]
          cases collected.tree.write path tidied with
          | mk later ok => cases ok <;> rfl

/-- What comes of an operation that puts nothing into a file: all depends on what it prepares. -/
theorem run_of_no_file {x : Outcome}
    (h : o.prepare w tree = .error x ∨ x = .success ∧ o.sink.path? = none ∧
      ∃ bytes, o.prepare w tree = .ok bytes) :
    (o.run w tree).outcome = x ∧ (o.run w tree).tree = o.gathered w tree := by
  have heq := run_eq w tree o
  rcases h with h | ⟨rfl, hnone, bytes, h⟩
  · rw [h] at heq
    exact Prod.mk.inj heq
  · rw [h, hnone] at heq
    exact Prod.mk.inj heq

theorem run_of_path {bytes : List UInt8} {path : String} (h : o.prepare w tree = .ok bytes)
    (hpath : o.sink.path? = some path) :
    (o.run w tree).outcome =
        (if ((o.gathered w tree).write path bytes).2 then .success
          else .failure (.sink (.write path none))) ∧
      (o.run w tree).tree = ((o.gathered w tree).write path bytes).1 := by
  have heq := run_eq w tree o
  rw [h, hpath] at heq
  exact Prod.mk.inj heq

/-- An operation leaves what it has gathered, or comes to write its file. -/
theorem run_cases :
    (o.run w tree).tree = o.gathered w tree ∧
        (o.prepare w tree = .error (o.run w tree).outcome ∨ (o.run w tree).outcome = .success) ∨
      ∃ bytes path, o.prepare w tree = .ok bytes ∧ o.sink.path? = some path ∧
        (o.run w tree).outcome =
          (if ((o.gathered w tree).write path bytes).2 then .success
            else .failure (.sink (.write path none))) ∧
        (o.run w tree).tree = ((o.gathered w tree).write path bytes).1 := by
  cases h : o.prepare w tree with
  | error x =>
    obtain ⟨houtcome, htree⟩ := run_of_no_file w tree o (.inl h)
    exact .inl ⟨htree, .inl (congrArg _ houtcome.symm)⟩
  | ok bytes =>
    cases hpath : o.sink.path? with
    | none =>
      obtain ⟨houtcome, htree⟩ := run_of_no_file w tree o (.inr ⟨rfl, hpath, bytes, h⟩)
      exact .inl ⟨htree, .inr houtcome⟩
    | some path => exact .inr ⟨bytes, path, rfl, rfl, run_of_path w tree o h hpath⟩

/-- What is not prepared has failed, and not since a file could not be written. -/
theorem prepare_eq_error {x : Outcome} (h : o.prepare w tree = .error x) :
    x ≠ .success ∧ ∀ path cause, x ≠ .failure (.sink (.write path cause)) := by
  unfold prepare at h
  split at h
  · cases h
    exact ⟨by rintro ⟨⟩, by rintro _ _ ⟨⟩⟩
  · cases h
    exact ⟨by rintro ⟨⟩, by rintro _ _ ⟨⟩⟩
  · split at h
    · cases h
      exact ⟨by rintro ⟨⟩, by rintro _ _ ⟨⟩⟩
    · cases h
      exact ⟨by rintro ⟨⟩, by rintro _ _ ⟨⟩⟩
    · split at h
      · obtain ⟨reason, -, rfl⟩ := mapError_eq_error.mp h
        exact ⟨by rintro ⟨⟩, by rintro _ _ ⟨⟩⟩
      · cases h
      · cases h

theorem prepared_of_success (hs : (o.run w tree).outcome = .success) :
    ∃ bytes, o.prepare w tree = .ok bytes := by
  cases h : o.prepare w tree with
  | error x =>
    have hx := (run_of_no_file w tree o (.inl h)).1
    exact absurd (hx.symm.trans hs) (prepare_eq_error w tree o h).1
  | ok bytes => exact ⟨bytes, rfl⟩

/-- What is prepared is what has been collected, or the document that it is. -/
theorem prepare_eq_ok {bytes : List UInt8} (h : o.prepare w tree = .ok bytes) :
    ∃ content, o.collected? w tree = some content ∧ o.sink.Renders content bytes := by
  unfold prepare at h
  unfold collected?
  split at h
  · cases h
  · cases h
  next hending =>
    rw [hending]
    split at h
    · cases h
    · cases h
    next content hyield =>
      rw [hyield]
      refine ⟨content, rfl, ?_⟩
      split at h
      next path hsink =>
        obtain ⟨value, hread, he⟩ := map_eq_ok.mp (mapError_eq_ok.mp h)
        rw [hsink]
        exact ⟨value, hread, he.symm⟩
      next path hsink =>
        rw [hsink]
        exact (Except.ok.inj h).symm
      next hsink =>
        rw [hsink]
        exact (Except.ok.inj h).symm

end

section

variable {w : World} {own : Location → Prop} (given : w.Given own)
include given

theorem collect_yield_eq (tree later : FileTree) (c : Collector) :
    (c.collect w tree).yield = (c.collect w later).yield := by
  cases c with
  | remote command =>
    simp only [Collector.collect, Collector.run]
    rw [given.result tree later]
  | program path arguments =>
    simp only [Collector.collect, Collector.run]
    rw [given.result tree later]
  | _ => simp only [Collector.collect]

theorem collect_grows (tree : FileTree) (c : Collector) :
    Grows own (fun l => ∃ m, own m ∧ Before m l) tree (c.collect w tree).tree := by
  cases c with
  | remote command => exact given.grows ..
  | program path arguments => exact given.grows ..
  | _ =>
    simp only [Collector.collect]
    exact .refl ..

variable {o : Operation} (still : o.IsStill w)
include still

/-- What an operation prepares is the same in every tree. -/
theorem prepare_congr (tree later : FileTree) : o.prepare w tree = o.prepare w later := by
  obtain ⟨value, notes, ending, hhook⟩ := still
  unfold prepare collected
  rw [hhook tree, hhook later]
  simp only
  rw [collect_yield_eq given tree later]

/-- Gathering changes the tree only where programs write. -/
theorem gathered_grows (tree : FileTree) :
    Grows own (fun l => ∃ m, own m ∧ Before m l) tree (o.gathered w tree) := by
  obtain ⟨value, notes, ending, hhook⟩ := still
  unfold gathered collected
  rw [hhook tree]
  cases ending with
  | passed => exact collect_grows given tree _
  | refused chain => exact .refl ..
  | died text => exact .refl ..

end

/-! ### What one operation does -/

/-- The location of the file that an operation writes. -/
def location? (working : Location) (o : Operation) : Option Location :=
  o.sink.path?.map (Path.locate working)

theorem location?_of_path {o : Operation} {path : String} (h : o.sink.path? = some path)
    (working : Location) : o.location? working = some (Path.locate working path) := by
  rw [location?, h, Option.map_some]

/-- An operation has come to open its file: it has prepared bytes, and the file can be opened. -/
def Opens (w : World) (tree : FileTree) (o : Operation) : Prop :=
  ∃ bytes path, o.prepare w tree = .ok bytes ∧ o.sink.path? = some path ∧ Writable tree path

/-- The file of an operation, if it has one, can be reached by names only, and lies apart from where
programs write; and its hook is still. -/
structure Placed (w : World) (own : Location → Prop) (tree : FileTree) (o : Operation) : Prop where
  still : o.IsStill w
  fits : ∀ path, o.sink.path? = some path → Fits tree path
  foreign : ∀ l, o.location? tree.working = some l → ∀ m, own m → Apart m l

section

variable {w : World} {own : Location → Prop} (given : w.Given own) {tree : FileTree} {o : Operation}
  (placed : o.Placed w own tree)
include given placed

theorem placed_gathered {path : String} (hpath : o.sink.path? = some path) :
    Fits (o.gathered w tree) path ∧ (Writable (o.gathered w tree) path ↔ Writable tree path) := by
  have hforeign : ∀ m, own m → Apart m (Path.locate tree.working path) :=
    placed.foreign _ (location?_of_path hpath _)
  have hown : ∀ l, l <+: Path.locate tree.working path → ¬own l :=
    fun l hl ho => (hforeign l ho).1 hl
  have hgrows := gathered_grows given placed.still tree
  refine ⟨(placed.fits path hpath).of_grows hgrows hown, writable_iff_of_grows hgrows hown ?_⟩
  rintro ⟨m, hm, hbefore⟩
  exact (hforeign m hm).2 hbefore.1

theorem write_gathered_succeeds_iff {path : String} (hpath : o.sink.path? = some path)
    (bytes : List UInt8) : ((o.gathered w tree).write path bytes).2 = true ↔
      Writable tree path ∧ tree.kept (Path.locate tree.working path) bytes = bytes := by
  obtain ⟨hfits, hwritable⟩ := placed_gathered given placed hpath
  have hgrows := gathered_grows given placed.still tree
  rw [write_succeeds_iff hfits, hwritable, hgrows.kept_eq, hgrows.working]

/-- **An operation with a file** succeeds where the file can be opened and keeps all. -/
theorem succeeds_iff_of_path {bytes : List UInt8} {path : String}
    (h : o.prepare w tree = .ok bytes) (hpath : o.sink.path? = some path) :
    (o.run w tree).outcome = .success ↔
      Writable tree path ∧ tree.kept (Path.locate tree.working path) bytes = bytes := by
  rw [(run_of_path w tree o h hpath).1, ← write_gathered_succeeds_iff given placed hpath]
  split
  next hw => simp [hw]
  next hw => simp [hw]

/-- An operation ends the same in two trees in which its file can be opened, or in neither, and the
device takes as much. -/
theorem run_outcome_congr {later : FileTree} (placed' : o.Placed w own later)
    (hroom : later.room = tree.room) (hworking : later.working = tree.working)
    (hw : ∀ path, o.sink.path? = some path → (Writable later path ↔ Writable tree path)) :
    (o.run w later).outcome = (o.run w tree).outcome := by
  have hsame := prepare_congr given placed.still later tree
  cases h : o.prepare w tree with
  | error x =>
    rw [(run_of_no_file w later o (.inl (hsame.trans h))).1, (run_of_no_file w tree o (.inl h)).1]
  | ok bytes =>
    have h' := hsame.trans h
    cases hpath : o.sink.path? with
    | none =>
      rw [(run_of_no_file w later o (.inr ⟨rfl, hpath, bytes, h'⟩)).1,
        (run_of_no_file w tree o (.inr ⟨rfl, hpath, bytes, h⟩)).1]
    | some path =>
      have hkept : later.kept (Path.locate later.working path) bytes =
          tree.kept (Path.locate tree.working path) bytes := by
        rw [kept, kept, hroom, hworking]
      have hwritten : ((o.gathered w later).write path bytes).2 =
          ((o.gathered w tree).write path bytes).2 := by
        rw [Bool.eq_iff_iff, write_gathered_succeeds_iff given placed hpath,
          write_gathered_succeeds_iff given placed' hpath, hw path hpath, hkept]
      rw [(run_of_path w later o h' hpath).1, (run_of_path w tree o h hpath).1, hwritten]

/-- An operation changes only what programs write, and its file if it comes to open it. -/
theorem run_grows :
    Grows (fun l => own l ∨ o.Opens w tree ∧ o.location? tree.working = some l)
      (fun l => ∃ m, (own m ∨ o.location? tree.working = some m) ∧ Before m l)
      tree (o.run w tree).tree := by
  have hgathered : Grows
      (fun l => own l ∨ o.Opens w tree ∧ o.location? tree.working = some l)
      (fun l => ∃ m, (own m ∨ o.location? tree.working = some m) ∧ Before m l)
      tree (o.gathered w tree) :=
    (gathered_grows given placed.still tree).mono (fun l => .inl)
      fun l _ ⟨m, hm, hb⟩ => ⟨m, .inl hm, hb⟩
  rcases run_cases w tree o with ⟨htree, -⟩ | ⟨bytes, path, h, hpath, -, htree⟩
  · rw [htree]
    exact hgathered
  · obtain ⟨hfits, hwritable⟩ := placed_gathered given placed hpath
    have hlocation := location?_of_path hpath tree.working
    have hwrite := write_grows hfits bytes
    rw [hgathered.working] at hwrite
    rw [htree]
    refine hgathered.trans (hwrite.mono ?_ fun l _ hb => ⟨_, .inr hlocation, hb⟩)
    rintro l ⟨hw, rfl⟩
    exact .inr ⟨⟨bytes, path, h, hpath, hwritable.mp hw⟩, hlocation⟩

/-- Where an operation has opened its file, what the file has kept is there. -/
theorem holds_run {bytes : List UInt8} {path : String} (h : o.prepare w tree = .ok bytes)
    (hpath : o.sink.path? = some path) (hw : Writable tree path) :
    Holds (o.run w tree).tree path (tree.kept (Path.locate tree.working path) bytes) := by
  obtain ⟨hfits, hwritable⟩ := placed_gathered given placed hpath
  have hgrows := gathered_grows given placed.still tree
  rw [(run_of_path w tree o h hpath).2, ← hgrows.kept_eq, ← hgrows.working]
  exact holds_write hfits (hwritable.mpr hw) bytes

end

end Operation

end Inspection
