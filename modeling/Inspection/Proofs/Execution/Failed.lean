import Inspection.Proofs.Execution.Isolated
import Inspection.Proofs.FileTree.Rooted

/-!
# Execution — an operation that fails

An operation takes its hook, collects, and then puts what it has collected.  It stops at the first
step that fails, and the steps behind that one bear on nothing.  What it leaves then is the tree as
its hook left it, or the program that the collector has started; where a file could not be written,
directories may have appeared on the way to it, and where its device gave out, the front of it.

* `Collector.collect_tree`: what a collector changes.
* `Operation.run_of_stopped`, `Operation.run_of_passed`: an operation by the end of its hook.
* `Operation.tree_of_failure`: what an operation leaves that has failed.
* `Operation.failure_leaves_files`: an operation that fails changes no file, unless the device of
  its own gives out.
-/

namespace Inspection

open FileTree

/-! ### Hooks and collectors -/

/-- How an operation ends whose hook ends so, if it ends there. -/
def HookEnding.outcome? : HookEnding → Option Outcome
  | passed => none
  | refused chain => some (.failure (.hook (String.intercalate ": " chain)))
  | died text => some (.death text)

/-- How an operation ends whose collector yields this, if it ends there. -/
def Yield.outcome? : Yield → Option Outcome
  | bytes _ => none
  | failure e => some (.failure (.collection e))
  | death text => some (.death text)

/-- The program that a collector starts, and its arguments. -/
def Collector.program? : Collector → Option (String × List String)
  | remote c => some (RemoteCommand.program, c.arguments)
  | program path arguments => some (path, arguments)
  | _ => none

/-- A collector changes nothing itself. -/
theorem Collector.collect_tree (w : World) (tree : FileTree) (c : Collector) :
    (c.collect w tree).tree =
      match c.program? with
      | none => tree
      | some (path, arguments) => (w.execute tree path arguments).2 := by
  cases c with
  | http request =>
    unfold collect
    generalize fetch w request = fetched
    rfl
  | _ => rfl

/-- A hook does not change what a collector starts. -/
theorem Collector.program?_hold (value : Json) (c : Collector) :
    (c.hold value).program? = c.program? := by
  cases c <;> rfl

namespace Operation

section

variable (w : World) (tree : FileTree) {o : Operation}

/-- A hook sees the value that the collector holds, and nothing else of the operation. -/
theorem takeHook_congr {c : Collector} (s : Sink) (h : c.value = o.collector.value) :
    takeHook w tree { o with collector := c, sink := s } = o.takeHook w tree := by
  unfold takeHook
  cases o.hook with
  | none => rw [h]
  | some hook => rw [h]

/-- Where the hook does not pass, collector and sink bear on nothing. -/
theorem run_of_stopped {x : Outcome} (h : (o.takeHook w tree).ending.outcome? = some x)
    {c : Collector} (hc : c.value = o.collector.value) (s : Sink) :
    (run w tree { o with collector := c, sink := s }).outcome = x ∧
      (run w tree { o with collector := c, sink := s }).tree = (o.takeHook w tree).tree ∧
      (run w tree { o with collector := c, sink := s }).requested = [] := by
  unfold run
  rw [takeHook_congr w tree s hc]
  generalize o.takeHook w tree = hooked at h
  obtain ⟨value, later, notes, ending⟩ := hooked
  cases ending with
  | passed => cases h
  | refused chain | died text =>
    cases h
    exact ⟨rfl, rfl, rfl⟩

theorem run_of_passed (h : (o.takeHook w tree).ending = .passed) :
    ((o.run w tree).outcome, (o.run w tree).tree, (o.run w tree).requested) =
      collectAndPut w (o.takeHook w tree).tree (o.collector.hold (o.takeHook w tree).value)
        o.sink := by
  unfold run
  generalize o.takeHook w tree = hooked at h
  obtain ⟨value, later, notes, ending⟩ := hooked
  cases h
  rfl

/-- Where nothing is collected, the sink bears on nothing. -/
theorem run_of_uncollected (h : (o.takeHook w tree).ending = .passed) {x : Outcome}
    (hx : (o.collected w tree).yield.outcome? = some x) :
    (o.run w tree).outcome = x ∧ (o.run w tree).tree = (o.collected w tree).tree := by
  have hrun := run_of_passed w tree h
  simp only [collectAndPut] at hrun
  unfold collected at hx ⊢
  generalize (o.collector.hold (o.takeHook w tree).value).collect w (o.takeHook w tree).tree =
    collected at hrun hx
  cases hyield : collected.yield with
  | bytes content =>
    rw [hyield] at hx
    cases hx
  | failure e | death text =>
    rw [hyield] at hx
    cases hx
    simp only [hyield, Prod.mk.injEq] at hrun
    exact ⟨hrun.1, hrun.2.1⟩

/-- What is collected is put as it is. -/
theorem run_of_collected (h : (o.takeHook w tree).ending = .passed) {content : List UInt8}
    (hc : (o.collected w tree).yield = .bytes content) :
    (o.run w tree).outcome =
        (match (o.sink.put (o.collected w tree).tree content).1 with
        | .ok () => .success
        | .error e => .failure (.sink e)) ∧
      (o.run w tree).tree = (o.sink.put (o.collected w tree).tree content).2 := by
  have hrun := run_of_passed w tree h
  unfold collected at hc ⊢
  simp only [collectAndPut, hc] at hrun
  generalize o.sink.put ((o.collector.hold (o.takeHook w tree).value).collect w
    (o.takeHook w tree).tree).tree content = put at hrun ⊢
  obtain ⟨result, later⟩ := put
  cases result with
  | ok u | error e =>
    simp only [Prod.mk.injEq] at hrun
    exact ⟨hrun.1, hrun.2.1⟩

/-- What an operation gathers is left by its hook, or by the program that it starts. -/
theorem gathered_eq (o : Operation) :
    o.gathered w tree =
      match (o.takeHook w tree).ending, o.collector.program? with
      | .passed, some (path, arguments) =>
        (w.execute (o.takeHook w tree).tree path arguments).2
      | _, _ => (o.takeHook w tree).tree := by
  unfold gathered collected
  rw [Collector.collect_tree, Collector.program?_hold]
  cases (o.takeHook w tree).ending with
  | passed => cases o.collector.program? <;> rfl
  | refused chain | died text => rfl

/-- **What an operation leaves that has failed**: the tree as it was before anything was put, or
what is left of a file that was not written. -/
theorem tree_of_failure {e : OperationError} (h : (o.run w tree).outcome = .failure e) :
    (∀ path cause, e ≠ .sink (.write path cause)) ∧ (o.run w tree).tree = o.gathered w tree ∨
      ∃ path bytes, e = .sink (.write path none) ∧ o.sink.path? = some path ∧
        o.prepare w tree = .ok bytes ∧
        (GrowsHollow (fun _ => False) (o.gathered w tree) (o.run w tree).tree ∨
          ∃ l, BrokenOff (o.gathered w tree) path bytes (o.run w tree).tree l) := by
  rcases run_cases w tree o with ⟨htree, hp | hs⟩ | ⟨bytes, path, hbytes, hpath, houtcome, htree⟩
  · rw [h] at hp
    refine .inl ⟨fun path cause he => ?_, htree⟩
    exact (prepare_eq_error w tree o hp).2 path cause (congrArg Outcome.failure he)
  · cases h.symm.trans hs
  · rw [h] at houtcome
    split at houtcome
    · cases houtcome
    next hw =>
      cases houtcome
      rw [htree]
      exact .inr ⟨path, bytes, rfl, hpath, hbytes, write_of_failed (by simpa using hw)⟩

end

/-- The hook of an operation, and programs, keep trees rooted. -/
def KeepsRooted (w : World) (o : Operation) : Prop :=
  (∀ tree path arguments, tree.Rooted → (w.execute tree path arguments).2.Rooted) ∧
    ∀ tree, tree.Rooted → (o.takeHook w tree).tree.Rooted

section

variable {w : World} {o : Operation} (keeps : o.KeepsRooted w) {tree : FileTree}
  (rooted : tree.Rooted)
include keeps rooted

theorem rooted_gathered : (o.gathered w tree).Rooted := by
  have hhook := keeps.2 tree rooted
  rw [gathered_eq]
  split
  · exact keeps.1 _ _ _ hhook
  · exact hhook

/-- Then so does the operation, whether or not it fails. -/
theorem rooted_run : (o.run w tree).tree.Rooted := by
  rcases run_cases w tree o with ⟨htree, -⟩ | ⟨bytes, path, -, -, -, htree⟩
  · rw [htree]
    exact rooted_gathered keeps rooted
  · rw [htree]
    exact (rooted_gathered keeps rooted).write path bytes

end

end Operation

/-- An operation that starts a program.  Its path climbs out of a directory that is missing, and
goes through a file. -/
def climbingOperation : Operation :=
  ⟨.program "/bin/own" [], .file "new/../old/log",
    some fun _ tree value => ⟨value, tree, ["begin"], .passed⟩⟩

/-- The same with a hook that fails. -/
def refusingOperation : Operation :=
  { climbingOperation with
    hook := some fun _ tree value => ⟨value, tree, ["begin"], .refused ["no clock", "unset"]⟩ }

/-- What the program leaves. -/
def ownTree : FileTree := homeTree.set ["home", "own"] (.file [])

theorem ownTree_write (content : List UInt8) : ownTree.write "new/../old/log" content =
    (ownTree.set ["home", "new"] .directory, false) := by
  have hpath : directoryOf "new/../old/log" = [.normal "new", .up, .normal "old"] := by decide
  have htext : isPathText ((Path.parent? "new/../old/log").getD "") = true := by decide
  have hnamed : isName "new" = true ∧ isName "old" = true := by decide
  rw [write, htext, hpath]
  simp [makeDirectories, makeDirectoriesBack, makeDirectory, isDirectory, find, walk, node?, hnamed,
    ownTree, homeTree, FileTree.set, setNode]

end Inspection
