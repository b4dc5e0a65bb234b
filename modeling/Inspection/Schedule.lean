import Inspection.Execution

/-!
# Schedule

How the operations of a plan take turns.  All operations of a group wait for one of its permits,
run while they hold it, and end in success, in a failure or without an answer; each end gives the
permit back.  A group is entered when the one before has ended, and it ends with its last
operation.  Which operation moves next is left open, and so is how it ends: a step is any event
that can happen.

* `start_free`, `finish_free`: starting takes one permit, and ending gives one back.
-/

namespace Inspection

/-- What an operation does. -/
inductive Phase
  | waiting
  | running
  | ended (outcome : Outcome)
  deriving DecidableEq

/-- A group while it is executed: its operations and what they do, the permits that nobody holds,
and the ends that came about, one after another. -/
structure ActiveGroup where
  category : Category
  tasks : List (Operation × Phase)
  free : Nat
  ends : List (String × Outcome)

/-- A moment of an execution: the report of the groups that have ended, the group that is executed
if there is one, and the groups to come. -/
structure Schedule where
  report : Report
  active : Option ActiveGroup
  ahead : List (Category × List Operation)

namespace ActiveGroup

/-- A group that is entered. -/
def enter (permits : Nat) (c : Category) (os : List Operation) : ActiveGroup :=
  ⟨c, os.map fun o => (o, .waiting), permits, []⟩

/-- The operations that run. -/
def running (g : ActiveGroup) : Nat := g.tasks.countP (·.2 = .running)

/-- Whether every operation has ended. -/
def isOver (g : ActiveGroup) : Bool := g.ends.length = g.tasks.length

/-- An operation takes a permit and starts. -/
def start (g : ActiveGroup) (i : Nat) : Option ActiveGroup :=
  match g.tasks[i]?, g.free with
  | some (o, .waiting), free + 1 =>
    some { g with tasks := g.tasks.set i (o, .running), free }
  | _, _ => none

/-- An operation ends and gives its permit back. -/
def finish (g : ActiveGroup) (i : Nat) (outcome : Outcome) : Option ActiveGroup :=
  match g.tasks[i]? with
  | some (o, .running) =>
    some { g with
      tasks := g.tasks.set i (o, .ended outcome)
      free := g.free + 1
      ends := g.ends ++ [(o.label, outcome)] }
  | _ => none

theorem start_free {g h : ActiveGroup} {i : Nat} (started : g.start i = some h) :
    h.free + 1 = g.free := by
  unfold start at started
  split at started
  · rename_i free
    cases started
    exact free.symm
  · cases started

theorem finish_free {g h : ActiveGroup} {i : Nat} {outcome : Outcome}
    (finished : g.finish i outcome = some h) : h.free = g.free + 1 := by
  unfold finish at finished
  split at finished
  · cases finished
    rfl
  · cases finished

end ActiveGroup

namespace Schedule

/-- What can happen. -/
inductive Event
  /-- The next group is entered, or left aside if it is empty. -/
  | enter
  | start (task : Nat)
  | finish (task : Nat) (outcome : Outcome)
  /-- A group whose operations have all ended is reported. -/
  | leave

/-- The begin of an execution. -/
def ofPlan (p : Plan) (now : Instant) : Schedule :=
  ⟨Report.start p.inspectionId now, none, p.groups⟩

/-- Whether nothing is left to do. -/
def isOver (s : Schedule) : Bool := s.active.isNone && s.ahead.isEmpty

/-- What an event makes of a schedule, if it can happen.  A group is entered with the permits that
are given, however many.  A counter that holds no more than so many would refuse to begin there, and
no operation would be run; that refusal is left out. -/
def step (permits : Nat) (s : Schedule) : Event → Option Schedule
  | .enter =>
    match s.active, s.ahead with
    | none, (c, os) :: ahead =>
      if os.isEmpty then some { s with ahead }
      else some { s with active := some (.enter permits c os), ahead }
    | _, _ => none
  | .start i => (s.active.bind (·.start i)).map fun g => { s with active := some g }
  | .finish i outcome =>
    (s.active.bind (·.finish i outcome)).map fun g => { s with active := some g }
  | .leave => (s.active.filter (·.isOver)).map fun g =>
    { s with
      report := s.report.insert g.category (GroupStatus.ofOutcomes g.ends), active := none }

end Schedule

end Inspection
