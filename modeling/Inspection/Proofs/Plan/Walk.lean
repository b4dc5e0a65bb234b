import Inspection.Plan.Build

/-!
# Plan — the walk, place by place

The walk over a cluster comes by *places*: every host, and behind it the instances on it, in
order.  What a visit gives is told once (`visit_eq`): the place's own findings, which no question
bears on, then those of its question about databases as long as none was asked, and those of its
question about metrics as long as none was asked.

A *view* is a way of looking at findings that keeps their order.  Through a view,

* `View.walk_each`: what does not depend on questions is gathered place by place;
* `View.walk_once`: what comes of a question asked once is that of the first place that can ask.
-/

namespace Inspection

namespace Findings

@[ext] theorem ext {a b : Findings} (he : a.entries = b.entries) (hw : a.warnings = b.warnings)
    (hq : a.queries = b.queries) : a = b := by
  cases a
  cases b
  simp_all

theorem append_assoc (a b c : Findings) : a ++ b ++ c = a ++ (b ++ c) := by
  ext1 <;> simp

@[simp] theorem empty_append (a : Findings) : empty ++ a = a := by
  ext1 <;> simp [empty]

@[simp] theorem append_empty (a : Findings) : a ++ empty = a := by
  ext1 <;> simp [empty]

@[simp] theorem operations_nil (c : Category) : operations c [] = empty := rfl

theorem operations_append (c : Category) (os more : List Operation) :
    operations c (os ++ more) = operations c os ++ operations c more := by
  ext1 <;> simp [operations]

end Findings

/-! ### Servers -/

namespace Host

/-- The address at which an instance is asked for databases: a healthy TiDB server, by its status
port or else its main port. -/
def databaseServer? (h : Host) (i : Instance) : Option String :=
  if i.isHealthy ∧ i.kind = .tidb then
    (i.statusPort.or i.port).map fun port => addressOf h.ip (some port)
  else none

/-- The address at which an instance is asked for metrics: a healthy Prometheus server, by its
main port. -/
def metricServer? (h : Host) (i : Instance) : Option String :=
  if i.isHealthy ∧ i.kind = .prometheus then i.port.map fun port => addressOf h.ip (some port)
  else none

end Host

namespace Planning

/-! ### Places -/

/-- What the walk comes by: a host, or an instance on one. -/
inductive Place
  | host (h : Host)
  | service (h : Host) (i : Instance)

namespace Place

/-- A host and then its instances, in order. -/
def onHost (h : Host) : List Place := .host h :: h.instances.map (.service h)

/-- The places of a cluster. -/
def all (hosts : List Host) : List Place := hosts.flatMap onHost

/-- What a place gives, whatever was asked for. -/
def own (s : Scope) : Place → Findings
  | .host h =>
    .warnIf (h.status ≠ .success) (.hostErrors h.ip) ++
      .operations .basic (if s.spec.contains .basic then Artifact.hostState s.root h else [])
  | .service h i =>
    if i.isHealthy then
      match i.kind with
      | .tidb => profile s h i ++ configuration s h i
      | .tikv | .pd => configuration s h i ++ profile s h i
      | _ => .empty
    else .warn [.skipped i.kind h.ip i.status]

/-- What a place gives of databases, as long as none were asked for. -/
def databases (s : Scope) : Place → Findings
  | .host _ => .empty
  | .service h i =>
    if s.spec.contains .dbinfo ∧ i.isHealthy ∧ i.kind = .tidb then (Planning.databases s h i).1
    else .empty

/-- What a place gives of metrics, as long as none were asked for. -/
def metrics (s : Scope) : Place → Findings
  | .host _ => .empty
  | .service h i =>
    if i.isHealthy ∧ i.kind = .prometheus then
      s.window.elim .empty fun w => (Planning.metrics s w h i).1
    else .empty

/-- The address at which a place is asked for databases. -/
def databaseServer? : Place → Option String
  | .host _ => none
  | .service h i => Host.databaseServer? h i

/-- The address at which a place is asked for metrics. -/
def metricServer? : Place → Option String
  | .host _ => none
  | .service h i => Host.metricServer? h i

/-- Comes by a place. -/
def visit (s : Scope) : Place → Asked → Findings × Asked
  | .host h, asked => (own s (.host h), asked)
  | .service h i, asked => Planning.visit s h i asked

end Place

/-- Comes by places in order. -/
def walk (s : Scope) : List Place → Asked → Findings × Asked
  | [], asked => (.empty, asked)
  | p :: rest, asked =>
    let (found, asked) := p.visit s asked
    let (more, asked) := walk s rest asked
    (found ++ more, asked)

theorem walk_append (s : Scope) : ∀ (ps more : List Place) (asked : Asked),
    walk s (ps ++ more) asked =
      ((walk s ps asked).1 ++ (walk s more (walk s ps asked).2).1,
        (walk s more (walk s ps asked).2).2)
  | [], more, asked => by simp [walk]
  | p :: ps, more, asked => by
    simp only [List.cons_append, walk, walk_append s ps more, Findings.append_assoc]

theorem visitAll_eq_walk (s : Scope) (h : Host) : ∀ (is : List Instance) (asked : Asked),
    visitAll s h is asked = walk s (is.map (.service h)) asked
  | [], _ => rfl
  | i :: is, asked => by
    simp only [visitAll, List.map_cons, walk, Place.visit, visitAll_eq_walk s h is]

/-- **The walk over hosts is the walk over places.** -/
theorem visitHosts_eq_walk (s : Scope) : ∀ (hs : List Host) (asked : Asked),
    visitHosts s hs asked = walk s (Place.all hs) asked
  | [], _ => rfl
  | h :: hs, asked => by
    rw [Place.all, List.flatMap_cons, walk_append]
    simp only [visitHosts, visitHost, visitHosts_eq_walk s hs, visitAll_eq_walk, Place.all,
      Place.onHost, walk, Place.visit, Place.own, Findings.append_assoc]

/-! ### A visit -/

theorem databases_snd (s : Scope) (h : Host) (i : Instance) :
    (databases s h i).2 = i.statusAddressPort?.isSome := by
  cases hp : i.statusAddressPort? <;> simp [databases, hp]

theorem metrics_snd (s : Scope) (w : Window) (h : Host) (i : Instance) :
    (metrics s w h i).2 = i.port.isSome := by
  cases hp : i.port <;> simp [metrics, hp]

theorem statusAddressPort?_tidb {i : Instance} (h : i.kind = .tidb) :
    i.statusAddressPort? = i.statusPort.or i.port := by
  simp [Instance.statusAddressPort?, h]

/-- What was asked once a place is behind. -/
def Asked.after (s : Scope) (p : Place) (asked : Asked) : Asked where
  databases := asked.databases || (s.spec.contains .dbinfo && p.databaseServer?.isSome)
  metrics := asked.metrics || (s.window.isSome && p.metricServer?.isSome)

/-- **A visit, once and for all.**  A place gives what is its own, then what databases and then
what metrics it is the first to be asked for, and counts as asked where it could be asked. -/
theorem visit_eq (s : Scope) (p : Place) (asked : Asked) :
    p.visit s asked =
      (p.own s ++ (if asked.databases then .empty else p.databases s) ++
        (if asked.metrics then .empty else p.metrics s), asked.after s p) := by
  obtain ⟨d, m⟩ := asked
  cases p with
  | host h =>
    simp [Place.visit, Place.databases, Place.metrics, Asked.after, Place.databaseServer?,
      Place.metricServer?]
  | service h i =>
    simp only [Place.visit, visit, Place.own, Place.databases, Place.metrics, Asked.after,
      Place.databaseServer?, Place.metricServer?, Host.databaseServer?, Host.metricServer?]
    by_cases hi : i.isHealthy = true
    -- Only two kinds are asked anything, each its own question.
    · cases hk : i.kind
      case tidb =>
        by_cases hc : s.spec.contains .dbinfo = true <;> cases d <;>
          simp [healthy, hi, hk, hc, databases_snd, statusAddressPort?_tidb hk]
      case prometheus =>
        cases hw : s.window <;> cases m <;> simp [healthy, hi, hk, hw, metrics_snd]
      all_goals simp [healthy, hi, hk]
    · simp [hi]

end Planning

/-! ### Views -/

/-- A way of looking at findings that keeps their order. -/
structure View (β : Type) where
  look : Findings → List β
  look_empty : look .empty = []
  look_append : ∀ a b, look (a ++ b) = look a ++ look b

namespace View

attribute [simp] look_empty look_append

/-- The operations of a category. -/
def group (c : Category) : View Operation where
  look f := Plan.groupOf f.entries c
  look_empty := rfl
  look_append _ _ := Plan.groupOf_append ..

/-- The questions of one kind. -/
def queries (kind : Query → Bool) : View Query where
  look f := f.queries.filter kind
  look_empty := rfl
  look_append _ _ := List.filter_append ..

@[simp] theorem group_operations (c d : Category) (os : List Operation) :
    (group d).look (.operations c os) = if c = d then os else [] :=
  Plan.groupOf_map c d os

@[simp] theorem group_warn (c : Category) (warnings : List Warning) :
    (group c).look (.warn warnings) = [] := rfl

@[simp] theorem group_warnIf (c : Category) (condition : Bool) (warning : Warning) :
    (group c).look (.warnIf condition warning) = [] := rfl

@[simp] theorem group_query (c : Category) (q : Query) : (group c).look (.query q) = [] := rfl

@[simp] theorem queries_operations (kind : Query → Bool) (c : Category) (os : List Operation) :
    (queries kind).look (.operations c os) = [] := rfl

@[simp] theorem queries_warn (kind : Query → Bool) (warnings : List Warning) :
    (queries kind).look (.warn warnings) = [] := rfl

@[simp] theorem queries_warnIf (kind : Query → Bool) (condition : Bool) (warning : Warning) :
    (queries kind).look (.warnIf condition warning) = [] := rfl

@[simp] theorem queries_query (kind : Query → Bool) (q : Query) :
    (queries kind).look (.query q) = [q].filter kind := rfl

section

variable {β : Type} (v : View β) (s : Planning.Scope)

/-- **What no question bears on** is gathered place by place. -/
theorem walk_each {each : Planning.Place → List β}
    (h : ∀ p asked, v.look (p.visit s asked).1 = each p) :
    ∀ (ps : List Planning.Place) (asked : Planning.Asked),
      v.look (Planning.walk s ps asked).1 = ps.flatMap each
  | [], _ => v.look_empty
  | p :: ps, asked => by
    simp only [Planning.walk, v.look_append, h, walk_each h ps, List.flatMap_cons]

/-- **What comes of a question asked once.**  If a place gives something only as long as a mark is
not set, and sets the mark when it can be asked, then the walk gives what the first place gives
that can be asked. -/
theorem walk_once {α : Type} (mark : Planning.Asked → Bool)
    {ask? : Planning.Place → Option α} {use : α → List β}
    (hgive : ∀ p asked, v.look (p.visit s asked).1 =
      if mark asked then [] else ((ask? p).map use).getD [])
    (hmark : ∀ p asked, mark (p.visit s asked).2 = (mark asked || (ask? p).isSome)) :
    ∀ (ps : List Planning.Place) (asked : Planning.Asked),
      v.look (Planning.walk s ps asked).1 =
        if mark asked then [] else ((ps.findSome? ask?).map use).getD []
  | [], _ => by simp [Planning.walk]
  | p :: ps, asked => by
    -- Behind `p` the mark is set if it was, or if `p` can be asked; only then does the rest give
    -- nothing, so what `p` gives is never followed by a second answer.
    simp only [Planning.walk, v.look_append, hgive, walk_once mark hgive hmark ps, hmark,
      List.findSome?_cons]
    cases mark asked <;> cases ask? p <;> simp

end

end View

end Inspection
