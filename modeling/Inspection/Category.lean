/-!
# Category

What an operation of a run belongs to.  The categories have an order, in which their groups are
executed, and a name each, under which they are requested and reported.

* `ofName?_name`: a category is found by its name.
* `name_of_ofName?`: and by no other text.
-/

namespace Inspection

/-- The categories, in the order of their groups. -/
inductive Category
  | setup
  | basic
  | profile
  | metric
  | config
  | dbinfo
  | log
  | teardown
  deriving DecidableEq, Repr

namespace Category

/-- Every category, in order. -/
def all : List Category := [setup, basic, profile, metric, config, dbinfo, log, teardown]

/-- The name of a category in targets, plans and reports. -/
def name : Category → String
  | setup => "_setup"
  | basic => "basic"
  | profile => "profile"
  | metric => "metric"
  | config => "config"
  | dbinfo => "dbinfo"
  | log => "log"
  | teardown => "_teardown"

/-- The category of a name. -/
def ofName? (s : String) : Option Category := all.find? (·.name = s)

theorem mem_all : ∀ c : Category, c ∈ all
  | setup | basic | profile | metric | config | dbinfo | log | teardown => by decide

theorem ofName?_name : ∀ c : Category, ofName? c.name = some c
  | setup | basic | profile | metric | config | dbinfo | log | teardown => by decide

theorem name_of_ofName? {s : String} {c : Category} (h : ofName? s = some c) : c.name = s := by
  simpa using List.find?_some h

theorem name_injective {a b : Category} (h : a.name = b.name) : a = b := by
  have ha := ofName?_name a
  rw [h, ofName?_name b] at ha
  exact (Option.some.inj ha).symm

end Category

end Inspection
