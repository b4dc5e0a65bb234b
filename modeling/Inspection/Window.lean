import Inspection.Duration
import Inspection.Options

/-!
# Window

The time range of a metric export and its resolution: about sixty points a series, and never finer
than the servers sample.

* `relative_finish`: a relative window ends now.
-/

namespace Inspection

/-- A time range and the seconds between two points. -/
structure Window where
  start : Instant
  finish : Instant
  step : Nat
  deriving DecidableEq

namespace Window

/-- The least step. -/
def leastStep : Nat := 15

/-- How many points a series should have. -/
def points : Nat := 60

/-- The duration of a window that nothing is said about. -/
def defaultDuration : String := "1h"

/-- The step of a window of some seconds. -/
def stepOf (span : Int) : Nat := max (span.toNat / points) leastStep

/-- The window between two instants. -/
def between (start finish : Instant) : Window := ⟨start, finish, stepOf (start.span finish)⟩

/-- The largest number of a word of 64 bits with a sign. -/
def largestWord : Nat := 9223372036854775807

/-- The window of the last seconds.  It begins with the earliest instant where it would begin
before, where there is no span of so many seconds, and where they are too many for a word. -/
def relative (now : Instant) (seconds : Nat) : Window :=
  let start := (Span.ofSeconds? (min seconds largestWord)).bind now.before?
  between (start.getD .earliest) now

/-- The seconds from start to finish. -/
def span (w : Window) : Int := w.start.span w.finish

/-- The duration that a qualifier gives. -/
def durationOf : Option Qualifier → String
  | some (.value duration) => duration
  | _ => defaultDuration

/-- The window between both ends where they are given, and that of a duration elsewhere. -/
def resolve (qualifier : Option Qualifier) (windowBegin windowEnd : Option Instant)
    (now : Instant) : Except DurationError Window :=
  match windowBegin, windowEnd with
  | some start, some finish => .ok (between start finish)
  | _, _ => (Duration.read (durationOf qualifier)).map (relative now)

/-- The name of the file that holds a metric over a window. -/
def fileName (w : Window) (metric : String) : String :=
  metric ++ "_" ++ Text.integer w.start.seconds ++ "_to_" ++ Text.integer w.finish.seconds ++
    "_" ++ Text.natural w.step ++ "s.json"

theorem relative_finish (now : Instant) (seconds : Nat) : (relative now seconds).finish = now := rfl

end Window

end Inspection
