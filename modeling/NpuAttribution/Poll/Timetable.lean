import Mathlib.Data.List.Sort
import NpuAttribution.Poll.Cycle

/-!
# `NpuAttribution.Poll.Timetable`: when workers report

If every inspection takes a known time, then it can be told in advance when each worker of
a cycle reports, without a thread and without a clock. Workers are admitted in the order of
the listing, at most 64 at a time, and a worker that waits begins at the instant at which a
permit comes back. Whether the cycle delivers, and when it ends, follows from the times of
the reports.
-/

set_option autoImplicit false

namespace NpuAttribution.Poll

/-- When a worker is admitted, if those before it in the listing report
at the given times. It is the time from which on fewer than 64 of them
are still to report. -/
def admission (start : Nat) (earlier : List Nat) : Nat :=
  -- The latest reports come first, so this is the time of the 64th latest of them.
  ((earlier.insertionSort (· ≥ ·))[maxInspections - 1]?).getD start

/-- The times at which workers report whose inspections take so long.
A worker reports when its inspection is over, which begins when the
worker is admitted. -/
def reportTimes (start : Nat) (delays : List Nat) : List Nat :=
  delays.foldl (fun earlier delay => earlier ++ [admission start earlier + delay]) []

/-- When a cycle dispatches its workers, its time limit, and how long
the inspections take. Times are in milliseconds. -/
structure Timetable where
  start : Nat
  limit : Nat
  delays : List Nat

namespace Timetable

/-- The times at which the workers report. -/
def reports (x : Timetable) : List Nat := reportTimes x.start x.delays

/-- When the time limit is over. -/
def deadline (x : Timetable) : Nat := x.start + x.limit

/-- The number of workers that report too late. A report at the
deadline is late. -/
def late (x : Timetable) : Nat := x.reports.countP fun r => x.deadline ≤ r

/-- When the last worker reports. -/
def lastReport (x : Timetable) : Nat := x.reports.foldl max x.start

/-- When the cycle ends. It waits for its last worker, and if a worker
is late also for the deadline. -/
def ending (x : Timetable) : Nat :=
  if x.late = 0 then x.lastReport else max x.lastReport x.deadline

end Timetable

end NpuAttribution.Poll
