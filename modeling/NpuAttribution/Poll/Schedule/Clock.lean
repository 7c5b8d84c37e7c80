import NpuAttribution.Poll.Schedule.Cycle
import NpuAttribution.Poll.Schedule.Worker

/-!
# `NpuAttribution.Poll.Schedule.Clock`: the thread and the clock

Tasks get the thread one after the other until none is ready. Only then does time go on.
-/

set_option autoImplicit false

namespace NpuAttribution.Poll.Schedule

/-- Gives a task the thread. -/
def run (s : Schedule) : Task → Schedule
  | .cycle k => s.runCycle k
  | .worker k i => s.runWorker k i

/-- Gives the thread to tasks until none is ready, at most so many
times. A task that is given the thread is not ready any more, unless it
or another one makes it so. -/
def drainFor : Nat → Schedule → Schedule
  | 0, s => s
  | turns + 1, s =>
    match s.ready with
    | [] => s
    | t :: ready => drainFor turns ({ s with ready }.run t)

/-- Gives the thread to tasks until none is ready. -/
def drain (s : Schedule) : Schedule :=
  drainFor (turnsPerCycle * (s.state.cycles.length + 1)) s

/-- Lets time pass up to the given time. The timers that fall due are
kept in order, so tasks become ready in the order in which their
timers were set. -/
def advance (s : Schedule) (time : Nat) : Schedule :=
  let due := s.timers.takeWhile fun t => t.due ≤ time
  let timers := s.timers.dropWhile fun t => t.due ≤ time
  due.foldl (fun s t => s.wake t.what) { s with now := time, timers }

/-- The time of the next timer, but not after `latest`. -/
def nextTime (s : Schedule) (latest : Nat) : Nat :=
  match s.timers with
  | t :: _ => min t.due latest
  | [] => latest

/-- Waits for the end of a cycle, letting time pass at most so many
times. When time has passed, the owner who waits is the first to notice. -/
def awaitFor (k latest : Nat) : Nat → Schedule → Schedule
  | 0, s => s
  | jumps + 1, s =>
    if s.isDone k || latest ≤ s.now then s
    else
      let s := s.drain
      if s.isDone k then s else awaitFor k latest jumps (s.advance (s.nextTime latest))

end NpuAttribution.Poll.Schedule
