import NpuAttribution.Poll.State

/-!
# `NpuAttribution.Poll.Schedule.Basic`: one thread in virtual time

A schedule settles what `State.step?` leaves open. There is one thread, and tasks that
can go on get it in the order in which they became ready. Time stands still while a
task is ready and then jumps to the next timer. Tasks whose timers fall due together
become ready in the order in which the timers were set.

A task may not keep the thread for too long. In one turn it may do 128 operations on
channels, semaphores and other tasks, and then has to let the others go first. This is
rarely noticed: by the owner of the monitor, who receives at most so many errors in one
go, and in the order in which a cycle takes note of the ends of very many workers.
-/

set_option autoImplicit false

namespace NpuAttribution.Poll

/-- What can be given the thread. -/
inductive Task
  | cycle (k : Nat)
  | worker (k i : Nat)
  deriving DecidableEq, Repr

/-- Something is to happen at a time. -/
structure Timed (α : Type) where
  due : Nat
  what : α
  deriving Repr

/-- Puts something where its time belongs, behind what has the same time. -/
def Timed.insert {α : Type} (t : Timed α) : List (Timed α) → List (Timed α)
  | [] => [t]
  -- What has the same time stays in front.
  | u :: us => if t.due < u.due then t :: u :: us else u :: insert t us

/-- An inspection that is going on, and what it will find. -/
structure Pending where
  cycle : Nat
  worker : Nat
  found : Found
  deriving Repr

/-- The operations that a task may do in one turn. -/
def turnAllowance : Nat := 128

/-- A cycle's tasks together are given the thread less often than this. -/
def turnsPerCycle : Nat := 10000

/-- A monitor with a thread and a clock. Times are in milliseconds. -/
structure Schedule where
  backend : Backend
  majors : List Nat
  /-- The time limit of the cycles that are started. -/
  limit : Nat
  now : Nat := 0
  /-- The tasks that can go on. -/
  ready : List Task := []
  timers : List (Timed Task) := []
  /-- The cycles that have a time limit and when it ends. -/
  deadlines : List (Timed Nat) := []
  inspections : List (Timed Pending) := []
  /-- The workers that have ended, with their cycles, in the order in which this will be
  taken note of. -/
  endings : List (Nat × Nat) := []
  state : State := {}
  requests : List Request := []
  /-- The number of inspections begun. -/
  inspected : Nat := 0
  /-- The number of inspections going on. -/
  inFlight : Nat := 0
  /-- The largest number of inspections that ever went on at once. -/
  maxInFlight : Nat := 0
  /-- What is left of the owner's turn. -/
  allowance : Nat := turnAllowance
  /-- The cycles of whose ends the owner has not been told yet. -/
  handles : List Nat := []

namespace Schedule

/-- Makes an event happen, if it is possible. A schedule only makes
events happen of which it knows that they are, so nothing is lost by
ignoring the others. -/
def act (s : Schedule) (e : Event) : Schedule :=
  match s.state.step? e with
  | some state => { s with state }
  | none => s

/-- A task can go on. It is not given the thread twice if it can already. -/
def wake (s : Schedule) (t : Task) : Schedule :=
  if t ∈ s.ready then s else { s with ready := s.ready ++ [t] }

/-- Wakes a task at a later time. -/
def setTimer (s : Schedule) (due : Nat) (t : Task) : Schedule :=
  { s with timers := Timed.insert ⟨due, t⟩ s.timers }

/-- Records what has been asked of the outside world and told to the journal. -/
def record (s : Schedule) (trace : Trace) : Schedule :=
  { s with requests := s.requests ++ trace.requests }.act (.note trace.lines)

/-- A cycle. -/
def cycle? (s : Schedule) (k : Nat) : Option Cycle := s.state.cycles[k]?

/-- How far a cycle has got. -/
def phase? (s : Schedule) (k : Nat) : Option Phase := (s.cycle? k).map (·.phase)

/-- A worker of a cycle. -/
def worker? (s : Schedule) (k i : Nat) : Option Worker :=
  (s.cycle? k).bind fun c => c.workers[i]?

/-- Whether a cycle is over. -/
def isDone (s : Schedule) (k : Nat) : Bool :=
  match s.cycle? k with
  | some c => c.phase = .done
  | none => true

end Schedule

end NpuAttribution.Poll
