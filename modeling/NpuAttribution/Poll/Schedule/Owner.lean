import NpuAttribution.Poll.Schedule.Clock

/-!
# `NpuAttribution.Poll.Schedule.Owner`: what the owner of a monitor can do

The owner starts cycles, waits for them, and receives what they have delivered and
reported. Like a task the owner does so in turns: while it waits the tasks go on, and
when it has used up its turn they go on as well before it does anything else.
-/

set_option autoImplicit false

namespace NpuAttribution.Poll.Schedule

/-- The owner lets the tasks go first and begins a new turn. -/
def settle (s : Schedule) : Schedule :=
  { s.drain with allowance := turnAllowance }

/-- A new turn of the owner begins if nothing is left of the old one. -/
def beginOperation (s : Schedule) : Schedule :=
  if s.allowance = 0 then s.settle else s

/-- The owner does an operation. -/
def spend (s : Schedule) : Schedule := { s with allowance := s.allowance - 1 }

/-- The owner gets a handle of the cycle that is started next. -/
def giveHandle (s : Schedule) : Schedule :=
  { s with handles := s.handles ++ [s.state.cycles.length] }

/-- Starts a cycle, of which the owner has a handle from now on. -/
def start (s : Schedule) : Schedule :=
  (s.giveHandle.act (.start s.limit)).wake (.cycle s.state.cycles.length)

/-- Lets time pass until the end of a cycle, but not more than so
many milliseconds. -/
def elapse (s : Schedule) (k wait : Nat) : Schedule :=
  let s := s.beginOperation
  -- There is nothing to wait for, and no task is given the thread.
  if s.isDone k || wait = 0 then s.spend
  else
    let jumps := turnsPerCycle * (s.state.cycles.length + 1)
    { awaitFor k (s.now + wait) jumps s with allowance := turnAllowance }.spend

/-- Waits for the end of a cycle by its handle, but not longer than so
many milliseconds. A handle tells of the end once and is used up then. The
owner who waits for it again panics, and there is no schedule any more. -/
def await (s : Schedule) (k wait : Nat) : Option Schedule :=
  if k ∈ s.handles then
    let s := s.elapse k wait
    -- A wait that was too short leaves the handle as it is.
    some (if s.isDone k then { s with handles := s.handles.filter (· ≠ k) } else s)
  else
    none

/-- Waits while something is done elsewhere. -/
def awaitElsewhere (s : Schedule) : Schedule :=
  s.settle.spend.act .elsewhere

/-- Receives something that waits in the mailbox, if the turn lasts.
Looking for it is one operation, receiving it or giving up is another. -/
def receive {α : Type} (s : Schedule) (take? : Mailbox → Option (α × Mailbox)) (e : Event) :
    Option α × Schedule :=
  let s := s.beginOperation.spend
  -- The turn has just been used up, so the owner gives up although there may be
  -- something.
  if s.allowance = 0 then (none, s)
  else
    match take? s.state.mailbox with
    | some (a, _) => (some a, (s.act e).spend)
    | none => (none, s.spend)

/-- The cycle that has been given the free slot can go on. -/
def wakeSender (s : Schedule) : Schedule :=
  match s.state.mailbox.slot with
  | .reserved k => s.wake (.cycle k)
  | _ => s

/-- Receives the next snapshot, if there is one. -/
def takeSnapshot (s : Schedule) : Option Snapshot × Schedule :=
  let (snapshot, s) := s.receive Mailbox.takeSnapshot? .takeSnapshot
  (snapshot, s.wakeSender)

/-- Receives errors until there is none, at most so many times. -/
def takeErrorsFor : Nat → Schedule → List MonitorError × Schedule
  | 0, s => ([], s)
  | rounds + 1, s =>
    match s.receive Mailbox.takeError? .takeError with
    | (some e, s) =>
      let (es, s) := takeErrorsFor rounds s
      (e :: es, s)
    | (none, s) => ([], s)

/-- Receives all errors that can be received now. -/
def takeErrors (s : Schedule) : List MonitorError × Schedule :=
  takeErrorsFor (Mailbox.errorCapacity * (s.state.cycles.length + 2)) s

/-- Hands over the journal and begins a new one. -/
def takeJournal (s : Schedule) : List Line × Schedule :=
  (s.state.journal, s.act .takeJournal)

end NpuAttribution.Poll.Schedule
