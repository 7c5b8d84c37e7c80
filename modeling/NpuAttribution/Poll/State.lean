import NpuAttribution.Poll.Cycle
import NpuAttribution.Poll.Mailbox

/-!
# `NpuAttribution.Poll.State`: all cycles of a monitor

Cycles are started one after the other but may overlap. They share the mailbox, from
which the monitor's owner receives snapshots and errors. An `Event` is one step of one
of the parties, and `State.step?` says what it leads to, if it is possible at all.
Whatever a monitor does is a sequence of events, and nothing is said here about which
of the possible events comes next.
-/

set_option autoImplicit false

namespace NpuAttribution.Poll

/-- The cycles in the order of their starts, the mailbox, the journal,
and the number of tasks started so far. -/
structure State where
  cycles : List Cycle := []
  mailbox : Mailbox := {}
  journal : List Line := []
  tasks : Nat := 0
  deriving DecidableEq, Repr

/-- One step of the monitor. Cycles are numbered in the order of their starts. -/
inductive Event
  | start (limit : Nat)
  /-- A cycle dispatches its next worker. -/
  | spawn (cycle : Nat)
  | move (cycle : Nat) (m : Move)
  /-- A cycle offers its snapshot. -/
  | deliver (cycle : Nat)
  | takeSnapshot
  | takeError
  /-- Something is told to the journal that no cycle has to do with. -/
  | note (lines : List Line)
  | takeJournal
  /-- A task is started that no cycle has to do with. -/
  | elsewhere

namespace State

/-- Writes lines to the journal. -/
def write (s : State) (lines : List Line) : State :=
  { s with journal := s.journal ++ lines }

/-- Reports an error, if there is one. -/
def report (s : State) : Option MonitorError → State
  | some e =>
    let (mailbox, lines) := s.mailbox.report e
    { s with mailbox }.write lines
  | none => s

/-- Lets a step of a cycle have its effect. -/
def suffer (s : State) (effect : Effect) : State :=
  (s.report effect.error).write effect.lines

/-- The journal is not part of any cycle. -/
@[simp] theorem cycles_write (s : State) (lines : List Line) : (s.write lines).cycles = s.cycles :=
  rfl

/-- Neither is it part of the mailbox. -/
@[simp] theorem mailbox_write (s : State) (lines : List Line) :
    (s.write lines).mailbox = s.mailbox :=
  rfl

/-- An error that is reported goes to the mailbox or to the journal, and
no cycle changes. -/
@[simp] theorem cycles_report (s : State) (e : Option MonitorError) :
    (s.report e).cycles = s.cycles := by
  cases e <;> rfl

/-- What a step does outside of its cycle changes no cycle, not even the
one that made it. -/
@[simp] theorem cycles_suffer (s : State) (effect : Effect) :
    (s.suffer effect).cycles = s.cycles := by
  simp [suffer]

/-- Replaces a cycle. -/
def setCycle (s : State) (k : Nat) (c : Cycle) : State :=
  { s with cycles := s.cycles.set k c }

/-- A cycle dispatches its next worker, which is the next task. -/
def spawn? (s : State) (k : Nat) : Option State := do
  let c ← s.cycles[k]?
  let c ← c.spawn? s.tasks
  return { s.setCycle k c with tasks := s.tasks + 1 }

/-- A cycle or one of its workers makes a move. -/
def move? (s : State) (k : Nat) (m : Move) : Option State := do
  let c ← s.cycles[k]?
  let (c, effect) ← c.move? m
  return (s.setCycle k c).suffer effect

/-- A cycle offers its snapshot. If there is no room it will do so again. -/
def deliver? (s : State) (k : Nat) : Option State := do
  let c ← s.cycles[k]?
  let (snapshot, c) ← c.handOver?
  let (mailbox, delivered) := s.mailbox.offer k snapshot
  -- A cycle that has to wait is as it was, but the mailbox knows about it.
  return { if delivered then s.setCycle k c else s with mailbox }

/-- What an event leads to. -/
def step? (s : State) : Event → Option State
  -- The cycle is a task itself, and has a number like its workers.
  | .start limit =>
    some { s with cycles := s.cycles ++ [{ limit := limit }], tasks := s.tasks + 1 }
  | .spawn k => s.spawn? k
  | .move k m => s.move? k m
  | .deliver k => s.deliver? k
  | .takeSnapshot => do
    let (_, mailbox) ← s.mailbox.takeSnapshot?
    return { s with mailbox }
  | .takeError => do
    let (_, mailbox) ← s.mailbox.takeError?
    return { s with mailbox }
  | .note lines => some (s.write lines)
  | .takeJournal => some { s with journal := [] }
  | .elsewhere => some { s with tasks := s.tasks + 1 }

end State

end NpuAttribution.Poll
