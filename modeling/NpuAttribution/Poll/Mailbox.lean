import NpuAttribution.Container.Assignment
import NpuAttribution.Journal
import NpuAttribution.Poll.Error

/-!
# `NpuAttribution.Poll.Mailbox`: what waits to be received

Snapshots and errors wait to be received in two places. There is room for one snapshot:
a cycle that has another one waits until the room is free, and cycles get it in the
order in which they began to wait. Of errors 64 are kept, and one that comes when so
many are waiting is dropped and goes to the journal instead.
-/

set_option autoImplicit false

namespace NpuAttribution.Poll

/-- The place of the snapshot that is received next. -/
inductive Slot
  | free
  /-- The next snapshot will be that of the given cycle. -/
  | reserved (cycle : Nat)
  | full (snapshot : Snapshot)
  deriving DecidableEq, Repr

/-- Snapshots and errors that wait to be received. -/
structure Mailbox where
  slot : Slot := .free
  senders : List Nat := []
  errors : List MonitorError := []
  deriving DecidableEq, Repr

namespace Mailbox

/-- So many errors are kept. -/
def errorCapacity : Nat := 64

/-- The journal line about an error that is dropped. -/
def droppedLine (e : MonitorError) : Line :=
  let message := e.message
  ⟨.error, s!"Error channel is full, dropping: {message}"⟩

/-- Reports an error, which is either kept or dropped. An error that is
dropped is told to the journal, so nothing goes unnoticed. -/
def report (m : Mailbox) (e : MonitorError) : Mailbox × List Line :=
  if m.errors.length < errorCapacity then
    ({ m with errors := m.errors ++ [e] }, [])
  else
    (m, [droppedLine e])

/-- A cycle begins or continues to wait for the slot. It keeps its place
if it waits already. -/
def await (m : Mailbox) (cycle : Nat) : Mailbox :=
  if cycle ∈ m.senders then m else { m with senders := m.senders ++ [cycle] }

/-- Whether a snapshot of the given cycle can be put into the slot. -/
def hasRoomFor (m : Mailbox) (cycle : Nat) : Bool :=
  match m.slot with
  | .free => true
  | .reserved next => next = cycle
  | .full _ => false

/-- A cycle offers its snapshot. Returns whether it has been delivered. -/
def offer (m : Mailbox) (cycle : Nat) (s : Snapshot) : Mailbox × Bool :=
  if m.hasRoomFor cycle then ({ m with slot := .full s }, true) else (m.await cycle, false)

/-- The slot is free again. The cycle that has waited longest gets it,
and nobody else can put a snapshot into it in the meantime. -/
def vacate (m : Mailbox) : Mailbox :=
  match m.senders with
  | [] => { m with slot := .free }
  | next :: others => { m with slot := .reserved next, senders := others }

/-- Waiting for the slot changes nothing about it. -/
@[simp] theorem slot_await (m : Mailbox) (cycle : Nat) : (m.await cycle).slot = m.slot := by
  unfold await
  split <;> rfl

/-- Snapshots and errors have nothing to do with each other: waiting
leaves the queue of errors alone. -/
@[simp] theorem errors_await (m : Mailbox) (cycle : Nat) :
    (m.await cycle).errors = m.errors := by
  unfold await
  split <;> rfl

/-- Vacating the slot leaves the queue of errors alone as well. -/
@[simp] theorem errors_vacate (m : Mailbox) : m.vacate.errors = m.errors := by
  unfold vacate
  split <;> rfl

/-- Receives a snapshot, if there is one. -/
def takeSnapshot? (m : Mailbox) : Option (Snapshot × Mailbox) :=
  match m.slot with
  | .full s => some (s, m.vacate)
  | _ => none

/-- Receives the oldest error, if there is one. -/
def takeError? (m : Mailbox) : Option (MonitorError × Mailbox) :=
  match m.errors with
  | e :: errors => some (e, { m with errors })
  | [] => none

end Mailbox

end NpuAttribution.Poll
