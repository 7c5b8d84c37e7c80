import NpuAttribution.Poll.Run

/-!
# `NpuAttribution.Poll.Traffic`: what passes through the mailbox

Cycles put snapshots and errors into the mailbox, and the monitor's owner takes them out
of it. This is what is seen of that along a run: the cycles that offer a snapshot, in the
order in which they begin to, the snapshots that are accepted and those that are received,
the errors that are reported, queued and received, and what cycles tell the journal.

A snapshot does not say from which cycle it is. The slot has room for one snapshot only,
so a snapshot that is received is the one that was accepted last. `State.receipts` goes by
this rule: it follows a run and remembers which cycle that was.
-/

set_option autoImplicit false

namespace NpuAttribution.Poll

/-- The snapshot that waits to be received, if there is one. -/
def Slot.snapshot? : Slot → Option Snapshot
  | .full s => some s
  | _ => none

/-- The cycle for which the slot is kept free, if it is kept free for one. -/
def Slot.reservedFor? : Slot → Option Nat
  | .reserved k => some k
  | _ => none

/-- The cycles that wait to put their snapshot into the slot, in the
order in which they may. -/
def Mailbox.waiting (m : Mailbox) : List Nat := m.slot.reservedFor?.toList ++ m.senders

namespace Cycle

/-- The snapshot that a cycle has not handed over yet, if it has one. -/
def held (c : Cycle) : List Snapshot :=
  match c.phase with
  | .delivering snapshot => [snapshot]
  | _ => []

/-- The snapshot that a cycle has come to in a step, if it had none before. -/
def produced (c : Cycle) (x : Step) : List Snapshot :=
  if c.held = [] then (c.step? x).elim [] held else []

end Cycle

namespace State

/-- The snapshots that cycles have not handed over yet. -/
def held (s : State) : List Snapshot := s.cycles.flatMap Cycle.held

/-- The cycle that begins to offer its snapshot. -/
def offered (s : State) : Event → List Nat
  | .deliver k => if k ∈ s.mailbox.waiting then [] else [k]
  | _ => []

/-- The snapshot that is put into the slot, with its cycle. -/
def accepted (s : State) : Event → List (Nat × Snapshot)
  | .deliver k => (watch k Cycle.delivered s (.deliver k)).map fun snapshot => (k, snapshot)
  | _ => []

/-- The snapshot that the owner receives. -/
def takenSnapshots (s : State) : Event → List Snapshot
  | .takeSnapshot => s.mailbox.slot.snapshot?.toList
  | _ => []

/-- An event of the monitor, in a state together with the cycle whose
snapshot was accepted last. The cycle is remembered until another one
has its snapshot accepted. -/
def stepWithSource? (s : State × Option Nat) (e : Event) : Option (State × Option Nat) :=
  (s.1.step? e).map fun t => (t, ((s.1.accepted e).head?.map (·.1)).or s.2)

/-- The snapshot that the owner receives, with the cycle whose snapshot
was accepted last. -/
def takenWithSource : State × Option Nat → Event → List (Nat × Snapshot)
  | (s, some k), e => (s.takenSnapshots e).map fun snapshot => (k, snapshot)
  | (_, none), _ => []

/-- The snapshots that the owner of a new monitor receives, with their cycles. -/
def receipts (es : List Event) : List (Nat × Snapshot) :=
  along stepWithSource? takenWithSource ({}, none) es

/-- The cycles of a new monitor that offer a snapshot, in the order in
which they begin to. -/
def offers (es : List Event) : List Nat := along step? offered {} es

/-- The error that a cycle reports. -/
def reported (s : State) : Event → List MonitorError
  | .move k m => watch k Cycle.errors s (.move k m)
  | _ => []

/-- The errors that a move of a cycle puts into the queue. -/
def queued (s : State) (e : Event) : List MonitorError :=
  match e, s.step? e with
  | .move _ _, some t => t.mailbox.errors.drop s.mailbox.errors.length
  | _, _ => []

/-- The error that the owner receives. -/
def takenErrors (s : State) : Event → List MonitorError
  | .takeError => s.mailbox.errors.head?.toList
  | _ => []

/-- What a move of a cycle tells the journal about errors. -/
def complaints (s : State) (e : Event) : List Line :=
  match e, s.step? e with
  | .move _ _, some t => (t.journal.drop s.journal.length).filter fun l => l.level = .error
  | _, _ => []

end State

end NpuAttribution.Poll
