import NpuAttribution.Poll.Worker
import NpuAttribution.Runtime.Listing

/-!
# `NpuAttribution.Poll.Cycle`: one poll cycle

A cycle lists the containers and dispatches a worker for each of them. Then it collects
what the workers report: it counts the reports, gathers the assignments in them and gives
up when time is over. In the end it waits for all of its workers, whatever has become of
the collection.

Workers report on a channel with room for one report each. The cycle holds a sender of
it as long as it dispatches, and each worker holds one until it has reported.

Workers and collector act in any order. What each of them may do next is given here
step by step, as a function that is undefined where the step is not possible. Time
does not occur: a collector that may still be waiting may always find its time over.
-/

set_option autoImplicit false

namespace NpuAttribution.Poll

/-- At most so many inspections go on at once. -/
def maxInspections : Nat := 64

/-- How far a cycle has got. -/
inductive Phase
  | listing
  /-- These containers have no worker yet. -/
  | dispatching (left : List ListedContainer)
  /-- So many reports are outstanding, and this has been gathered. -/
  | collecting (pending : Nat) (gathered : Snapshot)
  | delivering (snapshot : Snapshot)
  /-- The collection is over, but there may be workers left. -/
  | joining
  | done
  deriving DecidableEq, Repr

/-- A poll cycle: its time limit in milliseconds, the permits that
nobody holds, the workers that wait for one, longest first, the room of
the channel for reports, and the reports that the collector has not seen
yet, oldest first. -/
structure Cycle where
  limit : Nat
  phase : Phase := .listing
  workers : List Worker := []
  permits : Nat := maxInspections
  queue : List Nat := []
  capacity : Nat := 0
  reports : List (Option Assignment) := []
  deriving DecidableEq, Repr

/-- What a step of a cycle does outside of the cycle. -/
structure Effect where
  error : Option MonitorError := none
  lines : List Line := []
  deriving DecidableEq, Repr

namespace Cycle

/-- The journal line about a listing with too many containers. -/
def tooMany (count : Nat) : Line :=
  ⟨.warn, s!"Too many containers to inspect ({count}, max {Listing.maxContainers}), skipping cycle"⟩

/-- The journal line about reports that will never come. -/
def neverReported (pending : Nat) : Line :=
  ⟨.warn, s!"{pending} container inspections never reported"⟩

/-- How far a worker has got. -/
def stage? (c : Cycle) (i : Nat) : Option Stage := (c.workers[i]?).map (·.stage)

/-- Moves a worker to another stage. -/
def setStage (c : Cycle) (i : Nat) (s : Stage) : Cycle :=
  { c with workers := c.workers.modify i fun w => { w with stage := s } }

/-- The listing has ended. A listing that fails ends the cycle. There is
nothing to inspect if there are no containers or too many of them. -/
def listed? (c : Cycle) : Except RuntimeError (List ListedContainer) → Option (Cycle × Effect)
  | .error e =>
    if c.phase = .listing then
      some ({ c with phase := .done }, { error := some (.runtime e) })
    else
      none
  | .ok containers =>
    if c.phase = .listing then
      -- There is nothing to wait for, and no worker is dispatched.
      if containers.isEmpty then
        some ({ c with phase := .delivering .empty }, {})
      else if Listing.maxContainers < containers.length then
        some ({ c with phase := .delivering .empty }, { lines := [tooMany containers.length] })
      else
        some ({ c with phase := .dispatching containers, capacity := containers.length }, {})
    else
      none

/-- Dispatches a worker for the next container, as the task with the
given number. -/
def spawn? (c : Cycle) (task : Nat) : Option Cycle :=
  match c.phase with
  | .dispatching (container :: left) =>
    some { c with
      phase := .dispatching left
      workers := c.workers ++ [{ container, task, stage := .dispatched }] }
  | _ => none

/-- All workers have been dispatched, and the collection begins. -/
def collect? (c : Cycle) : Option Cycle :=
  match c.phase with
  | .dispatching [] => some { c with phase := .collecting c.workers.length .empty }
  | _ => none

/-- A worker asks for a permit. If none is left, it waits at the end of
the queue. -/
def ask? (c : Cycle) (i : Nat) : Option Cycle :=
  match c.stage? i with
  | some .dispatched =>
    match c.permits with
    | permits + 1 => some { c.setStage i .admitted with permits }
    | 0 => some { c.setStage i .waiting with queue := c.queue ++ [i] }
  | _ => none

/-- A worker begins its inspection. -/
def begin? (c : Cycle) (i : Nat) : Option Cycle :=
  match c.stage? i with
  | some .admitted => some (c.setStage i .inspecting)
  | _ => none

/-- A worker's inspection ends, and its error, if any, is reported. -/
def conclude? (c : Cycle) (i : Nat) (o : Outcome) : Option (Cycle × Effect) :=
  match c.stage? i with
  | some .inspecting => some (c.setStage i (.concluded o), { error := o.error? })
  | _ => none

/-- A permit comes back. The worker that has waited longest gets it. -/
def putPermit (c : Cycle) : Cycle :=
  match c.queue with
  | [] => { c with permits := c.permits + 1 }
  -- The permit does not become free: it goes straight to the next worker.
  | next :: queue => { c.setStage next .admitted with queue }

/-- A worker returns its permit. -/
def release? (c : Cycle) (i : Nat) : Option Cycle :=
  match c.stage? i with
  | some (.concluded o) => some (c.setStage i (.released (some o))).putPermit
  | _ => none

/-- A worker is dropped before its inspection is over. It leaves the
queue for permits or returns the permit that it has. -/
def drop? (c : Cycle) (i : Nat) : Option Cycle :=
  match c.stage? i with
  | some .dispatched => some (c.setStage i (.released none))
  -- It holds no permit, but must not be given one later.
  | some .waiting => some { c.setStage i (.released none) with queue := c.queue.erase i }
  -- It has a permit, whether or not it has made use of it.
  | some .admitted => some (c.setStage i (.released none)).putPermit
  | some .inspecting => some (c.setStage i (.released none)).putPermit
  | _ => none

/-- Puts a report on the channel. It is lost if there is no room, which
never happens: a cycle's channel has room for one report of each worker. -/
def send (c : Cycle) (r : Option Assignment) : Cycle :=
  if c.reports.length < c.capacity then { c with reports := c.reports ++ [r] } else c

/-- A worker reports to the collector, and that is its end. -/
def report? (c : Cycle) (i : Nat) : Option Cycle :=
  match c.workers[i]? with
  | some w =>
    match w.stage with
    | .released o => some ((c.setStage i (.ended o)).send (w.message o))
    | _ => none
  | none => none

/-- What the collector has gathered after one more report. -/
def gather (gathered : Snapshot) : Option Assignment → Snapshot
  | some a => gathered.add a
  | none => gathered

/-- The collector takes a report. After the last one the snapshot is
complete. With no time at all it does not even begin. -/
def receive? (c : Cycle) : Option Cycle :=
  match c.phase, c.reports with
  | .collecting (pending + 1) gathered, r :: reports =>
    -- A timer that is over at once is noticed before any report.
    if c.limit = 0 then none
    -- This was the last report that was waited for.
    else if pending = 0 then
      some { c with phase := .delivering (gather gathered r), reports }
    else
      some { c with phase := .collecting pending (gather gathered r), reports }
  | _, _ => none

/-- The error that a cycle out of time reports. -/
def timeoutError (c : Cycle) (pending : Nat) : MonitorError :=
  .timeout c.limit pending c.workers.length

/-- The collector's time is over, and it reports so. -/
def expire? (c : Cycle) : Option (Cycle × Effect) :=
  match c.phase with
  | .collecting pending _ =>
    some ({ c with phase := .joining }, { error := some (c.timeoutError pending) })
  | _ => none

/-- The collector waits for reports, but the channel is empty and
nobody holds a sender of it any more. It makes do with what it has
gathered. No run gets here, because the collector counts its workers
and each of them reports. -/
def hangUp? (c : Cycle) : Option (Cycle × Effect) :=
  match c.phase with
  | .collecting (pending + 1) gathered =>
    if c.limit ≠ 0 ∧ c.reports = [] ∧ c.workers.all (·.stage.hasReported) then
      some ({ c with phase := .delivering gathered }, { lines := [neverReported (pending + 1)] })
    else
      none
  | _ => none

/-- The cycle hands over its snapshot. A cycle that has dispatched no
workers has none to wait for afterwards either. -/
def handOver? (c : Cycle) : Option (Snapshot × Cycle) :=
  match c.phase with
  | .delivering snapshot => some (snapshot, { c with phase := .joining })
  | _ => none

/-- Takes note of a worker's end, and reports it if the worker has failed. -/
def join? (c : Cycle) (i : Nat) : Option (Cycle × Effect) :=
  match c.phase, c.workers[i]? with
  | .joining, some w =>
    match w.stage with
    | .ended o =>
      -- A worker whose inspection has failed in an orderly way is no failure of the
      -- task.
      some (c.setStage i .joined,
        { error := (Worker.failure? o).map (.workerPanicked w.task) })
    | _ => none
  | _, _ => none

/-- The cycle is over when it has taken note of the end of all workers. -/
def finish? (c : Cycle) : Option Cycle :=
  if c.phase = .joining ∧ c.workers.all (fun w => w.stage = .joined) then
    some { c with phase := .done }
  else
    none

end Cycle

/-- What a cycle or one of its workers can do by itself. Workers are
numbered in the order of the listing. -/
inductive Move
  | listed (containers : Except RuntimeError (List ListedContainer))
  | collect
  | ask (worker : Nat)
  | begin (worker : Nat)
  | conclude (worker : Nat) (o : Outcome)
  | release (worker : Nat)
  | report (worker : Nat)
  | receive
  | expire
  | hangUp
  | join (worker : Nat)
  | finish

/-- A step that has no effect outside of the cycle. -/
def Effect.without (c : Option Cycle) : Option (Cycle × Effect) := c.map fun c => (c, {})

/-- What a move leads to. -/
def Cycle.move? (c : Cycle) : Move → Option (Cycle × Effect)
  | .listed containers => c.listed? containers
  | .collect => Effect.without c.collect?
  | .ask i => Effect.without (c.ask? i)
  | .begin i => Effect.without (c.begin? i)
  | .conclude i o => c.conclude? i o
  | .release i => Effect.without (c.release? i)
  | .report i => Effect.without (c.report? i)
  | .receive => Effect.without c.receive?
  | .expire => c.expire?
  | .hangUp => c.hangUp?
  | .join i => c.join? i
  | .finish => Effect.without c.finish?

end NpuAttribution.Poll
