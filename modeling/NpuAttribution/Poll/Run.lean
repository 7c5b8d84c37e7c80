import NpuAttribution.Poll.State

/-!
# `NpuAttribution.Poll.Run`: runs, and what is seen along them

A run of the monitor is a list of events each of which is possible when it happens. To
speak about one cycle in the midst of others, the run is cut down to the steps of this
cycle, and what the cycle does in them is written down in the order in which it does it.

The steps of a cycle are a little more than its moves. To number its tasks and to have
its snapshot accepted it needs the rest of the monitor. A worker may also be dropped,
which is no event of the monitor: tasks are dropped when the program is shut down.
-/

set_option autoImplicit false

namespace NpuAttribution.Poll

section

variable {σ ε α : Type}

/-- Where a sequence of steps leads, if each of them is possible. -/
def follow (step : σ → ε → Option σ) (s : σ) (es : List ε) : Option σ := es.foldlM step s

/-- What is seen along a sequence of steps, each of them seen in the
state in which it is made. The steps need not be possible: what comes
after the first one that is not is left out. -/
def along (step : σ → ε → Option σ) (see : σ → ε → List α) : σ → List ε → List α
  | _, [] => []
  | s, e :: es =>
    see s e ++
      match step s e with
      | some s => along step see s es
      | none => []

/-- A step occurs in a sequence of possible steps and leads from one
state to another. The steps in front of it have to be possible too, and
lead to the state before it. -/
def Occurs (step : σ → ε → Option σ) (s : σ) (es : List ε) (e : ε) (u v : σ) : Prop :=
  ∃ before after, es = before ++ e :: after ∧ follow step s before = some u ∧ step u e = some v

end

/-- Everything that can happen to a cycle. -/
inductive Step
  /-- The next worker is dispatched, as the task with the given number. -/
  | spawn (task : Nat)
  | move (m : Move)
  /-- The cycle's snapshot is accepted. -/
  | handOver
  /-- A worker is dropped. -/
  | drop (worker : Nat)

/-- Whether a step drops a worker. -/
def Step.drops : Step → Bool
  | .drop _ => true
  | _ => false

/-- The points that every worker passes on its way. -/
inductive Milestone
  | begun
  | concluded
  | reported
  | joined
  deriving DecidableEq, Repr

/-- The worker that passes a milestone in a step. -/
def Milestone.passed? : Milestone → Step → Option Nat
  | .begun, .move (.begin i) => some i
  | .concluded, .move (.conclude i _) => some i
  | .reported, .move (.report i) => some i
  | .joined, .move (.join i) => some i
  | _, _ => none

namespace Cycle

/-- What a step leads to. -/
def step? (c : Cycle) : Step → Option Cycle
  | .spawn task => c.spawn? task
  | .move m => (c.move? m).map (·.1)
  | .handOver => c.handOver?.map (·.2)
  | .drop i => c.drop? i

/-- What a sequence of steps leads to. -/
def run? (c : Cycle) (steps : List Step) : Option Cycle := follow step? c steps

/-- The workers that pass a milestone. -/
def passing (m : Milestone) (_ : Cycle) (x : Step) : List Nat := (m.passed? x).toList

/-- The reports that workers send. -/
def sent (c : Cycle) : Step → List (Option Assignment)
  | .move (.report i) =>
    match c.workers[i]? with
    | some w =>
      match w.stage with
      | .released o => [w.message o]
      | _ => []
    | none => []
  | _ => []

/-- The reports that the collector receives. -/
def received (c : Cycle) : Step → List (Option Assignment)
  | .move .receive => c.reports.head?.toList
  | _ => []

/-- The snapshots that are handed over. -/
def delivered (c : Cycle) : Step → List Snapshot
  | .handOver => (c.handOver?.map (·.1)).toList
  | _ => []

/-- The errors that are reported. -/
def errors (c : Cycle) : Step → List MonitorError
  | .move m => ((c.move? m).bind (·.2.error)).toList
  | _ => []

/-- The requests that are made, with containers and descriptors from the
given backend: some to list the containers, and some for each container
when its inspection begins. -/
def asked (b : Backend) (c : Cycle) : Step → List Request
  | .move (.listed _) => b.listing.2.requests
  | .move (.begin i) =>
    match c.workers[i]? with
    | some w => (b.inspect w.container).trace.requests
    | none => []
  | _ => []

/-- The reports that the time was over. -/
def timeouts (c : Cycle) (x : Step) : List MonitorError := (c.errors x).filter (·.isTimeout)

end Cycle

namespace State

/-- What a list of events leads to. -/
def run? (s : State) (es : List Event) : Option State := follow step? s es

/-- The step of a cycle that an event is. Offering a snapshot without
success is none, since the cycle is afterwards what it was before. -/
def stepOf? (s : State) (k : Nat) : Event → Option Step
  | .spawn j => if j = k then some (.spawn s.tasks) else none
  | .move j m => if j = k then some (.move m) else none
  | .deliver j => if j = k ∧ s.mailbox.hasRoomFor k then some .handOver else none
  | _ => none

/-- What is seen of a cycle in an event. -/
def watch {α : Type} (k : Nat) (see : Cycle → Step → List α) (s : State) (e : Event) : List α :=
  match s.cycles[k]?, s.stepOf? k e with
  | some c, some x => see c x
  | _, _ => []

/-- What is seen of a cycle along a run. -/
def observe {α : Type} (s : State) (k : Nat) (see : Cycle → Step → List α) (es : List Event) :
    List α :=
  along step? (watch k see) s es

/-- The requests that are made in an event, with containers and
descriptors from the given backend. -/
def asked (b : Backend) (s : State) : Event → List Request
  | .move k m =>
    match s.cycles[k]? with
    | some c => c.asked b (.move m)
    | none => []
  | _ => []

/-- The steps that a cycle makes along a run. -/
def stepsOf (s : State) (k : Nat) (es : List Event) : List Step :=
  s.observe k (fun _ x => [x]) es

end State

end NpuAttribution.Poll
