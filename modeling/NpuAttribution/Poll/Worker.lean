import NpuAttribution.Poll.Inspection

/-!
# `NpuAttribution.Poll.Worker`: the workers of a cycle

A worker asks for one of the cycle's permits, inspects its container, returns the permit
and reports to the collector. It reports once and at the very end, whatever has become of
the inspection, even if it is dropped before the inspection has begun.
-/

set_option autoImplicit false

namespace NpuAttribution.Poll

/-- How far a worker has got. -/
inductive Stage
  /-- It has not done anything. -/
  | dispatched
  /-- It waits for a permit. -/
  | waiting
  /-- It has a permit. -/
  | admitted
  /-- It inspects its container. -/
  | inspecting
  /-- The inspection is over, and its error, if any, has been reported. -/
  | concluded (o : Outcome)
  /-- It has no permit any more. There is no outcome if it has been dropped. -/
  | released (o : Option Outcome)
  /-- It has reported to the collector and is no more. -/
  | ended (o : Option Outcome)
  /-- The cycle has taken note of its end. -/
  | joined
  deriving DecidableEq, Repr

/-- Whether a worker has reported to the collector. -/
def Stage.hasReported : Stage → Bool
  | .ended _ => true
  | .joined => true
  | _ => false

/-- A worker, with the number of its task. -/
structure Worker where
  container : ListedContainer
  task : Nat
  stage : Stage
  deriving DecidableEq, Repr

namespace Worker

/-- What a worker reports: what devices its container has, if any. -/
def message (w : Worker) (o : Option Outcome) : Option Assignment :=
  o.bind fun o => o.assignment? w.container.id

/-- How a worker's task has failed, if it has. -/
def failure? : Option Outcome → Option TaskFailure
  | some (.panicked message) => some (.panicked message)
  | some _ => none
  -- Without an outcome the worker has been dropped.
  | none => some .cancelled

end Worker

end NpuAttribution.Poll
