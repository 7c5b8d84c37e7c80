import NpuAttribution.Descriptor.Attribution
import NpuAttribution.Runtime.Error
import NpuAttribution.Text.Duration

/-!
# `NpuAttribution.Poll.Error`: what a poll cycle reports

A cycle reports that containers could not be listed, that it ran out of time, and for
each container why its devices could not be found.
-/

set_option autoImplicit false

namespace NpuAttribution

/-- How a task can end without coming to its end. -/
inductive TaskFailure
  | panicked (message : String)
  /-- It has been dropped, as tasks are when the program is shut down. -/
  | cancelled
  deriving DecidableEq, Repr

/-- What a poll cycle can report. Time limits are in milliseconds, and a
worker is named by the number of its task. -/
inductive MonitorError
  | runtime (e : RuntimeError)
  | malformed (id : ContainerId) (cause : AttributionError)
  | missingName (id : ContainerId)
  | timeout (limit pending dispatched : Nat)
  | workerPanicked (task : Nat) (failure : TaskFailure)
  deriving DecidableEq, Repr

/-- Whether an error says that a cycle ran out of time. -/
def MonitorError.isTimeout : MonitorError → Bool
  | .timeout _ _ _ => true
  | _ => false

/-- The error in words. -/
def MonitorError.message : MonitorError → String
  | .runtime e => e.message
  | .malformed id cause =>
    let cause := cause.message
    s!"malformed descriptor of container `{id}`: {cause}"
  | .missingName id => s!"container `{id}` has devices but no name"
  | .timeout limit pending dispatched =>
    let limit := Text.duration limit
    s!"timed out after {limit} waiting for {pending} of {dispatched} container inspections"
  | .workerPanicked task (.panicked message) =>
    let message := Text.quote message
    s!"container inspection task panicked: task {task} panicked with message {message}"
  | .workerPanicked task .cancelled =>
    s!"container inspection task panicked: task {task} was cancelled"

end NpuAttribution
