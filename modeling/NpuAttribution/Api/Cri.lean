import NpuAttribution.Wire.Message

/-!
# `NpuAttribution.Api.Cri`: listing containers

The messages of the container runtime interface that are needed to list containers.
They have more fields than these, which nobody here is interested in.
-/

set_option autoImplicit false

namespace NpuAttribution.Cri

open Wire (Layout Message)

/-- The method that lists containers. -/
def listContainers : String := "/runtime.v1.RuntimeService/ListContainers"

/-- The states of a container. -/
inductive ContainerState
  | created
  | running
  | exited
  | unknown
  deriving DecidableEq, Repr

namespace ContainerState

/-- The number of a state in messages. -/
def number : ContainerState → Int32
  | created => 0
  | running => 1
  | exited => 2
  | unknown => 3

/-- The name of a state. -/
def name : ContainerState → String
  | created => "ContainerCreated"
  | running => "ContainerRunning"
  | exited => "ContainerExited"
  | unknown => "ContainerUnknown"

/-- The state with the given number. A number without a state counts as
created. -/
def ofNumber (n : Int32) : ContainerState :=
  ([created, running, exited, unknown].find? fun s => s.number == n).getD created

end ContainerState

/-- A container's own name, and how often it has been started. -/
structure ContainerMetadata where
  name : String := ""
  attempt : UInt32 := 0
  deriving DecidableEq, Repr

instance : Message ContainerMetadata where
  layout := .cons 1 .text <| .cons 2 .uint32 .nil
  ofFields := fun (name, attempt, ()) => { name, attempt }
  toFields := fun m => (m.name, m.attempt, ())
  ofFields_toFields := fun _ => rfl

/-- A container as it is listed. The state may be any number. -/
structure Container where
  id : String := ""
  podSandboxId : String := ""
  metadata : Option ContainerMetadata := none
  state : Int32 := 0
  labels : SortedMap String := .empty
  deriving DecidableEq, Repr

instance : Message Container where
  layout :=
    .cons 1 .text <| .cons 2 .text <| .cons 3 (.message (Message.layout ContainerMetadata)) <|
      .cons 6 .int32 <| .cons 8 .textMap .nil
  ofFields := fun (id, podSandboxId, metadata, state, labels, ()) =>
    { id, podSandboxId, metadata := metadata.map Message.ofFields, state, labels }
  toFields := fun c =>
    (c.id, c.podSandboxId, c.metadata.map Message.toFields, c.state, c.labels, ())
  ofFields_toFields := fun c => by
    rcases c with ⟨_, _, _ | _, _, _⟩ <;> rfl

/-- The reply to a request for containers. -/
structure ListContainersResponse where
  containers : List Container := []
  deriving DecidableEq, Repr

instance : Message ListContainersResponse where
  layout := .cons 1 (.messages (Message.layout Container)) .nil
  ofFields := fun (containers, ()) => { containers := containers.map Message.ofFields }
  toFields := fun r => (r.containers.map Message.toFields, ())
  ofFields_toFields := fun r => by
    simp [Function.comp_def, Message.ofFields_toFields]

/-- The state that is asked for. -/
structure ContainerStateValue where
  state : Int32 := 0
  deriving DecidableEq, Repr

instance : Message ContainerStateValue where
  layout := .cons 1 .int32 .nil
  ofFields := fun (state, ()) => { state }
  toFields := fun v => (v.state, ())
  ofFields_toFields := fun _ => rfl

/-- Which containers are asked for. -/
structure ContainerFilter where
  id : String := ""
  state : Option ContainerStateValue := none
  podSandboxId : String := ""
  labelSelector : SortedMap String := .empty
  deriving DecidableEq, Repr

instance : Message ContainerFilter where
  layout :=
    .cons 1 .text <| .cons 2 (.message (Message.layout ContainerStateValue)) <|
      .cons 3 .text <| .cons 4 .textMap .nil
  ofFields := fun (id, state, podSandboxId, labelSelector, ()) =>
    { id, state := state.map Message.ofFields, podSandboxId, labelSelector }
  toFields := fun f =>
    (f.id, f.state.map Message.toFields, f.podSandboxId, f.labelSelector, ())
  ofFields_toFields := fun f => by
    rcases f with ⟨_, _ | _, _, _⟩ <;> rfl

/-- A request for containers. -/
structure ListContainersRequest where
  filter : Option ContainerFilter := none
  deriving DecidableEq, Repr

instance : Message ListContainersRequest where
  layout := .cons 1 (.message (Message.layout ContainerFilter)) .nil
  ofFields := fun (filter, ()) => { filter := filter.map Message.ofFields }
  toFields := fun r => (r.filter.map Message.toFields, ())
  ofFields_toFields := fun r => by
    rcases r with ⟨_ | f⟩
    · rfl
    · simp [Message.ofFields_toFields]

/-- The request for the containers that are running. -/
def runningContainers : ListContainersRequest :=
  { filter := some { state := some { state := ContainerState.running.number } } }

end NpuAttribution.Cri
