import NpuAttribution.Wire.Message

/-!
# `NpuAttribution.Api.Isulad`: inspecting containers of iSulad

The messages of iSulad's container service. The description of a container is a text
inside of the reply, and so is what went wrong if there is none.
-/

set_option autoImplicit false

namespace NpuAttribution.Isulad

open Wire (Layout Message)

/-- The method that inspects a container. -/
def inspect : String := "/containers.ContainerService/Inspect"

/-- A request to inspect the container with an id, with the seconds that
iSulad may spend on it. -/
structure InspectContainerRequest where
  id : String := ""
  bformat : Bool := false
  timeout : Int32 := 0
  deriving DecidableEq, Repr

instance : Message InspectContainerRequest where
  layout := .cons 1 .text <| .cons 2 .flag <| .cons 3 .int32 .nil
  ofFields := fun (id, bformat, timeout, ()) => { id, bformat, timeout }
  toFields := fun r => (r.id, r.bformat, r.timeout, ())
  ofFields_toFields := fun _ => rfl

/-- The reply to an inspection. The code is zero if there was no failure. -/
structure InspectContainerResponse where
  containerJson : String := ""
  code : UInt32 := 0
  message : String := ""
  deriving DecidableEq, Repr

instance : Message InspectContainerResponse where
  layout := .cons 1 .text <| .cons 2 .uint32 <| .cons 3 .text .nil
  ofFields := fun (containerJson, code, message, ()) => { containerJson, code, message }
  toFields := fun r => (r.containerJson, r.code, r.message, ())
  ofFields_toFields := fun _ => rfl

/-- The seconds that iSulad is given for an inspection. -/
def inspectTimeout : Int32 := 5

/-- The request to inspect a container. -/
def inspectRequest (id : String) : InspectContainerRequest :=
  { id, timeout := inspectTimeout }

end NpuAttribution.Isulad
