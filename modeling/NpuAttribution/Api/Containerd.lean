import NpuAttribution.Wire.Message

/-!
# `NpuAttribution.Api.Containerd`: containers of containerd

The messages of containerd's containers service. The OCI runtime spec of a container
is carried as bytes of a type that is named beside them.
-/

set_option autoImplicit false

namespace NpuAttribution.Containerd

open Wire (Bytes Layout Message)

/-- The method that returns a container. -/
def getContainer : String := "/containerd.services.containers.v1.Containers/Get"

/-- A request for the container with an id. -/
structure GetContainerRequest where
  id : String := ""
  deriving DecidableEq, Repr

instance : Message GetContainerRequest where
  layout := .cons 1 .text .nil
  ofFields := fun (id, ()) => { id }
  toFields := fun r => (r.id, ())
  ofFields_toFields := fun _ => rfl

/-- A value of some type. -/
structure TypedValue where
  typeUrl : String := ""
  value : Bytes := []
  deriving DecidableEq, Repr

instance : Message TypedValue where
  layout := .cons 1 .text <| .cons 2 .bytes .nil
  ofFields := fun (typeUrl, value, ()) => { typeUrl, value }
  toFields := fun v => (v.typeUrl, v.value, ())
  ofFields_toFields := fun _ => rfl

/-- A container. -/
structure Container where
  id : String := ""
  labels : SortedMap String := .empty
  image : String := ""
  spec : Option TypedValue := none
  deriving DecidableEq, Repr

instance : Message Container where
  layout :=
    .cons 1 .text <| .cons 2 .textMap <| .cons 3 .text <|
      .cons 5 (.message (Message.layout TypedValue)) .nil
  ofFields := fun (id, labels, image, spec, ()) =>
    { id, labels, image, spec := spec.map Message.ofFields }
  toFields := fun c => (c.id, c.labels, c.image, c.spec.map Message.toFields, ())
  ofFields_toFields := fun c => by
    rcases c with ⟨_, _, _, _ | _⟩ <;> rfl

/-- The reply to a request for a container. -/
structure GetContainerResponse where
  container : Option Container := none
  deriving DecidableEq, Repr

instance : Message GetContainerResponse where
  layout := .cons 1 (.message (Message.layout Container)) .nil
  ofFields := fun (container, ()) => { container := container.map Message.ofFields }
  toFields := fun r => (r.container.map Message.toFields, ())
  ofFields_toFields := fun r => by
    rcases r with ⟨_ | c⟩
    · rfl
    · simp [Message.ofFields_toFields]

end NpuAttribution.Containerd
