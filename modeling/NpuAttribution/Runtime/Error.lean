import NpuAttribution.Config.Engine
import NpuAttribution.Container.Id
import NpuAttribution.Json.Byte

/-!
# `NpuAttribution.Runtime.Error`: what can go wrong with the container runtime

Connecting, asking and understanding the answer can all fail, and each failure says
which socket, request or container it is about.
-/

set_option autoImplicit false

namespace NpuAttribution

/-- The two sockets that the monitor needs. -/
inductive Role
  | cri
  | runtime
  deriving DecidableEq, Repr

/-- The name of a role. -/
def Role.name : Role → String
  | .cri => "CRI"
  | .runtime => "runtime"

/-- The operations that a runtime may not support. -/
inductive Operation
  | containerSpec
  | isulaContainer
  | inspect
  deriving DecidableEq, Repr

/-- The name of an operation. -/
def Operation.name : Operation → String
  | .containerSpec => "container_spec"
  | .isulaContainer => "isula_container"
  | .inspect => "inspect"

/-- How a request ended that was not answered by a message. -/
structure Status where
  code : Nat
  message : String
  deriving DecidableEq, Repr

namespace Status

/-- The code of failures of unknown kind. -/
def unknownCode : Nat := 2

/-- The code of failures of the exchange itself. -/
def internalCode : Nat := 13

/-- The largest code with a meaning. -/
def maxCode : Nat := 16

/-- The status that a server sends instead of a message. A code
without a meaning is as good as unknown, and there is no success
without a message. -/
def ofServer (code : Nat) (message : String) : Status :=
  if code = 0 then ⟨internalCode, "the reply has no message"⟩
  else if maxCode < code then ⟨unknownCode, message⟩
  else ⟨code, message⟩

/-- The status of a reply that cannot be read. -/
def unreadable : Status := ⟨internalCode, "the reply cannot be read"⟩

end Status

/-- What can go wrong with the container runtime. -/
inductive RuntimeError
  | connect (role : Role) (tried : List Endpoint)
  | noEndpoint (role : Role)
  | notConnected
  | rpc (method : String) (status : Status)
  | missingSpec (id : ContainerId)
  | decodeSpec (id : ContainerId) (fault : Json.Fault)
  | inspect (id : ContainerId) (code : UInt32) (message : String)
  | decodeInspect (id : ContainerId) (fault : Json.Fault)
  | unsupported (operation : Operation) (shape : DescriptorShape)
  deriving DecidableEq, Repr

/-- What is wrong with a document, in words. -/
def Json.Fault.reason : Json.Fault → String
  | .truncated => "the document ends too early"
  | .malformed => "the document is not JSON"
  | .mismatched => "the document has an unexpected form"

/-- Why a connection could not be made, whatever the cause. -/
def RuntimeError.unreachable : String := "transport error"

/-- The error in words. -/
def RuntimeError.message : RuntimeError → String
  | .connect role tried =>
    let role := role.name
    let paths := Text.bracketed (tried.map fun e => Text.quote e.path)
    s!"failed to connect to {role} endpoint (tried {paths}): {RuntimeError.unreachable}"
  | .noEndpoint role =>
    let role := role.name
    s!"no {role} endpoint configured"
  | .notConnected => "runtime client is not connected"
  | .rpc method status =>
    let reason := status.message
    s!"request `{method}` failed: {reason}"
  | .missingSpec id => s!"container `{id}` has no runtime spec"
  | .decodeSpec id fault =>
    let reason := fault.reason
    s!"failed to decode runtime spec of container `{id}`: {reason}"
  | .inspect id code message => s!"failed to inspect container `{id}`: {message} (cc={code})"
  | .decodeInspect id fault =>
    let reason := fault.reason
    s!"failed to decode inspect output of container `{id}`: {reason}"
  | .unsupported operation shape =>
    let operation := operation.name
    let shape := shape.name
    s!"`{operation}` is not supported for {shape} containers"

end NpuAttribution
