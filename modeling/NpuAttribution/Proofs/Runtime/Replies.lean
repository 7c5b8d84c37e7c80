import NpuAttribution.Proofs.Runtime.Requests

/-!
# `NpuAttribution.Proofs.Runtime.Replies`: what a client makes of a reply

The transport answers a request by bytes or by a status. `Reply.Means` says what a call comes
to by this answer, and `Reply.GivesSpec` and `Reply.GivesDocument` say the same of an
inspection: which descriptor is found for the container, or which error is.

The three relations speak about nothing but the reply. They go through what there is to read
in it, from the outside to the inside: the status, the protobuf message, the parts of the
message, and the JSON document. `call_means` and `inspectBy_gives` prove that the client reads
its replies in this way, so other modules can state what becomes of a container without
mentioning the client's own functions.
-/

set_option autoImplicit false

namespace NpuAttribution

open Poll (Found inspectBy)

namespace Reply

/-- What a call of the given method comes to by its reply:

- `status`: a status is the error, whatever it says;
- `unreadable`: bytes that are no message of the expected type are an
  error;
- `message`: bytes that are such a message are read. -/
inductive Means {α : Type} [Wire.Message α] (method : String) : Reply → Except RuntimeError α → Prop
  | status (code : Nat) (message : String) :
    Means method (.status code message) (.error (.rpc method (.ofServer code message)))
  | unreadable (content : Wire.Bytes)
    (hread : (Wire.Message.decode content : Option α) = none) :
    Means method (.message content) (.error (.rpc method .unreadable))
  | message (content : Wire.Bytes) (a : α) (hread : Wire.Message.decode content = some a) :
    Means method (.message content) (.ok a)

/-- What is found by containerd's reply about the container with the given id:

- `failed`: the call has failed, with this error;
- `noContainer`, `noSpec`: there is no spec in the message;
- `undecodable`: there is a spec, but its bytes are not a JSON document of the
  right form;
- `spec`: the bytes of the spec are such a document, and this is what it says. -/
inductive GivesSpec (id : ContainerId) (reply : Reply) : Found → Prop
  | failed (e : RuntimeError)
    (hcall : reply.Means Containerd.getContainer
      (.error e : Except RuntimeError Containerd.GetContainerResponse)) :
    GivesSpec id reply (.failed e)
  | noContainer (response : Containerd.GetContainerResponse)
    (hcall : reply.Means Containerd.getContainer (.ok response))
    (hnone : response.container = none) :
    GivesSpec id reply (.failed (.missingSpec id))
  | noSpec (response : Containerd.GetContainerResponse) (container : Containerd.Container)
    (hcall : reply.Means Containerd.getContainer (.ok response))
    (hcontainer : response.container = some container) (hnone : container.spec = none) :
    GivesSpec id reply (.failed (.missingSpec id))
  | undecodable (response : Containerd.GetContainerResponse) (container : Containerd.Container)
    (value : Containerd.TypedValue) (fault : Json.Fault)
    (hcall : reply.Means Containerd.getContainer (.ok response))
    (hcontainer : response.container = some container) (hvalue : container.spec = some value)
    (hdecode : OciSpec.decode value.value = .error fault) :
    GivesSpec id reply (.failed (.decodeSpec id fault))
  | spec (response : Containerd.GetContainerResponse) (container : Containerd.Container)
    (value : Containerd.TypedValue) (s : OciSpec)
    (hcall : reply.Means Containerd.getContainer (.ok response))
    (hcontainer : response.container = some container) (hvalue : container.spec = some value)
    (hdecode : OciSpec.decode value.value = .ok s) :
    GivesSpec id reply (.descriptor (.oci s))

/-- What is found by iSulad's reply about the container with the given
id:

- `failed`: the call has failed, with this error;
- `refused`: the message says by its code that iSulad could not inspect
  the container;
- `undecodable`: the code is zero, but the text is not a JSON document
  of the right form;
- `document`: the code is zero and the text is such a document, and this
  is what it says. -/
inductive GivesDocument (id : ContainerId) (reply : Reply) : Found → Prop
  | failed (e : RuntimeError)
    (hcall : reply.Means Isulad.inspect
      (.error e : Except RuntimeError Isulad.InspectContainerResponse)) :
    GivesDocument id reply (.failed e)
  | refused (response : Isulad.InspectContainerResponse)
    (hcall : reply.Means Isulad.inspect (.ok response)) (hcode : response.code ≠ 0) :
    GivesDocument id reply (.failed (.inspect id response.code response.message))
  | undecodable (response : Isulad.InspectContainerResponse) (fault : Json.Fault)
    (hcall : reply.Means Isulad.inspect (.ok response)) (hcode : response.code = 0)
    (hdecode : InspectOutput.decode (Json.bytesOf response.containerJson) = .error fault) :
    GivesDocument id reply (.failed (.decodeInspect id fault))
  | document (response : Isulad.InspectContainerResponse) (d : IsulaDocument)
    (hcall : reply.Means Isulad.inspect (.ok response)) (hcode : response.code = 0)
    (hdecode : InspectOutput.decode (Json.bytesOf response.containerJson) = .ok d) :
    GivesDocument id reply (.descriptor (.isula d))

/-- What is found by the reply about a container, for descriptors of
the given shape. -/
def Gives (shape : DescriptorShape) (id : ContainerId) (reply : Reply) (found : Found) : Prop :=
  match shape with
  | .oci => reply.GivesSpec id found
  | .isula => reply.GivesDocument id found

end Reply

section

variable (services : Services) {client : Client} {pair : ConnectionPair}

/-- A call comes to what its reply means. There are three cases, as the
reply is a status or has bytes, and these are a message or not. -/
theorem call_means {α : Type} [Wire.Message α] (r : Request) :
    (services r).Means r.method (services.call r : Except RuntimeError α) := by
  unfold Services.call
  cases services r with
  | status code message => exact .status code message
  | message content =>
    cases hread : (Wire.Message.decode content : Option α) with
    | none =>
      simp only [hread]
      exact .unreadable content hread
    | some a =>
      simp only [hread]
      exact .message content a hread

/-- The reply means nothing else than what the call comes to. -/
theorem eq_call_of_means {α : Type} [Wire.Message α] (r : Request)
    {result : Except RuntimeError α} (h : (services r).Means r.method result) :
    services.call r = result := by
  unfold Services.call
  generalize services r = reply at h
  cases h with
  | status => rfl
  | unreadable content hread => simp only [hread]
  | message content a hread => simp only [hread]

/-- Over the pair that is held, the spec of a container is what
containerd's reply gives. The reply is the one to the request for this
container, so nothing else has a part in it. -/
theorem spec_gives (hconn : client.connections = some pair) (hshape : client.shape = .oci)
    (id : ContainerId) :
    (services (Client.specRequest client.engine pair id)).GivesSpec id
      (.ofExcept .oci (client.spec services id).1) := by
  have hcall : (services (Client.specRequest client.engine pair id)).Means Containerd.getContainer
      (services.call (Client.specRequest client.engine pair id) :
        Except RuntimeError Containerd.GetContainerResponse) :=
    call_means services (Client.specRequest client.engine pair id)
  unfold Client.spec
  rw [hshape, hconn]
  simp only
  -- The reply is read layer by layer, and there may be something wrong with each of them.
  cases hresult : (services.call (Client.specRequest client.engine pair id) :
      Except RuntimeError Containerd.GetContainerResponse) with
  | error e =>
    rw [hresult] at hcall
    exact .failed e hcall
  | ok response =>
    rw [hresult] at hcall
    show Reply.GivesSpec id _ (.ofExcept .oci (Client.specOfResponse id response))
    unfold Client.specOfResponse
    cases hcontainer : response.container with
    | none => exact .noContainer response hcall hcontainer
    | some container =>
      rw [Option.bind_some]
      cases hvalue : container.spec with
      | none => exact .noSpec response container hcall hcontainer hvalue
      | some value =>
        cases hdecode : OciSpec.decode value.value with
        | error fault =>
          simp only [hdecode]
          exact .undecodable response container value fault hcall hcontainer hvalue hdecode
        | ok s =>
          simp only [hdecode]
          exact .spec response container value s hcall hcontainer hvalue hdecode

/-- Over the pair that is held, the document of a container is what
iSulad's reply gives: the document that its text says, an error about the
text if it says none, or the error of the runtime if the code is not zero. -/
theorem document_gives (hconn : client.connections = some pair) (hshape : client.shape = .isula)
    (id : ContainerId) :
    (services (Client.inspectRequest pair id)).GivesDocument id
      (.ofExcept .isula (client.isulaContainer services id).1) := by
  have hcall : (services (Client.inspectRequest pair id)).Means Isulad.inspect
      (services.call (Client.inspectRequest pair id) :
        Except RuntimeError Isulad.InspectContainerResponse) :=
    call_means services (Client.inspectRequest pair id)
  unfold Client.isulaContainer
  rw [hshape, hconn]
  simp only
  cases hresult : (services.call (Client.inspectRequest pair id) :
      Except RuntimeError Isulad.InspectContainerResponse) with
  | error e =>
    rw [hresult] at hcall
    exact .failed e hcall
  | ok response =>
    rw [hresult] at hcall
    show Reply.GivesDocument id _ (.ofExcept .isula (Client.documentOfResponse id response))
    unfold Client.documentOfResponse
    -- The code is looked at before the document, which is not even read if it is not zero.
    by_cases hcode : response.code = 0
    · rw [if_neg (by simpa using hcode)]
      cases hdecode : InspectOutput.decode (Json.bytesOf response.containerJson) with
      | error fault => exact .undecodable response fault hcall hcode hdecode
      | ok d => exact .document response d hcall hcode hdecode
    · rw [if_pos hcode]
      exact .refused response hcall hcode

/-- What an inspection finds is what the reply to its request gives. The
engine decides which of the two runtimes has been asked. -/
theorem inspectBy_gives (hconn : client.connections = some pair) (ct : ListedContainer) :
    (services (client.descriptorRequest pair ct.id)).Gives client.shape ct.id
      (inspectBy services client ct).found := by
  unfold inspectBy Client.descriptorRequest Reply.Gives
  cases hshape : client.shape with
  | oci => exact spec_gives services hconn hshape ct.id
  | isula => exact document_gives services hconn hshape ct.id

end

end NpuAttribution
