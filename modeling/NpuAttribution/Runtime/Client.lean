import NpuAttribution.Api.Containerd
import NpuAttribution.Api.Isulad
import NpuAttribution.Descriptor.InspectOutput
import NpuAttribution.Descriptor.Oci
import NpuAttribution.Runtime.Connections
import NpuAttribution.Runtime.Listing

/-!
# `NpuAttribution.Runtime.Client`: talking to the container runtime

A client knows the engine and its endpoints, and holds a pair of connections or none.
Only `init` and `close` change the pair. An `init` that fails leaves it as it was.

Containers are always listed over the CRI connection. Docker and containerd describe a
container by an OCI spec, in the namespace of the engine, and iSulad by a document of
its own. Asking for the other kind is refused before anything else is looked at.
-/

set_option autoImplicit false

namespace NpuAttribution

/-- A client of a container runtime. -/
structure Client where
  engine : Engine
  criEndpoints : List Endpoint
  runtimeEndpoints : List Endpoint
  connections : Option ConnectionPair
  deriving DecidableEq, Repr

/-- The namespace in which containerd keeps an engine's containers. -/
def Engine.space? : Engine → Option String
  | .docker => some "moby"
  | .containerd => some "k8s.io"
  | .isula => none

namespace Client

/-- A client that is not connected yet. -/
def ofOptions (o : Options) : Client :=
  { engine := o.engine
    criEndpoints := o.criEndpoints
    runtimeEndpoints := o.descriptorEndpoints
    connections := none }

/-- The shape of the descriptors that the runtime provides. -/
def shape (c : Client) : DescriptorShape := c.engine.shape

/-- Connects to the runtime. -/
def init (host : Host) (c : Client) : Except RuntimeError Unit × Client × Trace :=
  match ConnectionPair.connect host c.criEndpoints c.runtimeEndpoints with
  | (.ok pair, trace) => (.ok (), { c with connections := some pair }, trace)
  -- A client that was connected before stays connected as it was.
  | (.error e, trace) => (.error e, c, trace)

/-- Drops both connections. -/
def close (c : Client) : Client := { c with connections := none }

/-- The request for the running containers. -/
def listRequest (pair : ConnectionPair) : Request :=
  { socket := pair.cri
    method := Cri.listContainers
    space := none
    message := Wire.Message.encode Cri.runningContainers }

/-- Lists the running containers. -/
def list (services : Services) (c : Client) :
    Except RuntimeError (List ListedContainer) × Trace :=
  match c.connections with
  | none => (.error .notConnected, .empty)
  | some pair =>
    -- Whatever is listed, it is asked for over the CRI connection.
    let request := listRequest pair
    match (services.call request : Except RuntimeError Cri.ListContainersResponse) with
    | .error e => (.error e, .request request)
    | .ok response =>
      let (containers, lines) := Listing.ofResponse response
      (.ok containers, { requests := [request], lines })

/-- The request for the OCI spec of a container. -/
def specRequest (engine : Engine) (pair : ConnectionPair) (id : ContainerId) : Request :=
  { socket := pair.runtime
    method := Containerd.getContainer
    space := engine.space?
    message := Wire.Message.encode ({ id := id.text } : Containerd.GetContainerRequest) }

/-- The spec in a reply of containerd. -/
def specOfResponse (id : ContainerId) (r : Containerd.GetContainerResponse) :
    Except RuntimeError OciSpec :=
  match r.container.bind (·.spec) with
  -- There is no container in the reply, or no spec in the container.
  | none => .error (.missingSpec id)
  | some spec =>
    match OciSpec.decode spec.value with
    | .ok s => .ok s
    | .error fault => .error (.decodeSpec id fault)

/-- Fetches the OCI spec of a container. -/
def spec (services : Services) (c : Client) (id : ContainerId) :
    Except RuntimeError OciSpec × Trace :=
  match c.shape, c.connections with
  -- The shape is looked at before the connection.
  | .isula, _ => (.error (.unsupported .containerSpec .isula), .empty)
  | .oci, none => (.error .notConnected, .empty)
  | .oci, some pair =>
    let request := specRequest c.engine pair id
    (services.call request >>= specOfResponse id, .request request)

/-- The request for iSulad's document of a container. -/
def inspectRequest (pair : ConnectionPair) (id : ContainerId) : Request :=
  { socket := pair.runtime
    method := Isulad.inspect
    space := none
    message := Wire.Message.encode (Isulad.inspectRequest id.text) }

/-- The document in a reply of iSulad. -/
def documentOfResponse (id : ContainerId) (r : Isulad.InspectContainerResponse) :
    Except RuntimeError IsulaDocument :=
  -- A code other than zero makes the document irrelevant.
  if r.code ≠ 0 then .error (.inspect id r.code r.message)
  else
    match InspectOutput.decode (Json.bytesOf r.containerJson) with
    | .ok d => .ok d
    | .error fault => .error (.decodeInspect id fault)

/-- Fetches iSulad's document of a container. -/
def isulaContainer (services : Services) (c : Client) (id : ContainerId) :
    Except RuntimeError IsulaDocument × Trace :=
  match c.shape, c.connections with
  | .oci, _ => (.error (.unsupported .isulaContainer .oci), .empty)
  | .isula, none => (.error .notConnected, .empty)
  | .isula, some pair =>
    let request := inspectRequest pair id
    (services.call request >>= documentOfResponse id, .request request)

end Client

end NpuAttribution
