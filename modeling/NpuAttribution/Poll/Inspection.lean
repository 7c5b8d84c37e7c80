import NpuAttribution.Container.Assignment
import NpuAttribution.Container.Listed
import NpuAttribution.Descriptor.Attribution
import NpuAttribution.Poll.Error
import NpuAttribution.Runtime.Client

/-!
# `NpuAttribution.Poll.Inspection`: from a descriptor to an assignment

Inspecting a container means fetching its descriptor and attributing devices by it.
Fetching takes time and may fail, it may even abort the inspection; attributing is
instantaneous. A container without devices is passed over in silence, but one with
devices must have a name.
-/

set_option autoImplicit false

namespace NpuAttribution

/-- The descriptor of a container, in either shape. -/
inductive Descriptor
  | oci (spec : OciSpec)
  | isula (document : IsulaDocument)
  deriving DecidableEq, Repr

/-- The devices that a descriptor gives a container. -/
def Descriptor.select (container : String) (majors : List Nat) :
    Descriptor → Except AttributionError Device.Selection
  | .oci spec => Attribution.ofOci container majors spec
  | .isula document => Attribution.ofIsula container document

namespace Poll

/-- What fetching a descriptor comes to. -/
inductive Found
  | descriptor (d : Descriptor)
  | failed (e : RuntimeError)
  /-- The inspection is aborted, with a last message. -/
  | panicked (message : String)
  deriving DecidableEq, Repr

/-- Why inspecting a container fails. -/
inductive InspectionError
  | runtime (e : RuntimeError)
  | malformed (id : ContainerId) (cause : AttributionError)
  | missingName (id : ContainerId)
  deriving DecidableEq, Repr

/-- The error that a poll cycle reports about a failed inspection. -/
def InspectionError.toMonitorError : InspectionError → MonitorError
  | .runtime e => .runtime e
  | .malformed id cause => .malformed id cause
  | .missingName id => .missingName id

/-- What inspecting a container comes to. -/
inductive Outcome
  | assigned (name : String) (devices : List Nat)
  | unassigned
  | failed (e : InspectionError)
  | panicked (message : String)
  deriving DecidableEq, Repr

/-- The assignment that an outcome means for the container with the given id. -/
def Outcome.assignment? (id : ContainerId) : Outcome → Option Assignment
  | .assigned name devices => some { id, name, devices }
  | _ => none

/-- The error that an inspection reports before it ends. -/
def Outcome.error? : Outcome → Option MonitorError
  | .failed e => some e.toMonitorError
  | _ => none

/-- The outcome for a container with the given devices. -/
def Outcome.ofDevices (c : ListedContainer) (devices : List Nat) : Outcome :=
  if devices.isEmpty then .unassigned
  else
    -- The name is asked for only if there is something to report under it.
    match c.displayName? with
    | some name => .assigned name devices
    | none => .failed (.missingName c.id)

/-- The outcome for a container with the given descriptor, and what the
journal is told about the descriptor: one line for each warning, in the
order in which the parts of the descriptor are read. -/
def Outcome.ofDescriptor (majors : List Nat) (c : ListedContainer) (d : Descriptor) :
    Outcome × List Line :=
  match d.select c.id.text majors with
  | .ok selection => (.ofDevices c selection.devices, selection.warnings.map (·.line))
  -- Nothing is told to the journal about a descriptor that is refused as a whole.
  | .error cause => (.failed (.malformed c.id cause), [])

/-- The outcome of an inspection. -/
def Outcome.ofFound (majors : List Nat) (c : ListedContainer) : Found → Outcome × List Line
  | .descriptor d => Outcome.ofDescriptor majors c d
  | .failed e => (.failed (.runtime e), [])
  | .panicked message => (.panicked message, [])

/-- How an inspection goes: what is found in the end, after how many
milliseconds, and what is asked of the outside world. -/
structure Inspection where
  delay : Nat
  found : Found
  trace : Trace := .empty

/-- Where containers and their descriptors come from. -/
structure Backend where
  listing : Except RuntimeError (List ListedContainer) × Trace
  inspect : ListedContainer → Inspection

/-- What came of fetching a descriptor. -/
def Found.ofExcept {α : Type} (descriptor : α → Descriptor) : Except RuntimeError α → Found
  | .ok a => .descriptor (descriptor a)
  | .error e => .failed e

/-- Inspects a container through a client. It asks for a descriptor of the
shape that the client's runtime provides, and takes no time of its own. -/
def inspectBy (services : Services) (client : Client) (c : ListedContainer) : Inspection :=
  match client.shape with
  | .oci =>
    let (spec, trace) := client.spec services c.id
    { delay := 0, found := .ofExcept .oci spec, trace }
  | .isula =>
    let (document, trace) := client.isulaContainer services c.id
    { delay := 0, found := .ofExcept .isula document, trace }

/-- The containers and descriptors that a client has access to. -/
def Backend.ofClient (services : Services) (client : Client) : Backend where
  listing := client.list services
  inspect := inspectBy services client

end Poll

end NpuAttribution
