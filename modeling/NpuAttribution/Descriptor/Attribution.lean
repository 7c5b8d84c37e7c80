import NpuAttribution.Descriptor.Isula
import NpuAttribution.Descriptor.Oci
import NpuAttribution.Device.VisibleDevices
import NpuAttribution.Text.Quoted

/-!
# `NpuAttribution.Descriptor.Attribution`: the devices that a descriptor gives a container

The environment decides if it declares the visible devices. Of several declarations the
last one counts, well formed or not. If there is none, the devices come from the cgroup
rules of an OCI spec or from the device mappings of an iSulad document.

Both kinds of descriptors must have the sections that are looked at, and neither list
may be longer than a limit. A privileged iSulad container has all devices of the host;
none are attributed to it.
-/

set_option autoImplicit false

namespace NpuAttribution

open Device (CgroupRule Mapping Selection visibleDevicesVariable)

/-- The sections that descriptors must have. -/
inductive DescriptorSection
  | resources
  | process
  | hostConfig
  | config
  deriving DecidableEq, Repr

/-- The name of a section. -/
def DescriptorSection.name : DescriptorSection → String
  | .resources => "linux.resources"
  | .process => "process"
  | .hostConfig => "HostConfig"
  | .config => "Config"

/-- Why no devices can be attributed by a descriptor. -/
inductive AttributionError
  | missingSection (missing : DescriptorSection)
  | tooManyDevices (count : Nat)
  | tooManyEnvs (count : Nat)
  | invalidEnv (entry : String)
  deriving DecidableEq, Repr

namespace Attribution

/-- The most device entries that a descriptor may have. -/
def maxDevices : Nat := 1024

/-- The most environment entries that a descriptor may have. -/
def maxEnvs : Nat := 2048

end Attribution

/-- The error in words. -/
def AttributionError.message : AttributionError → String
  | .missingSection missing =>
    let name := missing.name
    s!"descriptor has no `{name}` section"
  | .tooManyDevices count => s!"descriptor lists {count} devices (max {Attribution.maxDevices})"
  | .tooManyEnvs count =>
    s!"descriptor lists {count} environment entries (max {Attribution.maxEnvs})"
  | .invalidEnv entry => "invalid environment entry " ++ Text.quote entry

namespace Attribution

/-- Both lists of a descriptor have to be within their limits. The device
list is looked at first, and nothing of either list is read before. -/
def checkLimits (devices envs : Nat) : Except AttributionError Unit :=
  if maxDevices < devices then .error (.tooManyDevices devices)
  else if maxEnvs < envs then .error (.tooManyEnvs envs)
  else .ok ()

/-- The texts between the equals signs of an environment entry. -/
def parts (entry : String) : List (List Char) := entry.toList.splitOn '='

/-- Whether an entry declares the visible devices: its text up to the
first equals sign is the name of the variable. An entry without an
equals sign that is just this name counts as well. -/
def isDeclaration (entry : String) : Bool :=
  (parts entry).head? == some visibleDevicesVariable.toList

/-- The last declaration of the visible devices. It hides all earlier
ones, also if it is malformed and they are not. -/
def lastDeclaration? (env : List String) : Option String :=
  env.reverse.find? isDeclaration

/-- The devices of a declaration, which has exactly one equals sign. -/
def selectDeclared (container entry : String) : Except AttributionError Selection :=
  match parts entry with
  -- Two parts mean one equals sign.
  | [_, value] => .ok (Device.VisibleDevices.decode container (String.ofList value))
  | _ => .error (.invalidEnv entry)

/-- The devices that the environment declares, or else those of the
device list. -/
def select (container : String) (env : List String) (listed : Selection) :
    Except AttributionError Selection :=
  match lastDeclaration? env with
  | some entry => selectDeclared container entry
  | none => .ok listed

/-- A section that must be there. -/
def require {α : Type} (s : DescriptorSection) : Option α → Except AttributionError α
  | some a => .ok a
  | none => .error (.missingSection s)

/-- The device rules of a spec. -/
def resources (spec : OciSpec) : Except AttributionError OciResources :=
  require .resources (spec.linux.bind (·.resources))

/-- The devices that an OCI spec gives the container, with the
driver's majors known. -/
def ofOci (container : String) (majors : List Nat) (spec : OciSpec) :
    Except AttributionError Selection := do
  let resources ← resources spec
  let process ← require .process spec.process
  checkLimits resources.devices.length process.env.length
  select container process.env (CgroupRule.selectAll container majors resources.devices)

/-- The devices that an iSulad document gives the container. -/
def ofIsula (container : String) (document : IsulaDocument) :
    Except AttributionError Selection := do
  let hostConfig ← require .hostConfig document.hostConfig
  -- Nothing else is looked at then, and the other section may be missing.
  if hostConfig.privileged then
    return .empty
  else
    let config ← require .config document.config
    checkLimits hostConfig.devices.length config.env.length
    select container config.env (Mapping.selectAll container hostConfig.devices)

end Attribution

end NpuAttribution
