import NpuAttribution.Device.CgroupRule
import NpuAttribution.Json.Reader

/-!
# `NpuAttribution.Descriptor.Oci`: OCI runtime specs

Docker and containerd describe a container by an OCI runtime spec. Only its environment
and its device rules are read. Sections may be missing at this point; it is the
attribution of devices that insists on some of them.
-/

set_option autoImplicit false

namespace NpuAttribution

open Device (CgroupRule)
open Json (Schema Fault Bytes)

/-- The process section: `KEY=VALUE` entries in order of declaration. -/
structure OciProcess where
  env : List String
  deriving DecidableEq, Repr

/-- The resources section. -/
structure OciResources where
  devices : List CgroupRule
  deriving DecidableEq, Repr

/-- The Linux section. -/
structure OciLinux where
  resources : Option OciResources
  deriving DecidableEq, Repr

/-- An OCI runtime spec. -/
structure OciSpec where
  process : Option OciProcess
  linux : Option OciLinux
  deriving DecidableEq, Repr

namespace OciSpec

/-- How a device rule is written. -/
@[reducible] def ruleSchema : Schema :=
  -- Only `allow` takes a value of its own if it is missing: a rule denies by default.
  .record <| .cons "allow" .flag <| .cons "type" (.optional .text) <|
    .cons "major" (.optional .integer) <| .cons "minor" (.optional .integer) <|
    .cons "access" (.optional .text) .nil

/-- How the process section is written. -/
@[reducible] def processSchema : Schema :=
  -- Writing `null` for the environment is the same as leaving it out.
  .record <| .cons "env" (.nullable (.list .text)) .nil

/-- How the resources section is written. -/
@[reducible] def resourcesSchema : Schema :=
  .record <| .cons "devices" (.nullable (.list ruleSchema)) .nil

/-- How the Linux section is written. -/
@[reducible] def linuxSchema : Schema :=
  .record <| .cons "resources" (.optional resourcesSchema) .nil

/-- How an OCI runtime spec is written. -/
@[reducible] def schema : Schema :=
  .record <| .cons "process" (.optional processSchema) <| .cons "linux" (.optional linuxSchema) .nil

/-- The device rule with the given fields. -/
def ruleOfFields : ruleSchema.Value → CgroupRule
  | (allow, kind, major, minor, access, ()) => { allow, kind, major, minor, access }

/-- The process section with the given field. -/
def processOfFields : processSchema.Value → OciProcess
  | (env, ()) => { env }

/-- The resources section with the given field. -/
def resourcesOfFields : resourcesSchema.Value → OciResources
  | (devices, ()) => { devices := devices.map ruleOfFields }

/-- The Linux section with the given field. -/
def linuxOfFields : linuxSchema.Value → OciLinux
  | (resources, ()) => { resources := resources.map resourcesOfFields }

/-- The spec with the given fields. -/
def ofFields : schema.Value → OciSpec
  | (process, linux, ()) =>
    { process := process.map processOfFields
      linux := linux.map linuxOfFields }

/-- Reads a spec. What the schema does not mention is skipped, whatever it is. -/
def decode (text : Bytes) : Except Fault OciSpec :=
  (schema.decode text).map ofFields

end OciSpec

end NpuAttribution
