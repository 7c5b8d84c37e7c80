import NpuAttribution.Device.Mapping
import NpuAttribution.Json.Reader

/-!
# `NpuAttribution.Descriptor.Isula`: container documents of iSulad

iSulad describes a container by a document of its own. Only the device mappings, the
privileged flag and the environment are read from it.
-/

set_option autoImplicit false

namespace NpuAttribution

open Device (Mapping)
open Json (Schema Fault Bytes)

/-- The host configuration of a container. -/
structure IsulaHostConfig where
  privileged : Bool
  devices : List Mapping
  deriving DecidableEq, Repr

/-- The configuration of a container: `KEY=VALUE` entries in order of
declaration. -/
structure IsulaConfig where
  env : List String
  deriving DecidableEq, Repr

/-- A container document. -/
structure IsulaDocument where
  hostConfig : Option IsulaHostConfig
  config : Option IsulaConfig
  deriving DecidableEq, Repr

namespace IsulaDocument

/-- How a device mapping is written. -/
@[reducible] def mappingSchema : Schema :=
  .record <| .cons "PathOnHost" .text <| .cons "PathInContainer" .text <|
    .cons "CgroupPermissions" .text .nil

/-- How the host configuration is written. -/
@[reducible] def hostConfigSchema : Schema :=
  -- A container is not privileged unless its document says so.
  .record <| .cons "Privileged" .flag <| .cons "Devices" (.nullable (.list mappingSchema)) .nil

/-- How the configuration is written. -/
@[reducible] def configSchema : Schema :=
  .record <| .cons "Env" (.nullable (.list .text)) .nil

/-- How a container document is written. -/
@[reducible] def schema : Schema :=
  .record <| .cons "HostConfig" (.optional hostConfigSchema) <|
    .cons "Config" (.optional configSchema) .nil

/-- The mapping with the given fields. -/
def mappingOfFields : mappingSchema.Value → Mapping
  | (pathOnHost, pathInContainer, cgroupPermissions, ()) =>
    { pathOnHost, pathInContainer, cgroupPermissions }

/-- The host configuration with the given fields. -/
def hostConfigOfFields : hostConfigSchema.Value → IsulaHostConfig
  | (privileged, devices, ()) => { privileged, devices := devices.map mappingOfFields }

/-- The configuration with the given field. -/
def configOfFields : configSchema.Value → IsulaConfig
  | (env, ()) => { env }

/-- The document with the given fields. -/
def ofFields : schema.Value → IsulaDocument
  | (hostConfig, config, ()) =>
    { hostConfig := hostConfig.map hostConfigOfFields
      config := config.map configOfFields }

/-- Reads a document. -/
def decode (text : Bytes) : Except Fault IsulaDocument :=
  (schema.decode text).map ofFields

/-- A document without any section. It stands for an answer that is an
empty list. -/
def empty : IsulaDocument := ofFields schema.default

end IsulaDocument

end NpuAttribution
