import NpuAttribution.Descriptor.Isula
import NpuAttribution.Descriptor.Oci
import NpuAttribution.Json.Spelling

/-!
# `NpuAttribution.Descriptor.Spelling`: how descriptors may be written

A descriptor is a record, and its sections are records in it. Its fields are what its schema has
names for, so how it may be written is how these fields may be.
-/

set_option autoImplicit false

namespace NpuAttribution

open Device (CgroupRule Mapping)
open Json (Schema Document Fault Bytes)

namespace OciSpec

/-- The fields of a device rule. -/
def ruleFields (r : CgroupRule) : ruleSchema.Value :=
  (r.allow, r.kind, r.major, r.minor, r.access, ())

/-- The field of the process section. -/
def processFields (p : OciProcess) : processSchema.Value := (p.env, ())

/-- The field of the resources section. -/
def resourcesFields (r : OciResources) : resourcesSchema.Value := (r.devices.map ruleFields, ())

/-- The field of the Linux section. -/
def linuxFields (l : OciLinux) : linuxSchema.Value := (l.resources.map resourcesFields, ())

/-- The fields of a spec. -/
def fields (spec : OciSpec) : schema.Value :=
  (spec.process.map processFields, spec.linux.map linuxFields, ())

/-- The document is a spelling of the spec. -/
def IsSpelling (spec : OciSpec) (d : Document) : Prop := schema.Describes spec.fields d.tree

end OciSpec

namespace IsulaDocument

/-- The fields of a device mapping. -/
def mappingFields (m : Mapping) : mappingSchema.Value :=
  (m.pathOnHost, m.pathInContainer, m.cgroupPermissions, ())

/-- The fields of the host configuration. -/
def hostConfigFields (c : IsulaHostConfig) : hostConfigSchema.Value :=
  (c.privileged, c.devices.map mappingFields, ())

/-- The field of the configuration. -/
def configFields (c : IsulaConfig) : configSchema.Value := (c.env, ())

/-- The fields of a container document. -/
def fields (document : IsulaDocument) : schema.Value :=
  (document.hostConfig.map hostConfigFields, document.config.map configFields, ())

/-- The JSON document is a spelling of the container document. -/
def IsSpelling (document : IsulaDocument) (d : Document) : Prop :=
  schema.Describes document.fields d.tree

end IsulaDocument

/-- Descriptors are read however they are written:

- `exists_spelling`: every descriptor has a spelling;
- `accepts`: every spelling of a descriptor is read as this descriptor;
- `refuses`: a document in which an object has a field twice is never
  accepted;
- `unique`: no text is a spelling of two descriptors. -/
structure Descriptor.ReadsSpellings {α : Type} (s : Schema) (decode : Bytes → Except Fault α)
    (IsSpelling : α → Document → Prop) : Prop where
  exists_spelling : ∀ a : α, ∃ d, IsSpelling a d
  accepts : ∀ (a : α) (d : Document), IsSpelling a d → decode d.bytes = .ok a
  refuses : ∀ d : Document, s.Repeats d.tree → ∀ a : α, decode d.bytes ≠ .ok a
  unique : ∀ (a b : α) (d d' : Document), d.bytes = d'.bytes → IsSpelling a d →
    IsSpelling b d' → a = b

end NpuAttribution
