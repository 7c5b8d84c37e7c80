import Mathlib.Data.List.Basic
import NpuAttribution.Descriptor.Spelling
import NpuAttribution.Proofs.Json.Spelling
import NpuAttribution.Proofs.Json.Writing

/-!
# `NpuAttribution.Proofs.Descriptor.Spelling`: descriptors are read however they are written

Both kinds of descriptors are read by a schema, and made of the fields that have been read. A
descriptor that has been taken apart into its fields is made of them again
(`OciSpec.leftInverse_fields`, `IsulaDocument.leftInverse_fields`), so everything else is about
schemas (`readsSpellings_of_leftInverse`).
-/

set_option autoImplicit false

namespace NpuAttribution

open Function (LeftInverse)
open Json (Schema Fields)

/-! ### Fields -/

/-- What may be missing is put together again if it can be once it is there. -/
theorem leftInverse_option_map {α β : Type} {f : β → α} {g : α → β} (h : LeftInverse f g) :
    LeftInverse (Option.map f) (Option.map g) := by
  intro a?
  cases a? with
  | none => rfl
  | some a => exact congrArg some (h a)

namespace OciSpec

/-- A rule is made of its fields. -/
theorem leftInverse_ruleFields : LeftInverse ruleOfFields ruleFields := fun _ => rfl

/-- A process section is made of its fields. -/
theorem leftInverse_processFields : LeftInverse processOfFields processFields := fun _ => rfl

/-- A resources section is made of its fields, and its rules are made of
theirs. -/
theorem leftInverse_resourcesFields : LeftInverse resourcesOfFields resourcesFields :=
  fun r => congrArg OciResources.mk (leftInverse_ruleFields.list_map r.devices)

/-- A section about Linux is made of its fields, of which there may be none. -/
theorem leftInverse_linuxFields : LeftInverse linuxOfFields linuxFields :=
  fun l => congrArg OciLinux.mk (leftInverse_option_map leftInverse_resourcesFields l.resources)

/-- A spec is made of its fields. -/
theorem leftInverse_fields : LeftInverse ofFields fields := fun spec =>
  congrArg₂ OciSpec.mk (leftInverse_option_map leftInverse_processFields spec.process)
    (leftInverse_option_map leftInverse_linuxFields spec.linux)

/-- Every spec has a spelling. -/
theorem clear_schema : schema.Clear := by
  simp [Schema.Clear, Fields.Clear, Schema.admitsNull, Fields.schema?]

end OciSpec

namespace IsulaDocument

/-- A device mapping is made of its fields. -/
theorem leftInverse_mappingFields : LeftInverse mappingOfFields mappingFields := fun _ => rfl

/-- A host configuration is made of its fields, and its mappings are
made of theirs. -/
theorem leftInverse_hostConfigFields : LeftInverse hostConfigOfFields hostConfigFields :=
  fun c => congrArg (IsulaHostConfig.mk c.privileged)
    (leftInverse_mappingFields.list_map c.devices)

/-- A container's configuration is made of its fields. -/
theorem leftInverse_configFields : LeftInverse configOfFields configFields := fun _ => rfl

/-- A container document is made of its fields. -/
theorem leftInverse_fields : LeftInverse ofFields fields := fun document =>
  congrArg₂ IsulaDocument.mk
    (leftInverse_option_map leftInverse_hostConfigFields document.hostConfig)
    (leftInverse_option_map leftInverse_configFields document.config)

/-- Every container document has a spelling. -/
theorem clear_schema : schema.Clear := by
  simp [Schema.Clear, Fields.Clear, Schema.admitsNull, Fields.schema?]

end IsulaDocument

/-! ### Spellings -/

/-- Descriptors that are read by a schema, and made of the fields that
have been read, are read however they are written. What is said about
documents here has been proved of schemas, and the hypotheses carry it
over to descriptors. -/
theorem readsSpellings_of_leftInverse {α : Type} {s : Schema} (hs : s.Clear)
    {ofFields : s.Value → α} {fields : α → s.Value} (h : LeftInverse ofFields fields) :
    Descriptor.ReadsSpellings s (fun text => (s.decode text).map ofFields)
      (fun a d => s.Describes (fields a) d.tree) where
  exists_spelling := by
    intro a
    obtain ⟨t, ht, -⟩ := s.exists_describes hs (fields a)
    exact ⟨⟨.none, t, .none⟩, ht⟩
  accepts := by
    intro a d hspelling
    show (s.decode d.bytes).map ofFields = .ok a
    rw [Json.decode_of_describes hspelling]
    exact congrArg Except.ok (h a)
  refuses := by
    intro d hrepeats a hdecode
    change (s.decode d.bytes).map ofFields = .ok a at hdecode
    cases hread : s.decode d.bytes with
    | error f =>
      rw [hread] at hdecode
      cases hdecode
    | ok v => exact Json.decode_of_repeats hrepeats v hread
  unique := by
    intro a b d d' hbytes ha hb
    -- One text is read as the fields of both, so they have the same fields.
    have hread := Json.decode_of_describes ha
    rw [hbytes, Json.decode_of_describes hb] at hread
    have hfields : fields b = fields a := Except.ok.inj hread
    exact (h.injective hfields).symm

/-- OCI specs and container documents are read however they are
written: with their members in any order, with blanks and unknown
members in between, with escapes in texts and keys, and with `null`
for what is absent. A text with a member twice is refused. Both kinds
of document are records with a schema, and
`readsSpellings_of_leftInverse` is about these. -/
theorem readsSpellings :
    Descriptor.ReadsSpellings OciSpec.schema OciSpec.decode OciSpec.IsSpelling ∧
      Descriptor.ReadsSpellings IsulaDocument.schema IsulaDocument.decode
        IsulaDocument.IsSpelling :=
  ⟨readsSpellings_of_leftInverse OciSpec.clear_schema OciSpec.leftInverse_fields,
    readsSpellings_of_leftInverse IsulaDocument.clear_schema IsulaDocument.leftInverse_fields⟩

example : OciSpec.decode (Json.bytesOf
    "\x7b\"linux\":null, \"x\":[1e999], \"proce\\u0073s\":\x7b\"env\":null\x7d\x7d") =
      .ok ⟨some ⟨[]⟩, none⟩ := by
  decide +kernel

example : OciSpec.decode (Json.bytesOf "\x7b\"linux\":null, \"linux\":null\x7d") =
    .error .mismatched := by
  decide +kernel

end NpuAttribution
