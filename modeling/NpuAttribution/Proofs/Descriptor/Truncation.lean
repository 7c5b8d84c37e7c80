import NpuAttribution.Proofs.Descriptor.InspectOutput
import NpuAttribution.Proofs.Json.Truncation
import NpuAttribution.Runtime.Client

/-!
# `NpuAttribution.Proofs.Descriptor.Truncation`: descriptors that break off

Every field of a descriptor has a default, so a descriptor of which the end is missing could be
taken for a smaller one, with fewer devices or without an environment. It never is: a text that
breaks off is refused, whichever kind of descriptor is read from it (`refuse_truncated`). A
runtime that sends such a text has its reply refused for this reason, and no descriptor comes out
of it.
-/

set_option autoImplicit false

namespace NpuAttribution

open Json (Bytes Fault Fields Schema Truncates isBlank)

/-- Descriptors are read whole or not at all:

- `truncated`: a text from which a descriptor is read gives an error if
  it breaks off before its last closing bracket;
- `continued`: with blanks behind it the same descriptor is read, and
  with anything else none. -/
structure Descriptor.ReadsWhole {α : Type} (decode : Bytes → Except Fault α) : Prop where
  truncated : ∀ {cut text : Bytes} {a : α}, Truncates cut text → decode text = .ok a →
    ∃ fault, decode cut = .error fault
  continued : ∀ {text : Bytes} {a : α}, decode text = .ok a → ∀ more : Bytes,
    decode (text ++ more) = if more.all isBlank then .ok a else .error .malformed

/-- Descriptors that break off are refused:

- `spec`, `document`, `inspection`: OCI specs, container documents and
  answers to an inspection are read whole or not at all;
- `specReply`: a reply with a spec that breaks off gives the error that
  it cannot be read;
- `inspectionReply`: so does a reply with an answer that breaks off. -/
structure Descriptor.RefusesTruncated (id : ContainerId) : Prop where
  spec : ReadsWhole OciSpec.decode
  document : ReadsWhole IsulaDocument.decode
  inspection : ReadsWhole InspectOutput.decode
  specReply : ∀ {cut text : Bytes} {s : OciSpec}, Truncates cut text →
    OciSpec.decode text = .ok s → ∀ r : Containerd.GetContainerResponse,
      (r.container.bind (·.spec)).map (·.value) = some cut →
        ∃ fault, Client.specOfResponse id r = .error (.decodeSpec id fault)
  inspectionReply : ∀ {cut text : Bytes} {d : IsulaDocument}, Truncates cut text →
    InspectOutput.decode text = .ok d → ∀ r : Isulad.InspectContainerResponse,
      r.code = 0 → Json.bytesOf r.containerJson = cut →
        ∃ fault, Client.documentOfResponse id r = .error (.decodeInspect id fault)

namespace Descriptor

/-- It is enough to know what may follow a descriptor. What a truncated
text has lost is such a continuation. -/
theorem readsWhole_of_append {α : Type} {decode : Bytes → Except Fault α}
    (h : ∀ {text : Bytes} {a : α}, decode text = .ok a → ∀ more : Bytes,
      decode (text ++ more) = if more.all isBlank then .ok a else .error .malformed) :
    ReadsWhole decode where
  truncated hcut htext := hcut.exists_error h htext
  continued := h

/-- What is made of the fields of a record is read whole because the
record is. OCI specs and container documents are of this kind. -/
theorem readsWhole_of_record {α : Type} {fields : Fields} (ofFields : fields.Values → α) :
    ReadsWhole fun text => ((Schema.record fields).decode text).map ofFields := by
  refine readsWhole_of_append fun {text a} h more => ?_
  cases hread : (Schema.record fields).decode text with
  | error fault =>
    rw [hread] at h
    cases h
  | ok vs =>
    rw [hread] at h
    cases h
    rw [Json.decode_append hread]
    cases more.all isBlank <;> rfl

end Descriptor

namespace InspectOutput

/-- A scalar makes no document, so an answer that is one is refused. -/
theorem documentOf_scalar (x : Json.Scalar) : documentOf (.scalar x) = none := by
  cases x <;> rfl

/-- An answer that has been read can be followed by blanks only. The value
of an answer that makes a document is no scalar, so it ends with a bracket. -/
theorem decode_append {text : Bytes} {document : IsulaDocument}
    (h : decode text = .ok document) (more : Bytes) :
    decode (text ++ more) = if more.all isBlank then .ok document else .error .malformed := by
  obtain ⟨v, rest, hread, hdocument, hend⟩ := decode_eq_ok_iff.mp h
  have hscalar : ∀ x, v ≠ .scalar x := by
    rintro x rfl
    rw [documentOf_scalar] at hdocument
    cases hdocument
  have hread' := Json.readValue_append hread (Json.within_of_readValue hread) (.inr hscalar) more
  simp only [decode, bind, Except.bind, hread', hdocument, Json.readEnd_append hend more]
  cases more.all isBlank <;> rfl

/-- Answers to an inspection are read whole or not at all. -/
theorem readsWhole : Descriptor.ReadsWhole decode :=
  Descriptor.readsWhole_of_append decode_append

end InspectOutput

/-! ### Replies -/

namespace Client

variable {id : ContainerId} {text : Bytes} {fault : Fault}

/-- A reply with a spec that cannot be read gives an error that says so,
and names the container. -/
theorem specOfResponse_of_error (h : OciSpec.decode text = .error fault)
    {r : Containerd.GetContainerResponse}
    (hr : (r.container.bind (·.spec)).map (·.value) = some text) :
    specOfResponse id r = .error (.decodeSpec id fault) := by
  obtain ⟨spec, hspec, rfl⟩ := Option.map_eq_some_iff.mp hr
  rw [specOfResponse, hspec]
  dsimp only
  rw [h]

/-- A reply with an answer that cannot be read gives an error that says
so, and names the container. -/
theorem documentOfResponse_of_error (h : InspectOutput.decode text = .error fault)
    {r : Isulad.InspectContainerResponse} (hcode : r.code = 0)
    (hr : Json.bytesOf r.containerJson = text) :
    documentOfResponse id r = .error (.decodeInspect id fault) := by
  rw [documentOfResponse, if_neg (not_not_intro hcode), hr, h]

end Client

namespace Descriptor

open Client (specOfResponse_of_error documentOfResponse_of_error)

/-- A text that breaks off is refused as a descriptor of any kind, also
in the reply of a runtime. That it is refused is a property of readers
that read a text as a whole (`ReadsWhole`); the parts about replies use
nothing of the reader but that it ends in an error. -/
theorem refuse_truncated (id : ContainerId) : RefusesTruncated id where
  spec := readsWhole_of_record OciSpec.ofFields
  document := readsWhole_of_record IsulaDocument.ofFields
  inspection := InspectOutput.readsWhole
  specReply hcut htext r hr := by
    obtain ⟨fault, hfault⟩ := (readsWhole_of_record OciSpec.ofFields).truncated hcut htext
    exact ⟨fault, specOfResponse_of_error hfault hr⟩
  inspectionReply hcut htext r hcode hr := by
    obtain ⟨fault, hfault⟩ := InspectOutput.readsWhole.truncated hcut htext
    exact ⟨fault, documentOfResponse_of_error hfault hcode hr⟩

-- Only the last bracket is missing, and what is there would do for a spec.
example : OciSpec.decode (Json.bytesOf "\x7b\"process\":\x7b\"env\":[]\x7d") =
    .error .truncated := by
  decide +kernel

end Descriptor

end NpuAttribution
