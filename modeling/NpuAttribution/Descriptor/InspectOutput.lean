import NpuAttribution.Descriptor.Isula
import NpuAttribution.Json.Value

/-!
# `NpuAttribution.Descriptor.InspectOutput`: what iSulad answers to an inspection

The answer is a container document, alone or in an array. The text is read as a value
first and then fitted: to a document, and if that fails to a list of documents, of
which the first counts. A record may be written as an array of its fields, so an array
of one document is taken for a document whose host configuration is that document.
-/

set_option autoImplicit false

namespace NpuAttribution.InspectOutput

open Json (Schema Value Fault Bytes)

/-- The document that an answer holds. Both shapes are tried on the same
value, a document first, so a list is looked at only if it cannot be
taken for a document. -/
def documentOf (v : Value) : Option IsulaDocument :=
  match IsulaDocument.schema.fit v with
  | some fields => some (.ofFields fields)
  | none =>
    match (Schema.list IsulaDocument.schema).fit v with
    -- All documents of the list have to fit, but only the first one is kept.
    | some (fields :: _) => some (.ofFields fields)
    -- An empty list has no first document.
    | some [] => some .empty
    | none => none

/-- Reads an answer. That it fits neither shape comes before anything
that follows it. -/
def decode (text : Bytes) : Except Fault IsulaDocument := do
  let (v, rest) ← Json.readValue Json.maxLevels text
  match documentOf v with
  | some document =>
    Json.readEnd rest
    return document
  | none => throw .mismatched

end NpuAttribution.InspectOutput
