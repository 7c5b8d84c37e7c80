import NpuAttribution.Proofs.Descriptor.InspectOutput
import NpuAttribution.Proofs.Json.Values

/-!
# `NpuAttribution.Proofs.Descriptor.DirectReading`: an inspected document that is read directly

An answer of iSulad is kept as a whole before anything is made of it, although the same document
could be read directly, as it is where an OCI spec is expected. If the answer is an object then
both ways give the same document, and they accept the same answers but for the limits of what is
kept: these hold for everything in the answer, also for what nobody asks for
(`decode_object_iff`). Both are about the same value, since reading directly is fitting what is
written (`decode_bytes`), and keeping an answer is getting what is written (`reads_value`).
-/

set_option autoImplicit false

namespace NpuAttribution.InspectOutput

open Json (Schema Value Fault Bytes Blanks Members Tree Document)

/-- The document that an object makes is the one that fits it, for an
object is never taken for a list. -/
theorem documentOf_object (members : List (String × Value)) :
    documentOf (.object members) =
      (IsulaDocument.schema.fit (.object members)).map IsulaDocument.ofFields := by
  rw [documentOf]
  cases IsulaDocument.schema.fit (.object members) with
  | some fields => rfl
  | none => rfl

/-- A document is read directly if its fields fit what is written. -/
theorem decode_directly (d : Document) :
    (IsulaDocument.decode d.bytes).toOption =
      (IsulaDocument.schema.fit d.tree.value).map IsulaDocument.ofFields := by
  rw [← Json.decode_bytes, IsulaDocument.decode]
  cases IsulaDocument.schema.decode d.bytes <;> rfl

/-- An answer is accepted if all of it keeps to the limits and what is
written makes a document. What follows the value is blank, since the
document is taken apart into a value and blanks. -/
theorem decode_kept (d : Document) :
    (decode d.bytes).toOption = (d.tree.keep? Json.maxLevels).bind documentOf := by
  have hread := Json.reads_value Json.maxLevels d.before d.tree d.after.bytes
    (Json.apart_after d)
  rw [Document.bytes, List.append_assoc]
  show (Json.readValue Json.maxLevels _ >>= _).toOption = _
  rw [Json.toOption_bind, hread]
  cases d.tree.keep? Json.maxLevels with
  | none => rfl
  | some v =>
    simp only [Option.map_some, Option.bind_some]
    cases documentOf v with
    | none => rfl
    | some document =>
      show (Json.readEnd d.after.bytes >>= _).toOption = _
      rw [Json.readEnd_gap]
      rfl

/-- An object is accepted as an answer, and makes a document, if it is
read directly as this document and everything in it keeps to the limits:
at most 127 levels of brackets, numbers in the range of double
precision, no surrogate alone in a string. Both sides are about what is
written, by `decode_kept` and `decode_directly`. -/
theorem decode_object_iff (before after : Blanks) (members : Members) (document : IsulaDocument) :
    decode (Document.bytes ⟨before, .object members, after⟩) = .ok document ↔
      IsulaDocument.decode (Document.bytes ⟨before, .object members, after⟩) = .ok document ∧
        (Tree.object members).Within Json.maxLevels := by
  rw [Json.eq_ok_iff, Json.eq_ok_iff, decode_kept, decode_directly]
  dsimp only
  rw [Tree.keep?]
  by_cases hwithin : (Tree.object members).Within Json.maxLevels
  · -- All keys stand for texts, so the value is an object, and no list of documents.
    have hobject : ∃ ms, (Tree.object members).value = .object ms := by
      have hkeys := (Json.within_object 126 members).mp hwithin
      have hnamed : members.named?.isSome = true :=
        (Json.isSome_named? members).mpr fun m hm => (hkeys m hm).1
      obtain ⟨ms, hms⟩ := Option.isSome_iff_exists.mp hnamed
      exact ⟨_, by rw [Tree.value, members.values?_eq, hms]; rfl⟩
    obtain ⟨ms, hms⟩ := hobject
    rw [if_pos hwithin, hms, Option.bind_some, documentOf_object]
    exact (and_iff_left hwithin).symm
  · rw [if_neg hwithin, Option.bind_none]
    exact iff_of_false (by simp) fun h => hwithin h.2

end NpuAttribution.InspectOutput
