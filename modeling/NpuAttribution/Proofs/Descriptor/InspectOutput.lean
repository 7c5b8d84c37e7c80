import Mathlib
import NpuAttribution.Descriptor.InspectOutput
import NpuAttribution.Proofs.Json.Extension

/-!
# `NpuAttribution.Proofs.Descriptor.InspectOutput`: a document in an array

iSulad may answer with a document or with an array of one document, and both are meant to say
the same. `decode_bracketed` says what the second answer is taken for. A record may be
written as an array of its fields, and the first field of a document is the host
configuration. So the document in the array is taken for a host configuration whenever it can
be, and only otherwise for a document. Members with other names do not matter to a host
configuration, so a document without a member `Privileged` or `Devices` of its own always can
be one, and then everything that it says is lost.
-/

set_option autoImplicit false

namespace NpuAttribution

namespace Json

/-- The names of the fields of a record. -/
def Fields.names : Fields → List String
  | .nil => []
  | .cons name _ others => name :: others.names

/-- A member that no field is named after is passed over, whatever its
value is. -/
theorem Fields.fitMember_of_unknown : ∀ {fields : Fields} {key : String}, key ∉ fields.names →
    ∀ (v : Value) (slots : fields.Slots), fields.fitMember key v slots = some slots
  | .nil, _, _, _, () => rfl
  | .cons name s others, key, h, v, (slot, slots) => by
    simp only [Fields.names, List.mem_cons, not_or] at h
    rw [Fields.fitMember, if_neg h.1, Fields.fitMember_of_unknown h.2 v slots]
    rfl

/-- A record has its defaults if no member is one of its fields. So an
object that was meant as something else fits a record all of whose
fields may be missing. -/
theorem fit_of_unknown {fields : Fields} {members : List (String × Value)}
    (h : ∀ m ∈ members, m.1 ∉ fields.names) :
    (Schema.record fields).fit (.object members) = some (fields.fill fields.noSlots) := by
  have hfold : ∀ slots, members.foldlM
      (fun slots (m : String × Value) => fields.fitMember m.1 m.2 slots) slots = some slots := by
    induction members with
    | nil => exact fun _ => rfl
    | cons m members ih =>
      intro slots
      rw [List.foldlM_cons, Fields.fitMember_of_unknown (h m List.mem_cons_self)]
      exact ih (fun m hm => h m (List.mem_cons_of_mem _ hm)) slots
  rw [Schema.fit, hfold]
  rfl

end Json

namespace InspectOutput

open Json (Schema Value Fault Bytes)

/-- The array of which the given text is the only item. -/
def bracketed (text : Bytes) : Bytes := 0x5B :: (text ++ [0x5D])

variable {text rest : Bytes} {v : Value} {members : List (String × Value)}
  {document : IsulaDocument}

/-- Reading an answer is reading a value that makes a document and is
followed by nothing. The three parts are taken one after the other, and
each may be an error. -/
theorem decode_eq_ok_iff : decode text = .ok document ↔
    ∃ v rest, Json.readValue Json.maxLevels text = .ok (v, rest) ∧
      documentOf v = some document ∧ Json.readEnd rest = .ok () := by
  constructor
  · intro h
    obtain ⟨⟨v, rest⟩, hv, h⟩ := Json.exists_of_bind_eq_ok h
    cases hdocument : documentOf v with
    | none =>
      simp only [hdocument] at h
      cases h
    | some d =>
      simp only [hdocument] at h
      obtain ⟨_, hend, h⟩ := Json.exists_of_bind_eq_ok h
      cases h
      exact ⟨v, rest, hv, hdocument, hend⟩
  · rintro ⟨v, rest, hv, hdocument, hend⟩
    simp only [decode, bind, Except.bind, hv, hdocument, hend]
    rfl

/-- Nothing but blanks follows where a document may end. -/
theorem skipBlank_of_readEnd (h : Json.readEnd rest = .ok ()) : Json.skipBlank rest = [] := by
  unfold Json.readEnd at h
  split at h
  · assumption
  · cases h

/-- An object in brackets is read as an array with this object as its
only item. The array has one level of brackets more than the object,
which is why its depth is a hypothesis. -/
theorem readValue_bracketed (h : Json.readValue Json.maxLevels text = .ok (.object members, rest))
    (hend : Json.readEnd rest = .ok ())
    (hwithin : (Value.array [.object members]).Within Json.maxLevels) :
    Json.readValue Json.maxLevels (bracketed text) = .ok (.array [.object members], []) := by
  obtain ⟨s, hs⟩ := Json.skipBlank_of_object h
  -- The opening bracket is followed by the object, and the object by the closing bracket.
  have hitem : Json.readValue 126 (0x7B :: (s ++ [0x5D]))
      = .ok (.object members, rest ++ [0x5D]) := by
    rw [← Json.readValue_skipBlank, hs] at h
    exact Json.readValue_append h (hwithin _ (List.mem_singleton_self _)) (.inr (by simp)) [0x5D]
  have hfirst : Json.nextItem true (text ++ [0x5D]) = .ok (.item (0x7B :: (s ++ [0x5D]))) := by
    unfold Json.nextItem
    rw [Json.skipBlank_append hs]
    rfl
  -- What followed the object was blank, so the closing bracket is the next token.
  have hlast : Json.nextItem false (rest ++ [0x5D]) = .ok (.closed []) := by
    have hblank : Json.skipBlank (rest ++ [0x5D]) = [0x5D] := by
      have hrest := skipBlank_of_readEnd hend
      unfold Json.skipBlank at hrest ⊢
      rw [List.dropWhile_append, hrest]
      rfl
    unfold Json.nextItem
    rw [hblank]
    rfl
  have hitems : Json.readItems (Json.readValue 126) (text ++ [0x5D])
      = .ok ([.object members], []) := by
    unfold Json.readItems
    rw [List.length_append, List.length_singleton]
    simp only [Json.readItemsFor, bind, Except.bind, hfirst, hitem, hlast]
    rfl
  have hstart : Json.readStart (bracketed text) = .ok (.array (text ++ [0x5D])) := rfl
  show Json.readValue (126 + 1) (bracketed text) = _
  simp only [Json.readValue, bind, Except.bind, hstart, hitems]
  rfl

open IsulaDocument in
/-- An object that makes a document has the fields of one. It cannot be
a list of documents. -/
theorem fit_of_documentOf (h : documentOf (.object members) = some document) :
    ∃ fields, schema.fit (.object members) = some fields ∧ document = ofFields fields := by
  unfold documentOf at h
  split at h
  · rename_i fields hfit
    cases h
    exact ⟨fields, hfit, rfl⟩
  · have hnone : (Schema.list schema).fit (.object members) = none := rfl
    rw [hnone] at h
    cases h

open IsulaDocument in
/-- What the document in an array is taken for. -/
def rereading (members : List (String × Value)) (document : IsulaDocument) : IsulaDocument :=
  match hostConfigSchema.fit (.object members) with
  | some fields => { hostConfig := some (hostConfigOfFields fields), config := none }
  | none => document

open IsulaDocument in
/-- An array of one object makes a host configuration of the object if
that is possible, and a document otherwise. The first is tried first,
because a record may be written as an array of its fields. -/
theorem documentOf_singleton (h : documentOf (.object members) = some document) :
    documentOf (.array [.object members]) = some (rereading members document) := by
  obtain ⟨fields, hfit, rfl⟩ := fit_of_documentOf h
  -- As a record the array gives the first field, and nothing for the second one.
  have hrecord : schema.fit (.array [.object members])
      = (hostConfigSchema.fit (.object members)).map fun fields => (some fields, none, ()) := by
    show ((hostConfigSchema.fit (.object members)).map some).bind
      (fun hostConfig => some (hostConfig, none, ())) = _
    cases hostConfigSchema.fit (.object members) <;> rfl
  unfold documentOf rereading
  rw [hrecord]
  cases hostConfigSchema.fit (.object members) with
  | some hostConfig => rfl
  | none =>
    -- Only when the array does not fit the record it is taken for a list of
    -- documents.
    have hlist : (Schema.list schema).fit (.array [.object members]) = some [fields] := by
      show [Value.object members].mapM schema.fit = _
      rw [List.mapM_cons, hfit]
      rfl
    simp only [Option.map_none, hlist]

open IsulaDocument in
/-- A document of which no member is one of a host configuration is
taken for an empty one. -/
theorem rereading_of_unknown (h : ∀ m ∈ members, m.1 ≠ "Privileged" ∧ m.1 ≠ "Devices") :
    rereading members document = { hostConfig := some ⟨false, []⟩, config := none } := by
  have hfit : hostConfigSchema.fit (.object members) = some (false, [], ()) := by
    refine Json.fit_of_unknown fun m hm => ?_
    simpa [Json.Fields.names] using h m hm
  unfold rereading
  rw [hfit]
  rfl

/-- What an array of one document is taken for, if the document on its
own is accepted and the array has not too many levels of brackets. Most
documents are not taken for themselves: if no member of theirs is one of
a host configuration then they are taken for an empty one. -/
theorem decode_bracketed (hread : Json.readValue Json.maxLevels text = .ok (.object members, rest))
    (hdecode : decode text = .ok document)
    (hwithin : (Value.array [.object members]).Within Json.maxLevels) :
    decode (bracketed text) = .ok (rereading members document) ∧
      ((∀ m ∈ members, m.1 ≠ "Privileged" ∧ m.1 ≠ "Devices") →
        decode (bracketed text) = .ok { hostConfig := some ⟨false, []⟩, config := none }) := by
  obtain ⟨v, rest', hv, hdocument, hend⟩ := decode_eq_ok_iff.mp hdecode
  rw [hread] at hv
  cases hv
  have hsingleton := documentOf_singleton hdocument
  have htaken : decode (bracketed text) = .ok (rereading members document) :=
    decode_eq_ok_iff.mpr ⟨_, [], readValue_bracketed hread hend hwithin, hsingleton, rfl⟩
  refine ⟨htaken, fun hplain => ?_⟩
  rw [htaken, rereading_of_unknown hplain]

/-- A document with one environment entry. -/
def visible : Bytes :=
  Json.bytesOf "\x7b\"Config\":\x7b\"Env\":[\"ASCEND_VISIBLE_DEVICES=1\"]\x7d\x7d"

/-- The members of the document. -/
def visibleMembers : List (String × Value) :=
  [("Config", .object [("Env", .array [.scalar (.text "ASCEND_VISIBLE_DEVICES=1")])])]

/-- The document is read as its members. -/
theorem readValue_visible :
    Json.readValue Json.maxLevels visible = .ok (.object visibleMembers, []) := by
  cbv

/-- On its own the document says what was meant. -/
theorem decode_visible : decode visible = .ok ⟨none, some ⟨["ASCEND_VISIBLE_DEVICES=1"]⟩⟩ := by
  decide +kernel

/-- There are far fewer brackets than are accepted. -/
theorem within_visible : (Value.array [.object visibleMembers]).Within Json.maxLevels := by
  simp [visibleMembers, Value.Within, Json.maxLevels]

/-- In an array the document is taken for a host configuration, and its
entry is lost. The document on its own makes a device visible, and so
would the array if it was taken for what it stands for. -/
theorem decode_bracketed_visible :
    Json.readValue Json.maxLevels visible = .ok (.object visibleMembers, []) ∧
      decode visible = .ok ⟨none, some ⟨["ASCEND_VISIBLE_DEVICES=1"]⟩⟩ ∧
      (Value.array [.object visibleMembers]).Within Json.maxLevels ∧
      decode (bracketed visible) = .ok ⟨some ⟨false, []⟩, none⟩ := by
  refine ⟨readValue_visible, decode_visible, within_visible, ?_⟩
  refine (decode_bracketed readValue_visible decode_visible within_visible).2 ?_
  simp [visibleMembers]

/-- It is not true that a document in an array means what it means on
its own: the array is taken for the fields of a document in their order,
and the document for the first of them. -/
theorem not_decode_bracketed_eq :
    ¬ ∀ (text rest : Bytes) (members : List (String × Value)) (document : IsulaDocument),
      Json.readValue Json.maxLevels text = .ok (.object members, rest) →
      decode text = .ok document → (Value.array [.object members]).Within Json.maxLevels →
      decode (bracketed text) = .ok document := by
  intro h
  have hsame := h visible [] visibleMembers _ readValue_visible decode_visible within_visible
  have hother : decode (bracketed visible) = .ok ⟨some ⟨false, []⟩, none⟩ := by decide +kernel
  rw [hother] at hsame
  exact absurd hsame (by decide)

end InspectOutput

end NpuAttribution
