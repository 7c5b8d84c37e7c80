import NpuAttribution.Api.Containerd
import NpuAttribution.Api.Cri
import NpuAttribution.Api.Isulad
import NpuAttribution.Proofs.SortedMap
import NpuAttribution.Proofs.Wire.Compatibility
import NpuAttribution.Proofs.Wire.Values
import NpuAttribution.Wire.Writing

/-!
# `NpuAttribution.Proofs.Wire.RoundTrip`: messages are read as they were written

Whatever a message holds, it is read back from its bytes (`Message.decode_isWriting`), and the
entries of its maps may stand in any order. `Layout.encode` is one of the ways to write a
message.

The induction follows the layout. Its statement is about a reader whose state has the contents
of the layout as a part, given by `put`: the other fields of a message are such a reader's
state. `Layout.ReadsBack` says that the part comes to hold what was written, and
`Shape.ReadsBack` says the same of a single field. Fields have different numbers, so no field
disturbs another one.
-/

set_option autoImplicit false

namespace NpuAttribution.Wire

/-! ## Single fields -/

section Fields

variable {σ : Type} {field : Key → σ → Bytes → Option (σ × Bytes)} {number : Nat} {x y : σ}

/-- A content is told from what follows it by the length in front of it.
The length is written as a number, so it must be one of 64 bits. -/
theorem contentOf_writeDelimited {content : Bytes} (h : content.length < UInt64.size)
    (s : Bytes) : contentOf .delimited (writeDelimited content ++ s) = some (content, s) := by
  show readDelimited (writeVarint content.length ++ content ++ s) = some (content, s)
  rw [List.append_assoc]
  exact readDelimited_append (isVarint_writeVarint h) s

/-- What holds a content is longer than the content. So the bound on the
bytes of a message is a bound on the bytes of everything inside of it. -/
theorem length_le_writeContent (number : Nat) (content : Bytes) :
    content.length ≤ (writeContent number content).length := by
  simp only [writeContent, writeDelimited, List.length_append]
  omega

/-- A field with a length in front is merged, and reading goes on behind
it. What merging does to the state is a hypothesis about this one field. -/
theorem readFields_writeContent (hfield : TakesFront field) (hnumber : isFieldNumber number)
    {content : Bytes}
    (h : ∀ s, field ⟨number, .delimited⟩ x (writeDelimited content ++ s) = some (y, s))
    (t : Bytes) :
    readFields field x (writeContent number content ++ t) = readFields field y t := by
  have hmerge (s : Bytes) : field ⟨number, .delimited⟩ x (writeDelimited content ++ s)
      = (some y).map fun z => (z, s) := h s
  have hread := readFields_field hfield (isKey_writeKey hnumber .delimited) x hmerge t
  rw [writeContent, List.append_assoc, hread]
  rfl

/-- A field that is a number is merged, and reading goes on behind it,
as with `readFields_writeContent`. -/
theorem readFields_writeNumber (hfield : TakesFront field) (hnumber : isFieldNumber number)
    {n : Nat} (h : ∀ s, field ⟨number, .varint⟩ x (writeVarint n ++ s) = some (y, s))
    (t : Bytes) : readFields field x (writeNumber number n ++ t) = readFields field y t := by
  have hmerge (s : Bytes) : field ⟨number, .varint⟩ x (writeVarint n ++ s)
      = (some y).map fun z => (z, s) := h s
  have hread := readFields_field hfield (isKey_writeKey hnumber .varint) x hmerge t
  rw [writeNumber, List.append_assoc, hread]
  rfl

end Fields

/-! ## Parts of a state -/

/-- A field of a message with a larger state is read into one part of
the state. Whatever is written of a content can be read into the part if
it is still at its default. -/
def Shape.ReadsBack (shape : Shape) (levels number : Nat) : Prop :=
  ∀ (σ : Type) (field : Key → σ → Bytes → Option (σ × Bytes)), TakesFront field →
    ∀ put : shape.Value → σ,
      (∀ t v s, field ⟨number, t⟩ (put v) s
        = (shape.merge levels t v s).map fun r => (put r.1, r.2)) →
      ∀ v w, shape.IsWriting number v w → w.length < UInt64.size →
        ∀ t, readFields field (put shape.default) (w ++ t) = readFields field (put v) t

/-- All fields above the bound of a message with a larger state are read
into one part of the state. Whatever is written of their contents can be
read into the part if it is still at its defaults. -/
def Layout.ReadsBack (layout : Layout) (levels bound : Nat) : Prop :=
  ∀ (σ : Type) (field : Key → σ → Bytes → Option (σ × Bytes)), TakesFront field →
    ∀ put : layout.Values → σ,
      (∀ key vs s, bound < key.number → field key (put vs) s
        = (layout.mergeField levels key vs s).map fun r => (put r.1, r.2)) →
      ∀ vs w, layout.IsWriting vs w → w.length < UInt64.size →
        ∀ t, readFields field (put layout.defaults) (w ++ t) = readFields field (put vs) t

/-- The message is then the part that is all of the state, and
nothing follows it. -/
theorem Layout.ReadsBack.readFields_eq {layout : Layout} {levels : Nat}
    (h : layout.ReadsBack levels 0) {vs : layout.Values} {w : Bytes} (hw : layout.IsWriting vs w)
    (hsize : w.length < UInt64.size) :
    readFields (layout.mergeField levels) layout.defaults w = some vs := by
  have hread := h _ _ (takesFront_mergeField layout levels) id
    (fun key vs s _ => (Option.map_id' (x := layout.mergeField levels key vs s)).symm)
    vs w hw hsize []
  rw [List.append_nil] at hread
  exact hread

namespace Shape

variable {levels number : Nat}

/-- A text is read back. The empty text is not written, and then the
part stays at its default, which is the empty text. -/
theorem readsBack_text (hnumber : isFieldNumber number) : text.ReadsBack levels number := by
  intro σ field hfield put hput v w hw hsize t
  have hw' : w = writeText number v := hw
  rw [hw'] at hsize ⊢
  unfold writeText at hsize ⊢
  split
  · rename_i hempty
    rw [hempty]
    rfl
  · rename_i htext
    rw [if_neg htext] at hsize
    -- The text itself is not too long, since the whole field is not.
    have hlength := length_le_writeContent number v.toUTF8.toList
    refine readFields_writeContent hfield hnumber (fun s => ?_) t
    rw [hput]
    simp only [merge, textOf, contentOf_writeDelimited (Nat.lt_of_le_of_lt hlength hsize),
      fromUTF8?_toUTF8, Option.map_some]

/-- Bytes are read back, in the way texts are but without a condition
on what they are. -/
theorem readsBack_bytes (hnumber : isFieldNumber number) : bytes.ReadsBack levels number := by
  intro σ field hfield put hput v w hw hsize t
  have hw' : w = if v.isEmpty then [] else writeContent number v := hw
  rw [hw'] at hsize ⊢
  split
  · rename_i hempty
    rw [List.isEmpty_iff.mp hempty]
    rfl
  · rename_i hcontent
    rw [if_neg hcontent] at hsize
    have hlength := length_le_writeContent number v
    refine readFields_writeContent hfield hnumber (fun s => ?_) t
    rw [hput]
    simp only [merge, contentOf_writeDelimited (Nat.lt_of_le_of_lt hlength hsize),
      Option.map_some]

/-- A flag is read back. Only a flag that is set is written at all, and
always as a one. -/
theorem readsBack_flag (hnumber : isFieldNumber number) : flag.ReadsBack levels number := by
  intro σ field hfield put hput v w hw _ t
  cases v with
  | false =>
    have hw' : w = [] := hw
    rw [hw']
    rfl
  | true =>
    have hw' : w = writeNumber number 1 := hw
    have hone : 1 < UInt64.size := by decide
    rw [hw']
    refine readFields_writeNumber hfield hnumber (fun s => ?_) t
    rw [hput]
    simp only [merge, numberOf_append (isVarint_writeVarint hone), Option.map_some]
    rfl

/-- A signed number is read back. Zero is not written, and a negative
number is written with its sign in all of the upper bits. -/
theorem readsBack_int32 (hnumber : isFieldNumber number) : int32.ReadsBack levels number := by
  intro σ field hfield put hput v w hw _ t
  have hw' : w = if v = 0 then [] else writeNumber number v.toInt64.toUInt64.toNat := hw
  rw [hw']
  split
  · rename_i hzero
    rw [hzero]
    rfl
  · have hbits := v.toInt64.toUInt64.toNat_lt
    refine readFields_writeNumber hfield hnumber (fun s => ?_) t
    rw [hput]
    simp only [merge, numberOf_append (isVarint_writeVarint hbits), Option.map_some,
      ofNat_toUInt64]

/-- An unsigned number is read back. Zero is not written, and the
others have 32 bits. -/
theorem readsBack_uint32 (hnumber : isFieldNumber number) : uint32.ReadsBack levels number := by
  intro σ field hfield put hput v w hw _ t
  have hw' : w = if v = 0 then [] else writeNumber number v.toNat := hw
  rw [hw']
  split
  · rename_i hzero
    rw [hzero]
    rfl
  · have hbits : v.toNat < UInt64.size := Nat.lt_trans v.toNat_lt (by decide)
    refine readFields_writeNumber hfield hnumber (fun s => ?_) t
    rw [hput]
    simp only [merge, numberOf_append (isVarint_writeVarint hbits), Option.map_some,
      UInt32.ofNat_toNat]

/-- A message that is present is read back, even if nothing is written
inside of it. The message inside has one level of nesting less than the
one that holds it. -/
theorem readsBack_message {layout : Layout} (hnumber : isFieldNumber number)
    (h : layout.ReadsBack levels 0) : (message layout).ReadsBack (levels + 1) number := by
  intro σ field hfield put hput v w hw hsize t
  cases v with
  | none =>
    have hw' : w = [] := hw
    rw [hw']
    rfl
  | some v =>
    obtain ⟨content, hcontent, rfl⟩ := hw
    have hlength := length_le_writeContent number content
    have hsmall := Nat.lt_of_le_of_lt hlength hsize
    -- The message is merged into the default of its layout, which is where `h` starts
    -- from.
    refine readFields_writeContent hfield hnumber (fun s => ?_) t
    rw [hput]
    simp only [merge, default, contentOf_writeDelimited hsmall, Option.getD_none,
      h.readFields_eq hcontent hsmall, Option.map_some]

/-- Messages are collected one after the other, in the order in which
they were written. The induction is on the messages that are still to be
read, with any number of messages read before them. -/
theorem readsBack_messages {layout : Layout} (hnumber : isFieldNumber number)
    (h : layout.ReadsBack levels 0) : (messages layout).ReadsBack (levels + 1) number := by
  intro σ field hfield put hput vs w hw hsize t
  obtain ⟨contents, hcontents, rfl⟩ := hw
  -- Those that are read already stand in front of those that are still to be read.
  have key (read : List layout.Values) : readFields field (put read)
      (contents.flatMap (writeContent number) ++ t) = readFields field (put (read ++ vs)) t := by
    induction hcontents generalizing read with
    | nil =>
      rw [List.append_nil]
      rfl
    | cons hcontent _ ih =>
      rename_i v content vs contents _
      rw [List.flatMap_cons, List.length_append] at hsize
      have hlength := length_le_writeContent number content
      have hsmall : content.length < UInt64.size := by omega
      have hfirst (s : Bytes) : field ⟨number, .delimited⟩ (put read)
          (writeDelimited content ++ s) = some (put (read ++ [v]), s) := by
        rw [hput]
        simp only [merge, contentOf_writeDelimited hsmall, h.readFields_eq hcontent hsmall,
          Option.map_some]
      rw [List.flatMap_cons, List.append_assoc,
        readFields_writeContent hfield hnumber hfirst, ih (by omega) (read ++ [v]),
        List.append_assoc]
      rfl
  exact key []

end Shape

namespace Layout

variable {levels bound : Nat}

/-- A message without fields has nothing to read. -/
theorem readsBack_nil : Layout.nil.ReadsBack levels bound := by
  intro σ field _ put _ vs w hw _ t
  have hw' : w = [] := hw
  rw [hw']
  rfl

/-- The first field is read before the others, which have larger
numbers. So the part of the state that belongs to the first field is
still at its default when it is read, and it does not change after that. -/
theorem readsBack_cons {number : Nat} {shape : Shape} {rest : Layout} (hbound : bound < number)
    (hshape : shape.ReadsBack levels number) (hrest : rest.ReadsBack levels number) :
    (Layout.cons number shape rest).ReadsBack levels bound := by
  intro σ field hfield put hput vs w hw hsize t
  obtain ⟨v, vs⟩ := vs
  obtain ⟨first, others, hfirst, hothers, rfl⟩ := hw
  rw [List.length_append] at hsize
  -- The state is a pair, and each half is a part of it in its own right.
  have hputFirst (t : WireType) (v : shape.Value) (s : Bytes) :
      field ⟨number, t⟩ (put (v, rest.defaults)) s
        = (shape.merge levels t v s).map fun r => (put (r.1, rest.defaults), r.2) := by
    rw [hput _ _ _ hbound]
    simp only [mergeField, if_true, Option.map_map]
    rfl
  have hputOthers (key : Key) (vs : rest.Values) (s : Bytes) (hkey : number < key.number) :
      field key (put (v, vs)) s
        = (rest.mergeField levels key vs s).map fun r => (put (v, r.1), r.2) := by
    have hne : key.number ≠ number := by omega
    rw [hput _ _ _ (Nat.lt_trans hbound hkey)]
    simp only [mergeField, if_neg hne, Option.map_map]
    rfl
  rw [List.append_assoc]
  calc readFields field (put (shape.default, rest.defaults)) (first ++ (others ++ t))
      = readFields field (put (v, rest.defaults)) (others ++ t) :=
        hshape _ _ hfield (fun v => put (v, rest.defaults)) hputFirst v first hfirst (by omega) _
    _ = readFields field (put (v, vs)) t :=
        hrest _ _ hfield (fun vs => put (v, vs)) hputOthers vs others hothers (by omega) t

/-- The entry of a map is a message with two texts, the key in front of
the value. -/
theorem readsBack_entry : entry.ReadsBack levels 0 :=
  readsBack_cons (by decide) (Shape.readsBack_text rfl)
    (readsBack_cons (by decide) (Shape.readsBack_text rfl) readsBack_nil)

end Layout

/-- The entry of a map is read back, be the key or the value empty or
not. An empty text is not written here either, and an entry without one
is read with an empty one. -/
theorem readEntry_writeText (levels : Nat) (k v : String)
    (hsize : (writeText 1 k ++ writeText 2 v).length < UInt64.size) :
    readEntry levels (writeText 1 k ++ writeText 2 v) = some (k, v) := by
  have hwriting : Layout.entry.IsWriting (k, v, ()) (writeText 1 k ++ writeText 2 v) :=
    ⟨writeText 1 k, writeText 2 v, rfl, ⟨writeText 2 v, [], rfl, rfl, by simp⟩, rfl⟩
  have hentry : Layout.entry.ReadsBack levels 0 := Layout.readsBack_entry
  have hread := hentry.readFields_eq hwriting hsize
  rw [readEntry_eq]
  exact congrArg _ hread

/-- A map is read back, in whatever order its entries stand. Reading
inserts one entry after the other, and since no two of them have the
same key, the order is of no consequence. -/
theorem Shape.readsBack_textMap {levels number : Nat} (hnumber : isFieldNumber number) :
    textMap.ReadsBack (levels + 1) number := by
  intro σ field hfield put hput m w hw hsize t
  obtain ⟨entries, hperm, rfl⟩ := hw
  -- The entries that are read already are in the map.
  have key (read : SortedMap String) : readFields field (put read)
      (entries.flatMap (writeEntry number) ++ t)
        = readFields field (put (entries.foldl (fun m e => m.insert e.1 e.2) read)) t := by
    clear hperm
    induction entries generalizing read with
    | nil => rfl
    | cons e entries ih =>
      rw [List.flatMap_cons, List.length_append] at hsize
      have hlength := length_le_writeContent number (writeText 1 e.1 ++ writeText 2 e.2)
      unfold writeEntry at hsize
      have hsmall : (writeText 1 e.1 ++ writeText 2 e.2).length < UInt64.size := by omega
      have hfirst (s : Bytes) : field ⟨number, .delimited⟩ (put read)
          (writeDelimited (writeText 1 e.1 ++ writeText 2 e.2) ++ s)
            = some (put (read.insert e.1 e.2), s) := by
        have hcontent := contentOf_writeDelimited hsmall s
        have hdelimited : readDelimited
            (writeDelimited (writeText 1 e.1 ++ writeText 2 e.2) ++ s)
              = some (writeText 1 e.1 ++ writeText 2 e.2, s) := hcontent
        rw [hput]
        simp only [merge, hdelimited, readEntry_writeText levels e.1 e.2 hsmall, Option.map_some]
      rw [List.flatMap_cons, List.append_assoc, writeEntry,
        readFields_writeContent hfield hnumber hfirst, List.foldl_cons]
      exact ih (by unfold writeEntry; omega) (read.insert e.1 e.2)
  have hmap : entries.foldl (fun m e => m.insert e.1 e.2) SortedMap.empty = m :=
    SortedMap.ofList_of_perm hperm
  have hread := key SortedMap.empty
  rw [hmap] at hread
  exact hread

/-! ## Whole messages -/

mutual

/-- The fields of a well-formed layout are read back. This and the next
theorem follow the layout together, and the levels of nesting become
fewer with each message inside. -/
theorem Layout.readsBack : (layout : Layout) → (levels bound : Nat) →
    layout.isWellFormed levels bound → layout.ReadsBack levels bound
  | .nil, _, _, _ => Layout.readsBack_nil
  | .cons number shape rest, levels, bound, h => by
    simp only [Layout.isWellFormed, Bool.and_eq_true, decide_eq_true_eq] at h
    obtain ⟨⟨⟨hbound, hnumber⟩, hshape⟩, hrest⟩ := h
    exact Layout.readsBack_cons hbound (Shape.readsBack shape levels number hnumber hshape)
      (Layout.readsBack rest levels number hrest)

/-- A field is read back if what is inside of it is well-formed, which
for texts and numbers says nothing. -/
theorem Shape.readsBack : (shape : Shape) → (levels number : Nat) → isFieldNumber number →
    shape.isWellFormed levels → shape.ReadsBack levels number
  | .text, _, _, hnumber, _ => Shape.readsBack_text hnumber
  | .bytes, _, _, hnumber, _ => Shape.readsBack_bytes hnumber
  | .flag, _, _, hnumber, _ => Shape.readsBack_flag hnumber
  | .int32, _, _, hnumber, _ => Shape.readsBack_int32 hnumber
  | .uint32, _, _, hnumber, _ => Shape.readsBack_uint32 hnumber
  | .message layout, levels, number, hnumber, h => by
    simp only [Shape.isWellFormed, Bool.and_eq_true, decide_eq_true_eq] at h
    obtain ⟨levels, rfl⟩ := Nat.exists_eq_add_of_lt h.1
    exact Shape.readsBack_message hnumber (Layout.readsBack layout _ 0 h.2)
  | .messages layout, levels, number, hnumber, h => by
    simp only [Shape.isWellFormed, Bool.and_eq_true, decide_eq_true_eq] at h
    obtain ⟨levels, rfl⟩ := Nat.exists_eq_add_of_lt h.1
    exact Shape.readsBack_messages hnumber (Layout.readsBack layout _ 0 h.2)
  | .textMap, levels, number, hnumber, h => by
    simp only [Shape.isWellFormed, decide_eq_true_eq] at h
    obtain ⟨levels, rfl⟩ := Nat.exists_eq_add_of_lt h
    exact Shape.readsBack_textMap hnumber

end

mutual

/-- The bytes of `encode` are a writing of the message, the one in which
the fields follow each other as in the layout. -/
theorem Layout.isWriting_encode : (layout : Layout) → (vs : layout.Values) →
    layout.IsWriting vs (layout.encode vs)
  | .nil, () => rfl
  | .cons number shape rest, (v, vs) =>
    ⟨shape.encode number v, rest.encode vs, Shape.isWriting_encode shape number v,
      Layout.isWriting_encode rest vs, rfl⟩

/-- The bytes of `encode` are a writing of the field. Of a map it is the
writing in which the keys ascend. -/
theorem Shape.isWriting_encode : (shape : Shape) → (number : Nat) → (v : shape.Value) →
    shape.IsWriting number v (shape.encode number v)
  | .text, _, _ => rfl
  | .bytes, _, _ => rfl
  | .flag, _, _ => rfl
  | .int32, _, _ => rfl
  | .uint32, _, _ => rfl
  | .message _, _, none => rfl
  | .message layout, _, some v => ⟨layout.encode v, Layout.isWriting_encode layout v, rfl⟩
  | .messages layout, number, vs => by
    refine ⟨vs.map layout.encode, ?_, ?_⟩
    · rw [List.forall₂_map_right_iff]
      exact List.forall₂_same.mpr fun v _ => Layout.isWriting_encode layout v
    · rw [List.flatMap_map]
      rfl
  | .textMap, _, m => ⟨m.entries, .refl _, rfl⟩

end

/-- A message is read back from its bytes, be they those of `encode` or
others in which the entries of maps stand in another order. Lengths are
written as 64 bits, so there must be less than 2^64 bytes. By induction
on the layout, which is the same for all messages (`Layout.readsBack`);
what is left here is that a message is the same as its fields. -/
theorem Message.decode_isWriting {α : Type} [Message α] (a : α) :
    Message.IsWriting a (Message.encode a)
      ∧ ∀ s, Message.IsWriting a s → s.length < UInt64.size → Message.decode s = some a := by
  constructor
  · exact Layout.isWriting_encode _ _
  · intro s hs hsize
    have hlayout := Layout.readsBack (Message.layout α) maxLevels 0 Message.isWellFormed
    unfold Message.decode Layout.decode
    rw [hlayout.readFields_eq hs hsize]
    exact congrArg some (Message.ofFields_toFields a)

/-- A container is read back with metadata that are present but at their
defaults, with a negative state, and with two labels in descending
order, one without a key and one without a value. -/
theorem Message.decode_isWriting_container :
    Message.IsWriting
        ({ metadata := some {}, state := -7, labels := .ofList [("", "x"), ("b", "")] } :
          Cri.Container)
        [0x1a, 0x00,
          0x30, 0xf9, 0xff, 0xff, 0xff, 0xff, 0xff, 0xff, 0xff, 0xff, 0x01,
          0x42, 0x03, 0x0a, 0x01, 0x62, 0x42, 0x03, 0x12, 0x01, 0x78]
      ∧ Message.decode [0x1a, 0x00,
          0x30, 0xf9, 0xff, 0xff, 0xff, 0xff, 0xff, 0xff, 0xff, 0xff, 0x01,
          0x42, 0x03, 0x0a, 0x01, 0x62, 0x42, 0x03, 0x12, 0x01, 0x78]
        = some ({ metadata := some {}, state := -7, labels := .ofList [("", "x"), ("b", "")] } :
            Cri.Container) := by
  have metadata : (Shape.message (Message.layout Cri.ContainerMetadata)).IsWriting 3
      (some ("", 0, ())) [0x1a, 0x00] :=
    ⟨[], ⟨[], [], rfl, ⟨[], [], rfl, rfl, rfl⟩, rfl⟩, rfl⟩
  have state : Shape.int32.IsWriting 6 (-7)
      [0x30, 0xf9, 0xff, 0xff, 0xff, 0xff, 0xff, 0xff, 0xff, 0xff, 0x01] := by
    show _ = Shape.int32.encode 6 (-7)
    decide
  have labels : Shape.textMap.IsWriting 8 (.ofList [("", "x"), ("b", "")])
      [0x42, 0x03, 0x0a, 0x01, 0x62, 0x42, 0x03, 0x12, 0x01, 0x78] := by
    refine ⟨[("b", ""), ("", "x")], ?_, by decide +kernel⟩
    exact List.Perm.swap ("", "x") ("b", "") []
  have container : Message.IsWriting
      ({ metadata := some {}, state := -7, labels := .ofList [("", "x"), ("b", "")] } :
        Cri.Container)
      [0x1a, 0x00,
        0x30, 0xf9, 0xff, 0xff, 0xff, 0xff, 0xff, 0xff, 0xff, 0xff, 0x01,
        0x42, 0x03, 0x0a, 0x01, 0x62, 0x42, 0x03, 0x12, 0x01, 0x78] :=
    ⟨[], _, rfl, ⟨[], _, rfl, ⟨_, _, metadata, ⟨_, _, state, ⟨_, _, labels, rfl, rfl⟩,
      rfl⟩, rfl⟩, rfl⟩, rfl⟩
  exact ⟨container, (Message.decode_isWriting _).2 _ container (by decide)⟩

end NpuAttribution.Wire
