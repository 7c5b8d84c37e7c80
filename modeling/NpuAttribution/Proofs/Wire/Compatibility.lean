import NpuAttribution.Proofs.Wire.Rows
import NpuAttribution.Api.Cri

/-!
# `NpuAttribution.Proofs.Wire.Compatibility`: unknown fields do no harm

The messages here list only some of the fields of those that are really exchanged. This
changes nothing of what is read of the others: if an unknown field is put in between two
fields, whatever its wire type and its content are, the message reads the same
(`Message.decode_padded`). The field may as well stand in a message or map entry inside of
the message, at any depth.

The proof follows the place of the field. Where it stands it is skipped, and the readers of
the enclosing messages depend on their contents only by what is read from them
(`Shape.merge_congr`).
-/

set_option autoImplicit false

namespace NpuAttribution.Wire

/-! ## Map entries -/

/-- The entry of a map is read like a message with two texts. So whatever
is true of the fields of messages is true of the entries of maps as well. -/
theorem readEntry_eq (levels : Nat) (content : Bytes) :
    readEntry levels content
      = (readFields (Layout.entry.mergeField levels) ("", "", ()) content).map
          fun e => (e.1, e.2.1) := by
  refine readFields_map (fun e : String × String × Unit => (e.1, e.2.1)) ?_ ("", "", ()) content
  intro key x s
  simp only [mergeEntryField, Layout.entry, Layout.mergeField, Shape.merge]
  split
  · simp only [Option.map_map]
    rfl
  · split
    · simp only [Option.map_map]
      rfl
    · simp only [Option.map_map]
      rfl

/-! ## Contents that read the same -/

/-- The content of a field may be replaced by one that reads the same.
The length in front of it is replaced with it, so both fields end at the
same place in what follows. -/
theorem Shape.merge_congr {shape : Shape} {inner : Layout} (hinner : shape.inner? = some inner)
    {levels : Nat} {length content length' content' : Bytes}
    (hlength : IsVarint content.length length) (hlength' : IsVarint content'.length length')
    (hread : ∀ x, readFields (inner.mergeField levels) x content'
      = readFields (inner.mergeField levels) x content)
    (t : WireType) (x : shape.Value) (s : Bytes) :
    shape.merge (levels + 1) t x (length' ++ (content' ++ s))
      = shape.merge (levels + 1) t x (length ++ (content ++ s)) := by
  cases shape with
  | message layout =>
    cases hinner
    simp only [merge, contentOf, readDelimited_append hlength, readDelimited_append hlength']
    by_cases ht : t = .delimited
    · simp only [if_pos ht, hread]
    · simp only [if_neg ht]
  -- Each shape with something inside has a length in front of it, or it is not read.
  | messages layout =>
    cases hinner
    simp only [merge, contentOf, readDelimited_append hlength, readDelimited_append hlength']
    by_cases ht : t = .delimited
    · simp only [if_pos ht, hread]
    · simp only [if_neg ht]
  | textMap =>
    cases hinner
    have hentry : readEntry levels content' = readEntry levels content := by
      rw [readEntry_eq, readEntry_eq]
      exact congrArg _ (hread _)
    simp only [merge, readDelimited_append hlength, readDelimited_append hlength', hentry]
  | _ => cases hinner

namespace Layout

/-- A field of a message is merged as its shape says, so what is true of
all values of the shape is true of the field in the state of the message. -/
theorem mergeField_congr (layout : Layout) {shape : Shape} {levels : Nat} {key : Key}
    {s s' : Bytes} (hshape : layout.shape? key.number = some shape)
    (h : ∀ v, shape.merge levels key.wireType v s' = shape.merge levels key.wireType v s)
    (x : layout.Values) :
    layout.mergeField levels key x s' = layout.mergeField levels key x s := by
  cases layout with
  | nil => cases hshape
  | cons number shape' rest =>
    obtain ⟨v, vs⟩ := x
    unfold shape? at hshape
    simp only [mergeField]
    by_cases hnumber : key.number = number
    · rw [if_pos hnumber] at hshape
      cases hshape
      rw [if_pos hnumber, if_pos hnumber, h]
    · rw [if_neg hnumber] at hshape
      rw [if_neg hnumber, if_neg hnumber, mergeField_congr rest hshape h vs]

/-- Messages read the same with an unknown field in front, because the
field is skipped whatever its wire type is. -/
theorem readFields_of_unknown {layout : Layout} {levels number : Nat} {added : Bytes}
    (h : IsField levels number added) (hunknown : layout.shape? number = none)
    (x : layout.Values) (s : Bytes) :
    readFields (layout.mergeField levels) x (added ++ s)
      = readFields (layout.mergeField levels) x s := by
  obtain ⟨key, head, content, rfl, hkey, hcontent, rfl⟩ := h
  have hskip (s : Bytes) : layout.mergeField levels key x (content ++ s)
      = (some x).map fun y => (y, s) := mergeField_of_unknown layout hunknown hcontent x s
  rw [List.append_assoc]
  exact readFields_field (takesFront_mergeField layout levels) hkey x hskip s

/-- Messages read the same with an unknown field anywhere inside of
them. The induction is on the place of the field: it stands between two
fields of this message, or inside of one of them. -/
theorem readFields_padded {layout : Layout} {levels : Nat} {b b' : Bytes}
    (h : layout.Padded levels b b') (x : layout.Values) :
    readFields (layout.mergeField levels) x b' = readFields (layout.mergeField levels) x b := by
  induction h with
  | here hrow hadded hunknown =>
    obtain ⟨r, hr⟩ := readFields_row hrow x
    rw [hr, hr]
    simp only [readFields_of_unknown hadded hunknown]
  | inside hrow hkey hshape hinner _ hlength hlength' ih =>
    rename_i layout inner levels shape key before head length content length' content' after _
    obtain ⟨r, hr⟩ := readFields_row hrow x
    -- The length in front is adjusted, so both fields end where `after` begins.
    have hmerge (y : layout.Values) := mergeField_congr layout hshape
      (fun v => Shape.merge_congr hinner hlength hlength' ih key.wireType v after) y
    have htakes := takesFront_mergeField layout (levels + 1)
    rw [hr, hr]
    refine congrArg r.bind (funext fun y => ?_)
    rw [readFields_key htakes y (readKey_append hkey _), hmerge,
      readFields_key htakes y (readKey_append hkey _)]

end Layout

/-- A message reads the same, or is refused the same, if an unknown
field is put in between two fields of it, or of a message or map entry
at any depth inside of it. The messages that are exchanged have more
fields than the layouts here, and these are unknown. -/
theorem Message.decode_padded {α : Type} [Message α] {b b' : Bytes}
    (h : (Message.layout α).Padded maxLevels b b') :
    (Message.decode b' : Option α) = Message.decode b := by
  unfold Message.decode Layout.decode
  rw [Layout.readFields_padded h]

/-- A label keeps its value though a group stands between the two, which
holds another group and what looks like the key of the label. The enclosing
lengths are adjusted, one of them with more bytes than are needed. -/
theorem Message.decode_padded_label :
    (Message.layout Cri.ListContainersResponse).Padded maxLevels
        [0x0a, 0x08, 0x42, 0x06, 0x0a, 0x01, 0x61, 0x12, 0x01, 0x62]
        [0x0a, 0x8f, 0x00, 0x42, 0x0d, 0x0a, 0x01, 0x61,
          0x1b, 0x0a, 0x01, 0x78, 0x2b, 0x2c, 0x1c, 0x12, 0x01, 0x62]
      ∧ Message.decode [0x0a, 0x8f, 0x00, 0x42, 0x0d, 0x0a, 0x01, 0x61,
          0x1b, 0x0a, 0x01, 0x78, 0x2b, 0x2c, 0x1c, 0x12, 0x01, 0x62]
        = some ({ containers := [{ labels := .ofList [("a", "b")] }] } :
            Cri.ListContainersResponse) := by
  have group : IsField 98 3 [0x1b, 0x0a, 0x01, 0x78, 0x2b, 0x2c, 0x1c] := by
    have opened : IsKey ⟨3, .groupStart⟩ [0x1b] := ⟨27, rfl, rfl⟩
    have text : IsKey ⟨1, .delimited⟩ [0x0a] := ⟨10, rfl, rfl⟩
    have openedInside : IsKey ⟨5, .groupStart⟩ [0x2b] := ⟨43, rfl, rfl⟩
    have closedInside : IsKey ⟨5, .groupEnd⟩ [0x2c] := ⟨44, rfl, rfl⟩
    have closed : IsKey ⟨3, .groupEnd⟩ [0x1c] := ⟨28, rfl, rfl⟩
    have content : IsContent 97 ⟨1, .delimited⟩ [0x01, 0x78] := ⟨[0x01], [0x78], rfl, rfl⟩
    have groupInside : IsContent 97 ⟨5, .groupStart⟩ [0x2c] := .close closedInside
    exact ⟨⟨3, .groupStart⟩, [0x1b], _, rfl, opened,
      .field text content (.field openedInside groupInside (.close closed)), rfl⟩
  have key : Layout.entry.IsRow 98 [0x0a, 0x01, 0x61] := by
    have head : IsKey ⟨1, .delimited⟩ [0x0a] := ⟨10, rfl, rfl⟩
    have content : Layout.entry.IsContent 98 ⟨1, .delimited⟩ [0x01, 0x61] :=
      ⟨rfl, [0x01], [0x61], rfl, rfl⟩
    exact .cons head content .nil
  have label : Layout.entry.Padded 98 [0x0a, 0x01, 0x61, 0x12, 0x01, 0x62]
      [0x0a, 0x01, 0x61, 0x1b, 0x0a, 0x01, 0x78, 0x2b, 0x2c, 0x1c, 0x12, 0x01, 0x62] :=
    .here key group rfl
  have container : (Message.layout Cri.Container).Padded 99
      [0x42, 0x06, 0x0a, 0x01, 0x61, 0x12, 0x01, 0x62]
      [0x42, 0x0d, 0x0a, 0x01, 0x61, 0x1b, 0x0a, 0x01, 0x78, 0x2b, 0x2c, 0x1c,
        0x12, 0x01, 0x62] := by
    have head : IsKey ⟨8, .delimited⟩ [0x42] := ⟨66, rfl, rfl⟩
    have shape : (Message.layout Cri.Container).shape? 8 = some .textMap := rfl
    have short : IsVarint 6 [0x06] := rfl
    have long : IsVarint 13 [0x0d] := rfl
    exact .inside .nil head shape rfl label short long
  have response : (Message.layout Cri.ListContainersResponse).Padded maxLevels
      [0x0a, 0x08, 0x42, 0x06, 0x0a, 0x01, 0x61, 0x12, 0x01, 0x62]
      [0x0a, 0x8f, 0x00, 0x42, 0x0d, 0x0a, 0x01, 0x61,
        0x1b, 0x0a, 0x01, 0x78, 0x2b, 0x2c, 0x1c, 0x12, 0x01, 0x62] := by
    have head : IsKey ⟨1, .delimited⟩ [0x0a] := ⟨10, rfl, rfl⟩
    have shape : (Message.layout Cri.ListContainersResponse).shape? 1
        = some (.messages (Message.layout Cri.Container)) := rfl
    have short : IsVarint 8 [0x08] := rfl
    have long : IsVarint 15 [0x8f, 0x00] := rfl
    exact .inside .nil head shape rfl container short long
  exact ⟨response, (Message.decode_padded response).trans rfl⟩

end NpuAttribution.Wire
