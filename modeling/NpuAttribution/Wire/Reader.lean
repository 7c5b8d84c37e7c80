import NpuAttribution.Wire.Field
import NpuAttribution.Wire.Layout

/-!
# `NpuAttribution.Wire.Reader`: reading messages

Reading merges the fields of the bytes into the contents of a message, one after the
other, starting from the defaults. Of several texts or numbers in one field the last
one counts, the parts of one message are merged, and repeated messages are collected.
Fields that the layout does not list are skipped.
-/

set_option autoImplicit false

namespace NpuAttribution.Wire

/-- Messages may be nested to so many levels. -/
def maxLevels : Nat := 100

/-- Reads the content of a field with a length in front. -/
def contentOf (t : WireType) (s : Bytes) : Option (Bytes × Bytes) :=
  if t = .delimited then readDelimited s else none

/-- Reads the content of a field that is a number. -/
def numberOf (t : WireType) (s : Bytes) : Option (Nat × Bytes) :=
  if t = .varint then readVarint s else none

/-- Reads the content of a field that is a text. The bytes of a text
have to be UTF-8. -/
def textOf (t : WireType) (s : Bytes) : Option (String × Bytes) :=
  match contentOf t s with
  | some (content, s) => (String.fromUTF8? ⟨content.toArray⟩).map fun text => (text, s)
  | none => none

/-- Merges a field into the entry of a map, in which 1 is the key and 2
the value. An entry is read like a message, so it may have other fields,
which are skipped. -/
def mergeEntryField (levels : Nat) (key : Key) (entry : String × String) (s : Bytes) :
    Option ((String × String) × Bytes) :=
  if key.number = 1 then
    (textOf key.wireType s).map fun (k, s) => ((k, entry.2), s)
  else if key.number = 2 then
    (textOf key.wireType s).map fun (v, s) => ((entry.1, v), s)
  else
    (skipContent levels key s).map fun s => (entry, s)

/-- Reads the entry of a map. -/
def readEntry (levels : Nat) (content : Bytes) : Option (String × String) :=
  readFields (mergeEntryField levels) ("", "") content

mutual

/-- Merges the content of a field into what has been read of the field
before. A text or a number replaces what was there, a message is merged
with it, and repeated messages and map entries are added to it. The
entry of a map has a length in front, whatever wire type the key gives. -/
def Shape.merge : (shape : Shape) → Nat → WireType → shape.Value → Bytes →
    Option (shape.Value × Bytes)
  | .text, _, t, _, s => textOf t s
  | .bytes, _, t, _, s => contentOf t s
  | .flag, _, t, _, s => (numberOf t s).map fun (n, s) => (n != 0, s)
  -- A negative number comes as 64 bits in two's complement, of which the lower half
  -- is kept.
  | .int32, _, t, _, s => (numberOf t s).map fun (n, s) => (Int32.ofNat n, s)
  | .uint32, _, t, _, s => (numberOf t s).map fun (n, s) => (UInt32.ofNat n, s)
  | .message layout, levels, t, v, s =>
    match levels, contentOf t s with
    | levels + 1, some (content, s) =>
      -- The parts of a message that is given twice are merged, field by field.
      (readFields (layout.mergeField levels) (v.getD layout.defaults) content).map
        fun v => (some v, s)
    | _, _ => none
  | .messages layout, levels, t, vs, s =>
    match levels, contentOf t s with
    | levels + 1, some (content, s) =>
      (readFields (layout.mergeField levels) layout.defaults content).map
        fun v => (vs ++ [v], s)
    | _, _ => none
  | .textMap, levels, _, m, s =>
    match levels, readDelimited s with
    | levels + 1, some (content, s) =>
      (readEntry levels content).map fun (k, v) => (m.insert k v, s)
    | _, _ => none

/-- Merges a field into the contents of a message. The fields are tried in
the order of the layout, and a field that is not among them is skipped. -/
def Layout.mergeField : (layout : Layout) → Nat → Key → layout.Values → Bytes →
    Option (layout.Values × Bytes)
  | .nil, levels, key, (), s => (skipContent levels key s).map fun s => ((), s)
  | .cons number shape rest, levels, key, (v, vs), s =>
    if key.number = number then
      (shape.merge levels key.wireType v s).map fun (v, s) => ((v, vs), s)
    else
      (rest.mergeField levels key vs s).map fun (vs, s) => ((v, vs), s)

end

/-- Reads a message. -/
def Layout.decode (layout : Layout) (s : Bytes) : Option layout.Values :=
  readFields (layout.mergeField maxLevels) layout.defaults s

end NpuAttribution.Wire
