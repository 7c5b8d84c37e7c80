import NpuAttribution.Wire.Field
import NpuAttribution.Wire.Layout

/-!
# `NpuAttribution.Wire.Writer`: writing messages

Fields are written in ascending order of their numbers, and whatever is at its default
is omitted.
-/

set_option autoImplicit false

namespace NpuAttribution.Wire

/-- Writes a field whose content has its length in front. -/
def writeContent (number : Nat) (content : Bytes) : Bytes :=
  writeKey ⟨number, .delimited⟩ ++ writeDelimited content

/-- Writes a field that is a number. -/
def writeNumber (number n : Nat) : Bytes :=
  writeKey ⟨number, .varint⟩ ++ writeVarint n

/-- Writes a field that is a text, unless the text is empty. -/
def writeText (number : Nat) (text : String) : Bytes :=
  if text = "" then [] else writeContent number text.toUTF8.toList

/-- Writes an entry of a map. -/
def writeEntry (number : Nat) (entry : String × String) : Bytes :=
  writeContent number (writeText 1 entry.1 ++ writeText 2 entry.2)

mutual

/-- Writes a field unless it is at its default. A message that is
present is written even if all of its own fields are at their defaults.
Negative numbers are written as 64 bits in two's complement. -/
def Shape.encode : (shape : Shape) → Nat → shape.Value → Bytes
  | .text, number, text => writeText number text
  | .bytes, number, content => if content.isEmpty then [] else writeContent number content
  | .flag, number, b => if b then writeNumber number 1 else []
  | .int32, number, i => if i = 0 then [] else writeNumber number i.toInt64.toUInt64.toNat
  | .uint32, number, n => if n = 0 then [] else writeNumber number n.toNat
  | .message layout, number, v =>
    match v with
    | some v => writeContent number (layout.encode v)
    | none => []
  | .messages layout, number, vs => vs.flatMap fun v => writeContent number (layout.encode v)
  | .textMap, number, m => m.entries.flatMap (writeEntry number)

/-- Writes a message, one field after the other. The layout lists
its fields in ascending order of their numbers, which is then the
order of the bytes. -/
def Layout.encode : (layout : Layout) → layout.Values → Bytes
  | .nil, () => []
  | .cons number shape rest, (v, vs) => shape.encode number v ++ rest.encode vs

end

end NpuAttribution.Wire
