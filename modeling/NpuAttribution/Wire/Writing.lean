import Mathlib.Data.List.Forall2
import NpuAttribution.Wire.Message

/-!
# `NpuAttribution.Wire.Writing`: the ways to write a message

`Layout.encode` writes the entries of a map in ascending order of their keys. Others keep
their maps in some other order and write them as they come. `IsWriting` says of bytes that
they are a message with the entries of every map in it written in some order or other.
-/

set_option autoImplicit false

namespace NpuAttribution.Wire

mutual

/-- The bytes are a field, with the entries of maps in any order. -/
def Shape.IsWriting : (shape : Shape) → Nat → shape.Value → Bytes → Prop
  | .text, number, text, s => s = Shape.text.encode number text
  | .bytes, number, content, s => s = Shape.bytes.encode number content
  | .flag, number, b, s => s = Shape.flag.encode number b
  | .int32, number, i, s => s = Shape.int32.encode number i
  | .uint32, number, n, s => s = Shape.uint32.encode number n
  | .message layout, number, v, s =>
    match v with
    | some v => ∃ content, layout.IsWriting v content ∧ s = writeContent number content
    | none => s = []
  | .messages layout, number, vs, s =>
    ∃ contents : List Bytes, List.Forall₂ layout.IsWriting vs contents
      ∧ s = contents.flatMap (writeContent number)
  | .textMap, number, m, s =>
    ∃ entries : List (String × String),
      entries.Perm m.entries ∧ s = entries.flatMap (writeEntry number)

/-- The bytes are a message, with the entries of maps in any order. -/
def Layout.IsWriting : (layout : Layout) → layout.Values → Bytes → Prop
  | .nil, (), s => s = []
  | .cons number shape rest, (v, vs), s =>
    ∃ first others, shape.IsWriting number v first ∧ rest.IsWriting vs others
      ∧ s = first ++ others

end

/-- The bytes are a message, with the entries of maps in any order. -/
def Message.IsWriting {α : Type} [Message α] (a : α) (s : Bytes) : Prop :=
  (Message.layout α).IsWriting (Message.toFields a) s

end NpuAttribution.Wire
