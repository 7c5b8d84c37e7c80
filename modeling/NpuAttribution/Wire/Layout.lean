import NpuAttribution.SortedMap
import NpuAttribution.Wire.Field

/-!
# `NpuAttribution.Wire.Layout`: messages with known fields

A layout lists the fields of a message by their numbers and says what each of them
holds. The contents of all fields form a type, `Layout.Values`, so one reader and one
writer serve all messages.
-/

set_option autoImplicit false

namespace NpuAttribution.Wire

mutual

/-- The known fields of a message, in ascending order of their numbers. -/
inductive Layout
  | nil
  | cons (number : Nat) (shape : Shape) (rest : Layout)

/-- What a field holds. -/
inductive Shape
  | text
  | bytes
  | flag
  | int32
  | uint32
  /-- A message that may be absent. -/
  | message (layout : Layout)
  /-- Any number of messages. -/
  | messages (layout : Layout)
  /-- A map from texts to texts. -/
  | textMap

end

mutual

/-- The contents of all fields of a message. -/
@[reducible] def Layout.Values : Layout → Type
  | .nil => Unit
  | .cons _ shape rest => shape.Value × rest.Values

/-- The contents of a field. -/
@[reducible] def Shape.Value : Shape → Type
  | .text => String
  | .bytes => Bytes
  | .flag => Bool
  | .int32 => Int32
  | .uint32 => UInt32
  | .message layout => Option layout.Values
  | .messages layout => List layout.Values
  | .textMap => SortedMap String

end

/-- The content of a field that does not occur. -/
def Shape.default : (shape : Shape) → shape.Value
  | .text => ""
  | .bytes => []
  | .flag => false
  | .int32 => (0 : Int32)
  | .uint32 => (0 : UInt32)
  | .message _ => none
  | .messages _ => []
  | .textMap => SortedMap.empty

/-- The contents of a message without fields. -/
def Layout.defaults : (layout : Layout) → layout.Values
  | .nil => ()
  | .cons _ shape rest => (shape.default, rest.defaults)

/-- Fields can have this number: it is not zero, and a key has room for it. -/
def isFieldNumber (number : Nat) : Bool := 0 < number && 8 * (number + 1) ≤ keyBound

mutual

/-- The numbers of the fields ascend from the given bound, all fields can
have their numbers, and messages are nested to so many levels at most. It
can be computed, so a message type proves it of its layout by evaluation. -/
def Layout.isWellFormed : Layout → Nat → Nat → Bool
  | .nil, _, _ => true
  | .cons number shape rest, levels, bound =>
    bound < number && isFieldNumber number && shape.isWellFormed levels
      && rest.isWellFormed levels number

/-- The messages inside of the field are well-formed and nested to so
many levels at most. The entries of a map count as messages. -/
def Shape.isWellFormed : Shape → Nat → Bool
  | .message layout, levels => 0 < levels && layout.isWellFormed (levels - 1) 0
  | .messages layout, levels => 0 < levels && layout.isWellFormed (levels - 1) 0
  | .textMap, levels => 0 < levels
  | _, _ => true

end

end NpuAttribution.Wire
