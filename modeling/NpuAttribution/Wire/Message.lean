import NpuAttribution.Wire.Reader
import NpuAttribution.Wire.Writer

/-!
# `NpuAttribution.Wire.Message`: types that are exchanged as messages

A type of messages has a layout and a correspondence between its values and contents
of that layout. It says nothing about bytes, which are the business of the layout.
-/

set_option autoImplicit false

namespace NpuAttribution.Wire

/-- Types whose values are exchanged as messages. -/
class Message (α : Type) where
  layout : Layout
  /-- No two fields have the same number, and no message is nested too deeply to be read. -/
  isWellFormed : layout.isWellFormed maxLevels 0 := by decide
  /-- The value with the given contents. -/
  ofFields : layout.Values → α
  /-- The contents of a value. -/
  toFields : α → layout.Values
  /-- Nothing of a value is lost in its contents. -/
  ofFields_toFields : ∀ a : α, ofFields (toFields a) = a

variable {α : Type} [Message α]

/-- Reads a message. -/
def Message.decode (s : Bytes) : Option α :=
  ((Message.layout α).decode s).map Message.ofFields

/-- Writes a message. -/
def Message.encode (a : α) : Bytes :=
  (Message.layout α).encode (Message.toFields a)

end NpuAttribution.Wire
