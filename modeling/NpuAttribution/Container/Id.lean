import NpuAttribution.Text.Quoted

/-!
# `NpuAttribution.Container.Id`: container ids

A container id is any text of 1 to 255 bytes. Ids come from the runtime as plain
texts, and `ContainerId.ofString?` is the only way to get one.
-/

set_option autoImplicit false

namespace NpuAttribution

/-- The most bytes that a container id may have. -/
def ContainerId.maxBytes : Nat := 255

/-- A container id: a text that is neither empty nor longer than 255
bytes. The bounds are part of the type, so whoever has an id need
not check it again. -/
structure ContainerId where
  text : String
  nonempty : 0 < text.utf8ByteSize
  bounded : text.utf8ByteSize ≤ ContainerId.maxBytes
  deriving DecidableEq, Repr

/-- The id with the given text, if the text is admissible. -/
def ContainerId.ofString? (s : String) : Option ContainerId :=
  if h : 0 < s.utf8ByteSize ∧ s.utf8ByteSize ≤ ContainerId.maxBytes then
    some ⟨s, h.1, h.2⟩
  else
    none

/-- What is said of a text that is no container id. -/
def ContainerId.rejection (s : String) : String :=
  "invalid container id: " ++ Text.quote s

instance : ToString ContainerId := ⟨ContainerId.text⟩

end NpuAttribution
