/-!
# `NpuAttribution.Wire.Varint`: numbers in groups of seven bits

A number below 2^64 is written in groups of seven bits, the lowest group first. All
groups but the last have the high bit set. At most ten groups are read, and of the
tenth only the lowest bit may be set, since there is no room for more.
-/

set_option autoImplicit false

namespace NpuAttribution.Wire

/-- A message or the rest of one. -/
abbrev Bytes := List UInt8

/-- A number has so many groups at most. -/
def maxGroups : Nat := 10

/-- Reads a number of at most `room` groups. Only the lowest bit of the
last of them may be set, so whatever is read is below 2^64. Groups that
add nothing are accepted, so a number has several spellings. -/
def readGroups : Nat → Bytes → Option (Nat × Bytes)
  | 0, _ => none
  | _ + 1, [] => none
  | room + 1, b :: s =>
    if b.toNat < 128 then
      -- This group ends the number. In the last one there is room for one bit.
      if room = 0 ∧ 1 < b.toNat then none else some (b.toNat, s)
    else
      match readGroups room s with
      -- The high bit is no part of the number, and the groups after this one count
      -- 128 times as much.
      | some (n, s) => some (b.toNat - 128 + 128 * n, s)
      | none => none

/-- Reads a number. -/
def readVarint (s : Bytes) : Option (Nat × Bytes) := readGroups maxGroups s

/-- Writes a number that has at most `room` groups, in as few of
them as it needs. -/
def writeGroups : Nat → Nat → Bytes
  | 0, _ => []
  | room + 1, n =>
    if n < 128 then [UInt8.ofNat n]
    else UInt8.ofNat (n % 128 + 128) :: writeGroups room (n / 128)

/-- Writes a number below 2^64. -/
def writeVarint (n : Nat) : Bytes := writeGroups maxGroups n

end NpuAttribution.Wire
