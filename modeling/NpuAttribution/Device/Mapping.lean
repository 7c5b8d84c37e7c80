import NpuAttribution.Device.Selection
import NpuAttribution.Text.Numeral

/-!
# `NpuAttribution.Device.Mapping`: devices from the mappings of an iSulad descriptor

A mapping gives a device of the host a path inside the container. NPUs appear there as
`/dev/davinci` with the device index; every other path is skipped with a warning.
-/

set_option autoImplicit false

namespace NpuAttribution.Device

/-- A device of the host that is made available inside a container. -/
structure Mapping where
  pathOnHost : String := ""
  pathInContainer : String := ""
  cgroupPermissions : String := ""
  deriving DecidableEq, Repr

namespace Mapping

open NpuAttribution.Text

/-- What stands before the index in the path of an NPU. -/
def devicePath : String := "/dev/davinci"

/-- The largest index that a path may have. It is the largest of 32
bits with a sign. -/
def maxIndex : Nat := 2147483647

/-- The text after the device path, if `path` starts with it. -/
def afterDevicePath? (path : List Char) : Option (List Char) :=
  if devicePath.toList.isPrefixOf path then some (path.drop devicePath.length) else none

/-- The digits in the path of an NPU, which is `/dev/davinci` followed by
one or more of them and by nothing else. What counts as a digit is given. -/
def pathDigits? (isDigit : Char → Bool) (path : List Char) : Option (List Char) :=
  (afterDevicePath? path).filter fun digits => !digits.isEmpty && digits.all isDigit

/-- The index at a path, in three steps: the pattern of the path is
taken apart, its digits are read as a number of 32 bits, and the number
is compared with the largest index. -/
def indexInSteps? (isDigit : Char → Bool) (path : String) : Option Nat :=
  -- Each step accepts something that another one refuses: digits of other scripts have no value,
  -- and the plus sign that a number may have is no digit.
  match pathDigits? isDigit path.toList with
  | some digits => (unsigned? UInt32.size digits).filter (· ≤ maxIndex)
  | none => none

/-- The index of the NPU at a path. The pattern takes the decimal
digits of all scripts. -/
def index? (path : String) : Option Nat := indexInSteps? isScriptDigit path

/-- The device that a mapping makes available. -/
def select (container : String) (m : Mapping) : Selection :=
  match index? m.pathInContainer with
  | some i => .device i
  | none => .warning (.unexpectedPath container m.pathInContainer)

/-- The devices that a list of mappings makes available. -/
def selectAll (container : String) (mappings : List Mapping) : Selection :=
  .concat (mappings.map (select container))

end Mapping

end NpuAttribution.Device
