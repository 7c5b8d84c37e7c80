import NpuAttribution.Device.Majors
import NpuAttribution.Device.Selection

/-!
# `NpuAttribution.Device.CgroupRule`: devices from the cgroup rules of an OCI descriptor

A rule names a device if it has a major and a minor, is about character devices, and
its major is the driver's. Its minor is then the device index. Whether the rule allows
or denies the device is not looked at.
-/

set_option autoImplicit false

namespace NpuAttribution.Device

/-- A device rule of a control group. A missing major or minor stands
for all of them. -/
structure CgroupRule where
  allow : Bool := false
  kind : Option String := none
  major : Option Int64 := none
  minor : Option Int64 := none
  access : Option String := none
  deriving DecidableEq, Repr

namespace CgroupRule

/-- The kind of character devices. -/
def characterKind : String := "c"

/-- The device that a rule names, given the driver's majors. A rule
that is not about the driver's devices selects nothing and is no
cause for a warning. -/
def select (container : String) (majors : List Nat) (r : CgroupRule) : Selection :=
  match r.major, r.minor with
  | some major, some minor =>
    -- A rule about block devices or about all kinds of devices names no NPU.
    if r.kind = some characterKind ∧ Majors.isMember majors major.toInt = true then
      -- The minor is the index, so it has to be one.
      if 0 ≤ minor.toInt ∧ minor.toInt < UInt32.size then .device minor.toInt.toNat
      else .warning (.invalidMinor container minor.toInt)
    else .empty
  | _, _ => .empty

/-- The devices that a list of rules names. -/
def selectAll (container : String) (majors : List Nat) (rules : List CgroupRule) : Selection :=
  .concat (rules.map (select container majors))

end CgroupRule

end NpuAttribution.Device
