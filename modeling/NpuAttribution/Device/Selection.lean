import NpuAttribution.Journal

/-!
# `NpuAttribution.Device.Selection`: device indices found, and what was wrong on the way

The devices of a container come from one of three places: the value of an
environment variable, the cgroup rules of an OCI descriptor, or the device mappings
of an iSulad descriptor. Nothing found there can make the search fail. Whatever does
not name a device is skipped with a warning, so the outcome of a search is a
`Selection`: the indices in order of declaration, and the warnings.
-/

set_option autoImplicit false

namespace NpuAttribution.Device

/-- The environment variable that lists the devices visible to a container. -/
def visibleDevicesVariable : String := "ASCEND_VISIBLE_DEVICES"

/-- The most bytes of that variable's value that are looked at. -/
def maxValueBytes : Nat := 1024

/-- Why an entry of the visible-devices value names no device. -/
inductive EntryFault
  | notNameAndIndex
  | notLowAndHigh
  | notAnIndex
  | descending
  | outOfRange
  deriving DecidableEq, Repr

/-- The fault in words. -/
def EntryFault.reason : EntryFault → String
  | .notNameAndIndex => "expected `<name>-<index>`"
  | .notLowAndHigh => "expected `<low>-<high>`"
  | .notAnIndex => "not a device index"
  | .descending => "lower bound is bigger than upper bound"
  | .outOfRange => "upper bound is out of range"

/-- Something about a container's declaration that names no device. -/
inductive Warning
  | valueTooLong (container : String) (bytes : Nat)
  | invalidEntry (container entry : String) (fault : EntryFault)
  | invalidMinor (container : String) (minor : Int)
  | unexpectedPath (container path : String)
  deriving DecidableEq, Repr

/-- The text of a warning. -/
def Warning.message : Warning → String
  | .valueTooLong container bytes =>
    s!"container `{container}` has a {visibleDevicesVariable} value of {bytes} bytes " ++
      s!"(max {maxValueBytes}), ignoring it"
  | .invalidEntry container entry fault =>
    let reason := fault.reason
    s!"container `{container}` has an invalid device ID `{entry}` " ++
      s!"in {visibleDevicesVariable}: {reason}"
  | .invalidMinor container minor =>
    s!"container `{container}` has a device with an invalid minor number {minor}"
  | .unexpectedPath container path =>
    s!"container `{container}` has an unexpected device path `{path}`"

/-- The journal line of a warning. -/
def Warning.line (w : Warning) : Line := ⟨.warn, w.message⟩

/-- What a search for devices comes to. -/
structure Selection where
  devices : List Nat
  warnings : List Warning
  deriving DecidableEq, Repr

namespace Selection

/-- Nothing found and nothing wrong. -/
def empty : Selection := ⟨[], []⟩

/-- One device. -/
def device (index : Nat) : Selection := ⟨[index], []⟩

/-- No device, for the given reason. -/
def warning (w : Warning) : Selection := ⟨[], [w]⟩

/-- The selections one after the other. Devices and warnings each keep
their order, but how they were interleaved is forgotten. -/
def concat (parts : List Selection) : Selection :=
  ⟨parts.flatMap (·.devices), parts.flatMap (·.warnings)⟩

end Selection

end NpuAttribution.Device
