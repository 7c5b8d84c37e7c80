import NpuAttribution.Journal
import NpuAttribution.Text.Blank
import NpuAttribution.Text.Numeral

/-!
# `NpuAttribution.Device.Majors`: the majors of the NPU driver

The kernel lists the majors of all drivers in a registry file, one per line. The NPU
driver's lines name `devdrv-cdev`, or `vdevdrv-cdev` on a virtual machine. Only the
first 512 lines are read, and a line among them that is not UTF-8 spoils the reading.

`Majors` is what the monitor knows of the file. The file is read when a major is first
asked for and never again, whether that reading succeeded or not: a file that appears
or changes later is not noticed.
-/

set_option autoImplicit false

namespace NpuAttribution.Device

/-- Why the registry file could not be read. -/
inductive RegistryFault
  | missing
  | directory
  | notUtf8
  deriving DecidableEq, Repr

/-- The fault in the words of the operating system. -/
def RegistryFault.reason : RegistryFault → String
  | .missing => "No such file or directory (os error 2)"
  | .directory => "Is a directory (os error 21)"
  | .notUtf8 => "stream did not contain valid UTF-8"

/-- What is found at the path of the registry. -/
inductive RegistryFile
  | absent
  | directory
  | content (bytes : List UInt8)
  deriving DecidableEq, Repr

namespace Majors

open NpuAttribution.Text

/-- Only so many lines of the registry are read. -/
def maxLines : Nat := 512

/-- The names that the driver registers under. -/
def driverNames : List String := ["devdrv-cdev", "vdevdrv-cdev"]

/-- The lines of a file, each without its line feed. A file that ends in
a line feed has no further line after it. -/
def lines (bytes : List UInt8) : List (List UInt8) :=
  let pieces := bytes.splitOn 10
  -- Splitting leaves an empty piece after the last line feed, which is no line.
  if pieces.getLast? = some [] then pieces.dropLast else pieces

/-- The text of a line that is valid UTF-8. -/
def lineText? (line : List UInt8) : Option (List Char) :=
  (String.fromUTF8? ⟨line.toArray⟩).map (·.toList)

/-- Whether a line is the driver's: one to three digits, one blank, a
driver name. -/
def isDriverLine (line : List Char) : Bool :=
  let digits := line.takeWhile Char.isDigit
  -- What follows the digits has to be one blank and then nothing but the name.
  match line.dropWhile Char.isDigit with
  | blank :: name =>
    1 ≤ digits.length && digits.length ≤ 3 && isBlank blank
      && driverNames.contains (String.ofList name)
  | [] => false

/-- The first word of a line. -/
def firstWord (line : List Char) : List Char :=
  (line.dropWhile isBlank).takeWhile fun c => !isBlank c

/-- The major on a line of the driver. Carriage returns at the end do
not count. A line of another driver has none, and neither has a number
that does not fit 32 bits. -/
def driverMajor? (line : List Char) : Option Nat :=
  let line := (line.reverse.dropWhile (· == '\r')).reverse
  if isDriverLine line then unsigned? UInt32.size (firstWord line) else none

/-- The majors in the content of a registry, in line order. Only the
lines up to the limit are looked at, and one of them that is not UTF-8
makes all of it unreadable. -/
def read (bytes : List UInt8) : Except RegistryFault (List Nat) :=
  match ((lines bytes).take maxLines).mapM lineText? with
  | some texts => .ok (texts.filterMap driverMajor?)
  | none => .error .notUtf8

/-- The majors in whatever is found at the registry's path. -/
def readFile : RegistryFile → Except RegistryFault (List Nat)
  | .absent => .error .missing
  | .directory => .error .directory
  | .content bytes => read bytes

end Majors

/-- What is known of the driver's majors: nothing before the first
reading, and its result for ever after. -/
inductive Majors
  | unread (path : String)
  | known (ids : List Nat)
  deriving DecidableEq, Repr

namespace Majors

/-- The journal line about a registry that could not be read. -/
def unreadable (path : String) (fault : RegistryFault) : Line :=
  let reason := fault.reason
  ⟨.warn, s!"failed to read NPU device majors from `{path}`: {reason}"⟩

/-- The driver's majors, from the file as it is now if it has not been
read before. A reading that fails counts as one that finds nothing: it
is reported once, and never tried again. -/
def ids (file : RegistryFile) : Majors → List Nat × Majors × List Line
  | .known ids => (ids, .known ids, [])
  | .unread path =>
    match readFile file with
    | .ok ids => (ids, .known ids, [])
    | .error fault => ([], .known [], [unreadable path fault])

/-- Whether a major, as a descriptor gives it, is among the driver's. -/
def isMember (majors : List Nat) (major : Int) : Bool :=
  majors.any fun id => (id : Int) == major

/-- Whether a major is the driver's. -/
def contains (file : RegistryFile) (major : Int) (m : Majors) : Bool × Majors × List Line :=
  let (ids, m, lines) := m.ids file
  (isMember ids major, m, lines)

end Majors

end NpuAttribution.Device
