import NpuAttribution.Device.Selection
import NpuAttribution.Text.Blank
import NpuAttribution.Text.Numeral

/-!
# `NpuAttribution.Device.VisibleDevices`: the value of the visible-devices variable

The value comes in four encodings, told apart by its shape: names with an index
(`Ascend910-0,Ascend910-1`), indices and ranges mixed (`0,2-4`), one range (`0-3`),
and a list of indices (`0,1,2`). `Encoding.detect` looks at the whole value and the
first encoding that fits is taken, so `Ascend-1,2-3` is read as two names with an
index although `2-3` alone would be a range.

A malformed entry is dropped with a warning and does not affect the entries around it.
The warning shows the entry, or the part of it that is wrong, as it was written.
-/

set_option autoImplicit false

namespace NpuAttribution.Device.VisibleDevices

open NpuAttribution.Text

/-- Every index is below this. -/
def indexBound : Nat := UInt32.size

/-- The largest index that a range may reach. -/
def maxRangeIndex : Nat := 32767

/-- The encodings of the value. -/
inductive Encoding
  | named
  | mixed
  | range
  | list
  deriving DecidableEq, Repr

/-- Whether an entry looks like a name with an index: after trimming
there is a minus sign, and the text before the first one starts with
an ASCII letter. -/
def isNameLike (entry : List Char) : Bool :=
  let entry := trim entry
  match entry.head? with
  | some c => entry.contains '-' && c.isAlpha
  | none => false

/-- The encoding that a value is written in. One entry that looks like a
name is enough for the whole value to be names, and one minus sign is
enough for ranges. -/
def Encoding.detect (value : List Char) : Encoding :=
  if (value.splitOn ',').any isNameLike then .named
  else if value.contains '-' then
    if value.contains ',' then .mixed else .range
  else .list

/-- A device index with white space around it. -/
def index? (cs : List Char) : Option Nat :=
  unsigned? indexBound (trim cs)

/-- The warning about an entry or a part of one. -/
def invalid (container : String) (entry : List Char) (fault : EntryFault) : Selection :=
  .warning (.invalidEntry container (String.ofList entry) fault)

/-- An entry that should be an index. -/
def selectIndex (container : String) (entry : List Char) : Selection :=
  match index? entry with
  | some i => .device i
  | none => invalid container entry .notAnIndex

/-- An entry that should be a name with an index. The name may be anything. -/
def selectNamed (container : String) (entry : List Char) : Selection :=
  match (trim entry).splitOn '-' with
  | [_, index] => selectIndex container index
  | _ => invalid container entry .notNameAndIndex

/-- An entry that should be a range. Both ends belong to the range. -/
def selectRange (container : String) (entry : List Char) : Selection :=
  match entry.splitOn '-' with
  | [low, high] =>
    match index? low with
    -- The lower end is looked at first, and the warning shows the end that is wrong.
    | none => invalid container low .notAnIndex
    | some l =>
      match index? high with
      | none => invalid container high .notAnIndex
      | some h =>
        -- The ends are compared before the upper one is compared with the limit.
        if h < l then invalid container entry .descending
        else if maxRangeIndex < h then invalid container entry .outOfRange
        else ⟨List.range' l (h + 1 - l), []⟩
  | _ => invalid container entry .notLowAndHigh

/-- An entry that may be an index or a range. -/
def selectIndexOrRange (container : String) (entry : List Char) : Selection :=
  if entry.contains '-' then selectRange container entry else selectIndex container entry

/-- The devices of a value in a known encoding. -/
def select (container : String) (value : List Char) : Encoding → Selection
  | .named => .concat ((value.splitOn ',').map (selectNamed container))
  | .mixed => .concat ((value.splitOn ',').map (selectIndexOrRange container))
  | .range => selectRange container value
  | .list => .concat ((value.splitOn ',').map (selectIndex container))

/-- The devices of a value. A value of more than 1024 bytes is not
looked at, and the warning about it says how long it is. -/
def decode (container value : String) : Selection :=
  if maxValueBytes < value.utf8ByteSize then
    .warning (.valueTooLong container value.utf8ByteSize)
  else
    select container value.toList (Encoding.detect value.toList)

end NpuAttribution.Device.VisibleDevices
