import NpuAttribution.Json.Scalar
import NpuAttribution.Json.Schema
import NpuAttribution.Json.Sequence
import NpuAttribution.Json.Reader

/-!
# `NpuAttribution.Json.Value`: documents that are read before they are understood

Where a document may have one of several shapes it is first read as a value of any
shape, and afterwards fitted to the shapes in turn. Reading is stricter then, because
everything is kept, also what nobody asks for: at most 127 levels of brackets, numbers
in the range of double precision, strings without lone surrogates.
-/

set_option autoImplicit false

namespace NpuAttribution.Json

/-- A value of any shape. The members of an object are in the order of
the text, and two of them may have the same name: what this means is for
whoever fits the value to a schema. -/
inductive Value
  | scalar (x : Scalar)
  | array (items : List Value)
  | object (members : List (String × Value))

/-- So many levels of brackets may be open at once. -/
def maxLevels : Nat := 127

/-- Reads a member from the colon on and puts it in front of those before it. -/
def readMemberOf (value : Bytes → Except Fault (Value × Bytes)) (key : String)
    (members : List (String × Value)) (s : Bytes) :
    Except Fault (List (String × Value) × Bytes) := do
  let s ← readColon s
  let (v, rest) ← value s
  return ((key, v) :: members, rest)

/-- Reads a value with the given number of levels of brackets at most.
The recursion is on the levels, so a value within a value has one
level less to itself. -/
def readValue : Nat → Bytes → Except Fault (Value × Bytes)
  | levels, s => do
    match ← readStart s with
    | .scalar x rest => return (.scalar x, rest)
    | .array s =>
      match levels with
      -- No level is left for this bracket.
      | 0 => throw .malformed
      | levels + 1 =>
        let (items, rest) ← readItems (readValue levels) s
        return (.array items, rest)
    | .object s =>
      match levels with
      | 0 => throw .malformed
      | levels + 1 =>
        let (members, rest) ← readMembers (readMemberOf (readValue levels)) [] s
        -- Members are put in front of those before them, so the latest is first.
        return (.object members.reverse, rest)

mutual

/-- Fits a value to a schema, or says that it does not fit. It accepts
what the direct reader accepts: an object or an array for a record, and
`null` where it may be. -/
def Schema.fit : (s : Schema) → Value → Option s.Value
  | .flag, .scalar (.flag b) => some b
  | .text, .scalar (.text t) => some t
  | .integer, .scalar (.number n) => n.toInt64?
  -- A missing value comes first: whatever else is there has to fit what is inside.
  | .optional _, .scalar .null => some none
  | .optional s, v => (s.fit v).map some
  | .nullable s, .scalar .null => some s.default
  | .nullable s, v => s.fit v
  | .list s, .array items => items.mapM s.fit
  -- Members are fitted in the order of the text, so a field that occurs twice is
  -- noticed at its second member.
  | .record fields, .object members =>
    (members.foldlM (fun slots m => fields.fitMember m.1 m.2 slots) fields.noSlots).map fields.fill
  | .record fields, .array items => fields.fitInOrder items
  | _, _ => none

/-- Fits one member to the field of its name, if there is one. A
member of an unknown name is dropped, and a field that has been found
before is refused. -/
def Fields.fitMember : (fields : Fields) → String → Value → fields.Slots → Option fields.Slots
  | .nil, _, _, () => some ()
  | .cons name s others, key, v, (slot, slots) =>
    if key = name then
      if slot.isSome then none else (s.fit v).map fun v => (some v, slots)
    else (others.fitMember key v slots).map fun slots => (slot, slots)

/-- Fits the items of an array to the fields of a record, in the
order of declaration. Fields at the end may be missing, but there
may be no further item. -/
def Fields.fitInOrder : (fields : Fields) → List Value → Option fields.Values
  | .nil, [] => some ()
  | .nil, _ :: _ => none
  | .cons _ s others, [] => some (s.default, others.defaults)
  | .cons _ s others, v :: items => do
    let v ← s.fit v
    let vs ← others.fitInOrder items
    return (v, vs)

end

end NpuAttribution.Json
