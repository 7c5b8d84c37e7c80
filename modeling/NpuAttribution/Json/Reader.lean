import NpuAttribution.Json.Scalar
import NpuAttribution.Json.Schema
import NpuAttribution.Json.Sequence
import NpuAttribution.Json.Skip

/-!
# `NpuAttribution.Json.Reader`: reading what a schema expects

The reader goes through the text once and keeps only what the schema asks for. Members
with other names are skipped and may be anything. A field that occurs twice is refused
at its second key, before the colon.

A record may also be written as an array of its fields in their order of declaration.
Fields at the end may then be missing, but no item may follow the last field.
-/

set_option autoImplicit false

namespace NpuAttribution.Json

/-- Reads the word `null` if it comes next. A text that begins with another
letter is left as it is, but one that begins with `n` has to be `null`. -/
def readNull? (s : Bytes) : Except Fault (Option Bytes) :=
  match skipBlank s with
  | b :: rest =>
    if b = 0x6E then
      match readLiteral nullTail rest with
      | .ok rest => .ok (some rest)
      | .error f => .error f
    else .ok none
  | [] => .ok none

/-- Reads a boolean. -/
def readFlag (s : Bytes) : Except Fault (Bool × Bytes) := do
  match ← readStart s with
  | .scalar (.flag b) rest => return (b, rest)
  | _ => throw .mismatched

/-- Reads a string. -/
def readString (s : Bytes) : Except Fault (String × Bytes) := do
  match ← readStart s with
  | .scalar (.text t) rest => return (t, rest)
  | _ => throw .mismatched

/-- The integer that a number is, if it fits 64 bits with a sign. -/
def Number.toInt64? : Number → Option Int64
  | .integer n =>
    if Int64.minValue.toInt ≤ n ∧ n ≤ Int64.maxValue.toInt then some (Int64.ofInt n) else none
  | .other => none

/-- Reads an integer. -/
def readInt64 (s : Bytes) : Except Fault (Int64 × Bytes) := do
  match ← readStart s with
  | .scalar (.number n) rest =>
    match n.toInt64? with
    | some i => return (i, rest)
    | none => throw .mismatched
  | _ => throw .mismatched

/-- Reads the closing bracket of an array that must end here. An item
where the bracket should be makes the text malformed. -/
def readArrayEnd (s : Bytes) : Except Fault Bytes :=
  match skipBlank s with
  | [] => .error .truncated
  | b :: rest => if b = 0x5D then .ok rest else .error .malformed

mutual

/-- Reads a value that is expected to meet the schema, and returns what
follows it. The recursion is on the schema, which is why it needs no
bound for the depth of the text. -/
def Schema.read : (s : Schema) → Bytes → Except Fault (s.Value × Bytes)
  | .flag, t => readFlag t
  | .text, t => readString t
  | .integer, t => readInt64 t
  -- `null` decides before anything else is looked at.
  | .optional s, t => do
    match ← readNull? t with
    | some rest => return (none, rest)
    | none =>
      let (v, rest) ← s.read t
      return (some v, rest)
  | .nullable s, t => do
    match ← readNull? t with
    | some rest => return (s.default, rest)
    | none => s.read t
  | .list s, t => do
    match ← readStart t with
    | .array t => readItems s.read t
    | _ => throw .mismatched
  | .record fields, t => do
    match ← readStart t with
    | .object t =>
      let (slots, rest) ← readMembers fields.readMember fields.noSlots t
      return (fields.fill slots, rest)
    -- A record may be written as an array of its fields.
    | .array t => fields.readInOrder true t
    | _ => throw .mismatched

/-- Reads a member of a record from the colon on. The fields are tried in
the order of their declaration, and a member that is no field is skipped. -/
def Fields.readMember : (fields : Fields) → String → fields.Slots → Bytes →
    Except Fault (fields.Slots × Bytes)
  | .nil, _, (), t => do
    let t ← readColon t
    let rest ← skipValue t
    return ((), rest)
  | .cons name s others, key, (slot, slots), t =>
    if key = name then
      -- A second member for the same field is refused before its colon is read.
      if slot.isSome then throw .mismatched
      else do
        let t ← readColon t
        let (v, rest) ← s.read t
        return ((some v, slots), rest)
    else do
      let (slots, rest) ← others.readMember key slots t
      return ((slot, slots), rest)

/-- Reads the fields of a record that is written as an array. The
flag says whether the next item is the first one, because there is
no comma before it. -/
def Fields.readInOrder : (fields : Fields) → Bool → Bytes → Except Fault (fields.Values × Bytes)
  | .nil, _, t => do
    let rest ← readArrayEnd t
    return ((), rest)
  | .cons _ s others, first, t => do
    match ← nextItem first t with
    -- The array ends early, and the fields that are left take their defaults.
    | .closed rest => return ((s.default, others.defaults), rest)
    | .item t =>
      let (v, t) ← s.read t
      let (vs, rest) ← others.readInOrder false t
      return ((v, vs), rest)

end

/-- Only blanks may follow a document. -/
def readEnd (s : Bytes) : Except Fault Unit :=
  if skipBlank s = [] then .ok () else .error .malformed

/-- Reads a document that is expected to meet the schema. It is one
value, with blanks around it and nothing else. -/
def Schema.decode (s : Schema) (text : Bytes) : Except Fault s.Value := do
  let (v, rest) ← s.read text
  readEnd rest
  return v

end NpuAttribution.Json
