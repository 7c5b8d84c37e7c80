import NpuAttribution.Wire.Varint

/-!
# `NpuAttribution.Wire.Field`: fields of a message

A message is a row of fields. Each begins with a key, which gives the number of the
field and how its content is delimited: as a varint, by a fixed size, by a length in
front, or by a pair of brackets. This is enough to find the end of a field that the
reader does not know, so unknown fields can be skipped.
-/

set_option autoImplicit false

namespace NpuAttribution.Wire

/-- How the content of a field is delimited. -/
inductive WireType
  | varint
  | fixed64
  | delimited
  | groupStart
  | groupEnd
  | fixed32
  deriving DecidableEq, Repr

/-- The code of a wire type in a key. -/
def WireType.code : WireType → Nat
  | .varint => 0
  | .fixed64 => 1
  | .delimited => 2
  | .groupStart => 3
  | .groupEnd => 4
  | .fixed32 => 5

/-- The wire type with the given code. The codes 6 and 7 have no meaning. -/
def WireType.ofCode? : Nat → Option WireType
  | 0 => some .varint
  | 1 => some .fixed64
  | 2 => some .delimited
  | 3 => some .groupStart
  | 4 => some .groupEnd
  | 5 => some .fixed32
  | _ => none

/-- What a field begins with. -/
structure Key where
  number : Nat
  wireType : WireType
  deriving DecidableEq, Repr

/-- Keys are below this. -/
def keyBound : Nat := UInt32.size

/-- The key with the given code. No field has the number zero, so there
is no key with a code below eight. -/
def Key.ofCode? (n : Nat) : Option Key :=
  if n < keyBound ∧ 8 ≤ n then
    (WireType.ofCode? (n % 8)).map fun t => ⟨n / 8, t⟩
  else
    none

/-- The code of a key. -/
def Key.code (k : Key) : Nat := 8 * k.number + k.wireType.code

/-- Reads a key. -/
def readKey (s : Bytes) : Option (Key × Bytes) :=
  match readVarint s with
  | some (n, s) => (Key.ofCode? n).map fun k => (k, s)
  | none => none

/-- Writes a key. -/
def writeKey (k : Key) : Bytes := writeVarint k.code

/-- The first `n` bytes and the rest, if there are so many. A content
that is announced longer than what is left of the message makes the
message unreadable. -/
def takeExactly : Bytes → Nat → Option (Bytes × Bytes)
  | s, 0 => some ([], s)
  | [], _ + 1 => none
  | b :: s, n + 1 =>
    match takeExactly s n with
    | some (taken, s) => some (b :: taken, s)
    | none => none

/-- Reads a content with its length in front. -/
def readDelimited (s : Bytes) : Option (Bytes × Bytes) :=
  match readVarint s with
  | some (length, s) => takeExactly s length
  | none => none

/-- Writes a content with its length in front. -/
def writeDelimited (content : Bytes) : Bytes :=
  writeVarint content.length ++ content

/-- Skips the fields of a group up to the end of the group. Each of
them is skipped by `skip`. The number of rounds need not exceed the
number of bytes. -/
def skipGroup (skip : Key → Bytes → Option Bytes) (number : Nat) : Nat → Bytes → Option Bytes
  | 0, _ => none
  | rounds + 1, s =>
    match readKey s with
    | some (key, s) =>
      if key.wireType = .groupEnd then
        -- A group ends with its own number and with no other.
        if key.number = number then some s else none
      else
        match skip key s with
        | some s => skipGroup skip number rounds s
        | none => none
    | none => none

/-- Skips the content of a field. Groups may be nested, but the field
itself counts as a level, and so does every field inside of a group. An
end of a group that belongs to no group cannot be skipped. -/
def skipContent : Nat → Key → Bytes → Option Bytes
  | 0, _, _ => none
  | levels + 1, key, s =>
    match key.wireType with
    | .varint => (readVarint s).map (·.2)
    | .fixed64 => (takeExactly s 8).map (·.2)
    | .fixed32 => (takeExactly s 4).map (·.2)
    | .delimited => (readDelimited s).map (·.2)
    | .groupStart => skipGroup (skipContent levels) key.number (s.length + 1) s
    | .groupEnd => none

/-- Reads a message field by field, in the given number of rounds at
most. The state `x` is carried from one field to the next, and `field`
is given what follows the key. -/
def readFieldsFor {σ : Type} (field : Key → σ → Bytes → Option (σ × Bytes)) :
    Nat → σ → Bytes → Option σ
  | _, x, [] => some x
  -- This is never reached if there are as many rounds as bytes.
  | 0, _, _ :: _ => none
  | rounds + 1, x, b :: s =>
    match readKey (b :: s) with
    | some (key, s) =>
      match field key x s with
      | some (x, s) => readFieldsFor field rounds x s
      | none => none
    | none => none

/-- Reads all fields of a message. Each takes up a byte at least, so
there are no more of them than bytes. -/
def readFields {σ : Type} (field : Key → σ → Bytes → Option (σ × Bytes)) (x : σ) (s : Bytes) :
    Option σ :=
  readFieldsFor field s.length x s

end NpuAttribution.Wire
