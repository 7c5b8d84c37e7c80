/-!
# `NpuAttribution.Json.Schema`: what a document is expected to hold

A schema says what is expected of a value. The values that meet it form a type,
`Schema.Value`, so that a reader for all schemas returns booleans where booleans are
expected and lists where lists are. Records are the interesting case: their fields
have names, may come in any order, and take a default if they are missing.

The tree of schemas is finite and no schema refers to itself, so everything about
schemas is defined, and proved, by recursion on them.
-/

set_option autoImplicit false

namespace NpuAttribution.Json

mutual

/-- What is expected of a value. -/
inductive Schema
  | flag
  | text
  /-- An integer of 64 bits with a sign. -/
  | integer
  /-- A value that may be missing, which `null` stands for. -/
  | optional (s : Schema)
  /-- A value for whose default `null` may be written. -/
  | nullable (s : Schema)
  | list (s : Schema)
  | record (fields : Fields)

/-- The fields of a record in their order of declaration. -/
inductive Fields
  | nil
  | cons (name : String) (s : Schema) (rest : Fields)

end

mutual

/-- The values that meet a schema. The type is reducible, so a reader
for a schema can be used as a reader for the type that its values have. -/
@[reducible] def Schema.Value : Schema → Type
  | .flag => Bool
  | .text => String
  | .integer => Int64
  | .optional s => Option s.Value
  | .nullable s => s.Value
  | .list s => List s.Value
  | .record fields => fields.Values

/-- One value for each field. -/
@[reducible] def Fields.Values : Fields → Type
  | .nil => Unit
  | .cons _ s rest => s.Value × rest.Values

end

mutual

/-- The value of a field that is missing. Only a field that is
optional says so by its value; every other one takes the value that
its type has for nothing. -/
def Schema.default : (s : Schema) → s.Value
  | .flag => false
  | .text => ""
  | .integer => (0 : Int64)
  | .optional _ => none
  | .nullable s => s.default
  | .list _ => []
  | .record fields => fields.defaults

/-- The values of a record of which all fields are missing. -/
def Fields.defaults : (fields : Fields) → fields.Values
  | .nil => ()
  | .cons _ s rest => (s.default, rest.defaults)

end

/-- What has been found of the fields so far: each at most once. A slot
is empty until a member of its name has been read, so a field with its
default is still missing. -/
@[reducible] def Fields.Slots : Fields → Type
  | .nil => Unit
  | .cons _ s rest => Option s.Value × rest.Slots

/-- Nothing has been found. -/
def Fields.noSlots : (fields : Fields) → fields.Slots
  | .nil => ()
  | .cons _ _ rest => (none, rest.noSlots)

/-- What has been found, with defaults for the missing fields. -/
def Fields.fill : (fields : Fields) → fields.Slots → fields.Values
  | .nil, () => ()
  | .cons _ s rest, (slot, slots) => (slot.getD s.default, rest.fill slots)

end NpuAttribution.Json
