import NpuAttribution.Json.Meaning
import NpuAttribution.Json.Schema

/-!
# `NpuAttribution.Json.Spelling`: how the values of a schema may be written

A value of a schema has many spellings (`Schema.Describes`). Records are objects, with their
fields in any order and with other members between them, whatever these are. A field may be left
out if it has its default. Integers are written in plain decimal, and how a string is written
does not matter. `null` stands for a missing value, and for the default where it may.

No object may have a field twice. `Schema.Repeats` says that some object does, of those that
stand for a record.
-/

set_option autoImplicit false

namespace NpuAttribution.Json

mutual

/-- What is written describes a value of the schema. This is the
relation between values and trees that the reader is measured by: it is
defined on the grammar and mentions no reader. -/
def Schema.Describes : (s : Schema) → s.Value → Tree → Prop
  | .flag, b, t => t = .flag b
  | .text, x, t => ∃ parts, t = .text parts ∧ textOf? parts = some x
  | .integer, i, t => ∃ n : Numeral, t = .number n ∧ n.Denotes (Int64.toInt i)
  | .optional _, none, t => t = .null
  | .optional s, some v, t => t ≠ .null ∧ s.Describes v t
  -- The default may be written as `null` or like any other value.
  | .nullable s, v, t => t = .null ∧ v = s.default ∨ t ≠ .null ∧ s.Describes v t
  | .list s, vs, t => ∃ items : Items, t = .array items ∧ List.Forall₂ s.Describes vs items.toList
  | .record fields, vs, t => ∃ (members : Members) (ms : List (String × Tree)),
      t = .object members ∧ members.named? = some ms ∧ fields.Describes vs ms

/-- The members of an object describe the values of the fields. Either
one member has the name of a field and describes its value, or none has
and the value is the default. The members of other names describe the
other fields, or nothing. -/
def Fields.Describes : (fields : Fields) → fields.Values → List (String × Tree) → Prop
  | .nil, _, _ => True
  | .cons name s others, (v, vs), ms =>
    -- The name of this field occurs once, with a value that fits, or not at all.
    ((∃ t, ms.filter (fun m => m.1 = name) = [(name, t)] ∧ s.Describes v t) ∨
      ms.filter (fun m => m.1 = name) = [] ∧ v = s.default) ∧
    others.Describes vs (ms.filter fun m => m.1 ≠ name)

end

/-- What is expected of the field of the given name, if there is one. -/
def Fields.schema? : Fields → String → Option Schema
  | .nil, _ => none
  | .cons name s others, key => if key = name then some s else others.schema? key

/-- What is expected of the fields in their order of declaration. -/
def Fields.schemas : Fields → List Schema
  | .nil => []
  | .cons _ s others => s :: others.schemas

/-- Whether `null` may be written for a value. -/
def Schema.admitsNull : Schema → Bool
  | .optional _ | .nullable _ => true
  | _ => false

mutual

/-- Every value has a spelling: `null` is not needed for two values, and
no two fields of a record have the same name. -/
def Schema.Clear : Schema → Prop
  | .flag | .text | .integer => True
  | .optional s | .nullable s => s.admitsNull = false ∧ s.Clear
  | .list s => s.Clear
  | .record fields => fields.Clear

/-- Every row of values for the fields has a spelling. -/
def Fields.Clear : Fields → Prop
  | .nil => True
  | .cons name s others => others.schema? name = none ∧ s.Clear ∧ others.Clear

end

/-- A field occurs twice in an object that stands for a record: in the
value itself or in a part of it. Parts are items of a list, members that
are fields, and items of an array that stands for a record. -/
inductive Schema.Repeats : Schema → Tree → Prop
  | here {fields : Fields} {members : Members} {name : String} {s : Schema}
      (hfield : fields.schema? name = some s)
      (htwice : 2 ≤ (members.toList.map fun m => textOf? m.1).count (some name)) :
      Repeats (.record fields) (.object members)
  | member {fields : Fields} {members : Members} {name : String} {s : Schema}
      {m : List TextPart × Tree} (hfield : fields.schema? name = some s)
      (hm : m ∈ members.toList) (hname : textOf? m.1 = some name) (h : Repeats s m.2) :
      Repeats (.record fields) (.object members)
  | inOrder {fields : Fields} {items : Items} {s : Schema} {t : Tree}
      (hm : (s, t) ∈ fields.schemas.zip items.toList) (h : Repeats s t) :
      Repeats (.record fields) (.array items)
  | item {s : Schema} {items : Items} {t : Tree} (hm : t ∈ items.toList) (h : Repeats s t) :
      Repeats (.list s) (.array items)
  | optional {s : Schema} {t : Tree} (h : Repeats s t) : Repeats (.optional s) t
  | nullable {s : Schema} {t : Tree} (h : Repeats s t) : Repeats (.nullable s) t

end NpuAttribution.Json
