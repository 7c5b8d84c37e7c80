import NpuAttribution.Wire.Reader

/-!
# `NpuAttribution.Wire.Row`: messages as rows of fields

The reader takes a message apart field by field. What these fields are is said here without
a reader, so that the two can be compared. A field is a key and a content. How the content
is delimited follows from the key if the field is unknown, and from the layout if it is
known. A message is a row of such fields.

`Padded` says that one message is another one with an unknown field put in somewhere between
two fields, be it of the message itself or of a message or map entry inside of it.
-/

set_option autoImplicit false

namespace NpuAttribution.Wire

/-- The bytes are a number and nothing else. -/
def IsVarint (n : Nat) (s : Bytes) : Prop := readVarint s = some (n, [])

/-- The bytes are a key and nothing else. -/
def IsKey (key : Key) (s : Bytes) : Prop := ∃ n, IsVarint n s ∧ Key.ofCode? n = some key

/-- The bytes are a content with its length in front. -/
def IsDelimited (s : Bytes) : Prop :=
  ∃ length content, IsVarint content.length length ∧ s = length ++ content

/-- The bytes are the fields of the group with the given number and the
end of the group. What is a content of a field is given. -/
inductive IsGroup (isContent : Key → Bytes → Prop) (number : Nat) : Bytes → Prop
  | close {head : Bytes} (hkey : IsKey ⟨number, .groupEnd⟩ head) : IsGroup isContent number head
  | field {key : Key} {head content rest : Bytes} (hkey : IsKey key head)
    (hcontent : isContent key content) (hrest : IsGroup isContent number rest) :
    IsGroup isContent number (head ++ (content ++ rest))

/-- The bytes are the content of a field with the given key, and nothing
else. Groups may be nested, but the field itself counts as a level. -/
def IsContent : Nat → Key → Bytes → Prop
  | 0, _, _ => False
  | levels + 1, key, s =>
    match key.wireType with
    | .varint => ∃ n, IsVarint n s
    | .fixed64 => s.length = 8
    | .fixed32 => s.length = 4
    | .delimited => IsDelimited s
    | .groupStart => IsGroup (IsContent levels) key.number s
    | .groupEnd => False

/-- The bytes are a field with the given number. -/
def IsField (levels number : Nat) (s : Bytes) : Prop :=
  ∃ key head content, key.number = number ∧ IsKey key head ∧ IsContent levels key content ∧
    s = head ++ content

/-- The bytes are the content of a known field. The entry of a map has a
length in front, whatever wire type the key gives. -/
def Shape.IsContent : Shape → WireType → Bytes → Prop
  | .textMap, _, s => IsDelimited s
  | .text, t, s => t = .delimited ∧ IsDelimited s
  | .bytes, t, s => t = .delimited ∧ IsDelimited s
  | .message _, t, s => t = .delimited ∧ IsDelimited s
  | .messages _, t, s => t = .delimited ∧ IsDelimited s
  | .flag, t, s => t = .varint ∧ ∃ n, IsVarint n s
  | .int32, t, s => t = .varint ∧ ∃ n, IsVarint n s
  | .uint32, t, s => t = .varint ∧ ∃ n, IsVarint n s

namespace Layout

/-- What the field with a number holds, if the layout lists it. -/
def shape? : Layout → Nat → Option Shape
  | .nil, _ => none
  | .cons number shape rest, n => if n = number then some shape else rest.shape? n

/-- The bytes are the content of a field of a message, be it known or not. -/
def IsContent (layout : Layout) (levels : Nat) (key : Key) (s : Bytes) : Prop :=
  match layout.shape? key.number with
  | some shape => shape.IsContent key.wireType s
  | none => Wire.IsContent levels key s

/-- The bytes are a row of fields of a message. -/
inductive IsRow (layout : Layout) (levels : Nat) : Bytes → Prop
  | nil : IsRow layout levels []
  | cons {key : Key} {head content rest : Bytes} (hkey : IsKey key head)
    (hcontent : layout.IsContent levels key content) (hrest : IsRow layout levels rest) :
    IsRow layout levels (head ++ (content ++ rest))

/-- The entry of a map as a message. -/
def entry : Layout := .cons 1 .text <| .cons 2 .text .nil

end Layout

/-- The layout of the messages inside of a field, if there are any. -/
def Shape.inner? : Shape → Option Layout
  | .message layout => some layout
  | .messages layout => some layout
  | .textMap => some Layout.entry
  | _ => none

/-- The second message is the first one with an unknown field put in
between two fields:

- `here`: of the message itself;
- `inside`: of a message or map entry in one of its fields, whose length
  is then adjusted. -/
inductive Layout.Padded : Layout → Nat → Bytes → Bytes → Prop
  | here {layout : Layout} {levels number : Nat} {before added after : Bytes}
    (hrow : layout.IsRow levels before) (hadded : IsField levels number added)
    (hunknown : layout.shape? number = none) :
    Padded layout levels (before ++ after) (before ++ (added ++ after))
  | inside {layout inner : Layout} {levels : Nat} {shape : Shape} {key : Key}
    {before head length content length' content' after : Bytes}
    (hrow : layout.IsRow (levels + 1) before) (hkey : IsKey key head)
    (hshape : layout.shape? key.number = some shape) (hinner : shape.inner? = some inner)
    (hpadded : Padded inner levels content content')
    (hlength : IsVarint content.length length) (hlength' : IsVarint content'.length length') :
    Padded layout (levels + 1) (before ++ (head ++ (length ++ (content ++ after))))
      (before ++ (head ++ (length' ++ (content' ++ after))))

end NpuAttribution.Wire
