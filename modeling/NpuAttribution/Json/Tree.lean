import NpuAttribution.Json.Byte

/-!
# `NpuAttribution.Json.Tree`: JSON texts taken apart

A `Document` is a JSON text taken apart as the grammar of JSON has it: a value with its brackets
and tokens, the blanks between them, the characters and escapes of strings, the digits of
numbers. `Document.bytes` puts the text together again. So the JSON texts are the bytes of
documents, and a document says everything about how its text is written.

Every part is of a type that admits nothing but what may stand there: the first digit of a
number with several digits is no zero, and a character that stands for itself in a string is
no quotation mark. Nothing is said about the meaning. Members may repeat, surrogates may be
alone, numbers may be of any size.
-/

set_option autoImplicit false

namespace NpuAttribution.Json

/-- Blanks between two tokens. -/
structure Blanks where
  bytes : Bytes
  blank : ∀ b ∈ bytes, isBlank b = true

/-- No blanks. -/
def Blanks.none : Blanks := ⟨[], fun _ h => by cases h⟩

/-! ### Strings -/

/-- Whether a character may stand for itself in a string: it is no
control character, no quotation mark and no backslash. -/
def isPlain (c : Char) : Bool := 0x20 ≤ c.toNat && c.toNat != 0x22 && c.toNat != 0x5C

/-- A character that may stand for itself in a string. -/
structure PlainChar where
  char : Char
  plain : isPlain char = true := by decide

/-- The escapes that consist of a backslash and one letter. -/
inductive Escape
  | quotationMark
  | backslash
  | slash
  | backspace
  | formFeed
  | lineFeed
  | carriageReturn
  | tab
  deriving DecidableEq, Repr

/-- The letter of an escape. -/
def Escape.letter : Escape → UInt8
  | .quotationMark => 0x22
  | .backslash => 0x5C
  | .slash => 0x2F
  | .backspace => 0x62
  | .formFeed => 0x66
  | .lineFeed => 0x6E
  | .carriageReturn => 0x72
  | .tab => 0x74

/-- The character that an escape stands for. -/
def Escape.char : Escape → Char
  | .quotationMark => .ofNat 0x22
  | .backslash => .ofNat 0x5C
  | .slash => .ofNat 0x2F
  | .backspace => .ofNat 0x08
  | .formFeed => .ofNat 0x0C
  | .lineFeed => .ofNat 0x0A
  | .carriageReturn => .ofNat 0x0D
  | .tab => .ofNat 0x09

/-- A hexadecimal digit. Those above nine are letters of either case. -/
structure HexDigit where
  value : Fin 16
  upper : Bool := false
  deriving DecidableEq, Repr

/-- The byte of a hexadecimal digit. -/
def HexDigit.byte (d : HexDigit) : UInt8 :=
  if d.value < 10 then .ofNat (0x30 + d.value)
  else if d.upper then .ofNat (0x41 + (d.value - 10))
  else .ofNat (0x61 + (d.value - 10))

/-- Four hexadecimal digits, which stand for a code unit of UTF-16. -/
structure CodeUnit where
  first : HexDigit
  second : HexDigit
  third : HexDigit
  fourth : HexDigit
  deriving DecidableEq, Repr

/-- The code unit as a number. -/
def CodeUnit.value (u : CodeUnit) : Nat :=
  16 * (16 * (16 * u.first.value + u.second.value) + u.third.value) + u.fourth.value

/-- The four digits. -/
def CodeUnit.bytes (u : CodeUnit) : Bytes :=
  [u.first.byte, u.second.byte, u.third.byte, u.fourth.byte]

/-- What a string consists of. -/
inductive TextPart
  | plain (c : PlainChar)
  | escape (e : Escape)
  /-- The escape `\u` with a code unit. -/
  | unit (u : CodeUnit)

/-- How a part of a string is written. -/
def TextPart.bytes : TextPart → Bytes
  | .plain c => String.utf8EncodeChar c.char
  | .escape e => [0x5C, e.letter]
  | .unit u => 0x5C :: 0x75 :: u.bytes

/-- A string in its quotation marks. -/
def quoted (parts : List TextPart) : Bytes := 0x22 :: (parts.flatMap TextPart.bytes ++ [0x22])

/-! ### Numbers -/

/-- The byte of a decimal digit. -/
def digitByte (d : Fin 10) : UInt8 := .ofNat (0x30 + d)

/-- One or more digits. -/
structure Digits where
  first : Fin 10
  others : List (Fin 10)
  deriving DecidableEq, Repr

/-- The digits as a list. -/
def Digits.toList (ds : Digits) : List (Fin 10) := ds.first :: ds.others

/-- The digits before the point. They begin with a zero only if this is all. -/
structure WholePart where
  digits : Digits
  noZero : digits.first = 0 → digits.others = [] := by decide

/-- An exponent with its letter, of either case, and with its sign if it
has one. -/
structure Exponent where
  upper : Bool
  sign : Option Bool
  digits : Digits
  deriving DecidableEq, Repr

/-- A number as it is written. -/
structure Numeral where
  negative : Bool
  whole : WholePart
  fraction : Option Digits
  exponent : Option Exponent

/-- The point and the digits after it. -/
def fractionBytes (ds : Digits) : Bytes := 0x2E :: ds.toList.map digitByte

/-- The exponent with its letter. -/
def Exponent.bytes (e : Exponent) : Bytes :=
  (if e.upper then 0x45 else 0x65) ::
    ((e.sign.map fun minus => if minus then 0x2D else 0x2B).toList ++ e.digits.toList.map digitByte)

/-- How a number is written. -/
def Numeral.bytes (n : Numeral) : Bytes :=
  (if n.negative then [0x2D] else []) ++ n.whole.digits.toList.map digitByte ++
    (n.fraction.map fractionBytes).getD [] ++ (n.exponent.map Exponent.bytes).getD []

/-! ### Values -/

mutual

/-- A value as it is written. -/
inductive Tree
  | null
  | flag (b : Bool)
  | number (n : Numeral)
  | text (parts : List TextPart)
  | array (items : Items)
  | object (members : Members)

/-- The items of an array with the blanks around them. Before the
closing bracket there is a gap, also if there are no items. -/
inductive Items
  | nil (gap : Blanks)
  | cons (before : Blanks) (item : Tree) (after : Blanks) (others : Items)

/-- The members of an object with the blanks around their keys and values. -/
inductive Members
  | nil (gap : Blanks)
  | cons (before : Blanks) (key : List TextPart) (beforeColon afterColon : Blanks) (value : Tree)
    (after : Blanks) (others : Members)

end

/-- What stands in front of an item or a member: a comma, unless it is
the `first`. The flag goes along the whole list, so there is no comma
after the last one. -/
def comma (first : Bool) : Bytes := if first then [] else [0x2C]

mutual

/-- How a value is written. There is one way, because everything
that may vary is part of the value: its blanks, its escapes, and the
digits of its numbers. -/
def Tree.bytes : Tree → Bytes
  | .null => 0x6E :: nullTail
  | .flag b => if b then 0x74 :: trueTail else 0x66 :: falseTail
  | .number n => n.bytes
  | .text parts => quoted parts
  | .array items => 0x5B :: items.bytes true
  | .object members => 0x7B :: members.bytes true

/-- How items are written, with the bracket that closes the array. -/
def Items.bytes : Bool → Items → Bytes
  | _, .nil gap => gap.bytes ++ [0x5D]
  | first, .cons before item after others =>
    comma first ++ before.bytes ++ item.bytes ++ after.bytes ++ others.bytes false

/-- How members are written, with the bracket that closes the object. -/
def Members.bytes : Bool → Members → Bytes
  | _, .nil gap => gap.bytes ++ [0x7D]
  | first, .cons before key beforeColon afterColon value after others =>
    comma first ++ before.bytes ++ quoted key ++ beforeColon.bytes ++ [0x3A] ++ afterColon.bytes
      ++ value.bytes ++ after.bytes ++ others.bytes false

end

/-- The items without the blanks. -/
def Items.toList : Items → List Tree
  | .nil _ => []
  | .cons _ item _ others => item :: others.toList

/-- The members without the blanks: their keys and values in order. -/
def Members.toList : Members → List (List TextPart × Tree)
  | .nil _ => []
  | .cons _ key _ _ value _ others => (key, value) :: others.toList

/-- A JSON text: a value with blanks around it. -/
structure Document where
  before : Blanks
  tree : Tree
  after : Blanks

/-- How a document is written. -/
def Document.bytes (d : Document) : Bytes := d.before.bytes ++ d.tree.bytes ++ d.after.bytes

end NpuAttribution.Json
