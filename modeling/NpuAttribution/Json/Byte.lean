/-!
# `NpuAttribution.Json.Byte`: bytes of a JSON text, and what can be wrong with one

A JSON text is read as bytes, because it need not be valid UTF-8 everywhere. What
matters about a text that cannot be read is only the kind of its first problem: it
ends too early, it is not JSON, or it is not what was asked for. Readers go through
the text from the front, so the first problem met is the first in the text.
-/

set_option autoImplicit false

namespace NpuAttribution.Json

/-- A text or the rest of one. -/
abbrev Bytes := List UInt8

/-- The kinds of problems: the text ends inside a value, it is no JSON,
or it is JSON of the wrong type. -/
inductive Fault
  | truncated
  | malformed
  | mismatched
  deriving DecidableEq, Repr

/-- The UTF-8 bytes of a text. -/
def bytesOf (s : String) : Bytes := s.toUTF8.toList

/-- Space, tab, line feed and carriage return may stand between tokens. -/
def isBlank (b : UInt8) : Bool := b == 0x20 || b == 0x09 || b == 0x0A || b == 0x0D

/-- The text from its next token on. -/
def skipBlank (s : Bytes) : Bytes := s.dropWhile isBlank

/-- The digits `0` to `9`. -/
def isDigit (b : UInt8) : Bool := 0x30 ≤ b && b ≤ 0x39

/-- The value of a digit. -/
def digitValue (b : UInt8) : Nat := b.toNat - 0x30

/-- The value of a hexadecimal digit of either case. -/
def hexValue? (b : UInt8) : Option Nat :=
  if isDigit b then some (b.toNat - 0x30)
  else if 0x41 ≤ b && b ≤ 0x46 then some (b.toNat - 0x41 + 10)
  else if 0x61 ≤ b && b ≤ 0x66 then some (b.toNat - 0x61 + 10)
  else none

/-- The value of four hexadecimal digits, the first of which counts
most. There is none if one of them is no digit. -/
def hexValue4? (digits : List UInt8) : Option Nat := do
  -- All four bytes have to be digits before anything is added up.
  let values ← digits.mapM hexValue?
  return values.foldl (fun n d => 16 * n + d) 0

/-- What the letter after a backslash stands for, if it stands for one
character. -/
def escapedByte? (b : UInt8) : Option UInt8 :=
  if b = 0x22 then some 0x22        -- quotation mark
  else if b = 0x5C then some 0x5C   -- backslash
  else if b = 0x2F then some 0x2F   -- slash
  else if b = 0x62 then some 0x08   -- `b`: backspace
  else if b = 0x66 then some 0x0C   -- `f`: form feed
  else if b = 0x6E then some 0x0A   -- `n`: line feed
  else if b = 0x72 then some 0x0D   -- `r`: carriage return
  else if b = 0x74 then some 0x09   -- `t`: tab
  else none

/-- Control characters must be escaped in strings. -/
def isControl (b : UInt8) : Bool := b < 0x20

/-- Reads the given bytes and returns what follows them. A text that
ends in the middle of a literal is truncated, and one with another byte
in it is no JSON, wherever in the literal the other byte stands. -/
def readLiteral : Bytes → Bytes → Except Fault Bytes
  | [], s => .ok s
  | _ :: _, [] => .error .truncated
  | e :: es, b :: s => if b = e then readLiteral es s else .error .malformed

/-- What follows the `n` of `null`. -/
def nullTail : Bytes := [0x75, 0x6C, 0x6C]

/-- What follows the `t` of `true`. -/
def trueTail : Bytes := [0x72, 0x75, 0x65]

/-- What follows the `f` of `false`. -/
def falseTail : Bytes := [0x61, 0x6C, 0x73, 0x65]

end NpuAttribution.Json
