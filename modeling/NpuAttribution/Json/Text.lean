import NpuAttribution.Json.Byte

/-!
# `NpuAttribution.Json.Text`: strings

A string is read byte by byte. `TextPlace` says where in the string the reader is;
between the quotation marks that is the plain part, an escape, the digits of a code
unit, or between the two halves of a surrogate pair. Surrogates must come in pairs,
and what has been read must be UTF-8 as a whole once the string is closed.
-/

set_option autoImplicit false

namespace NpuAttribution.Json

/-- Where in a string the next byte stands. -/
inductive TextPlace
  /-- Outside of an escape. -/
  | plain
  /-- After a backslash. -/
  | escape
  /-- After `\u` and fewer than four further bytes, the latest first. With a code unit
  before it, the first half of a pair has been read. -/
  | hex (high : Option Nat) (digits : List UInt8)
  /-- Where the backslash of the second half of a pair must stand. -/
  | lowEscape (high : Nat)
  /-- Where the `u` of the second half of a pair must stand. -/
  | lowLetter (high : Nat)
  deriving DecidableEq, Repr

/-- What one more byte of a string leads to: its end, or bytes of the
text and a new place. -/
inductive TextStep
  | close
  | more (out : List UInt8) (place : TextPlace)
  deriving DecidableEq, Repr

/-- The first halves of surrogate pairs. -/
def isHighSurrogate (n : Nat) : Bool := 0xD800 ≤ n && n ≤ 0xDBFF

/-- The second halves of surrogate pairs. -/
def isLowSurrogate (n : Nat) : Bool := 0xDC00 ≤ n && n ≤ 0xDFFF

/-- The code point of a surrogate pair. -/
def joinSurrogates (high low : Nat) : Nat :=
  (high - 0xD800) * 0x400 + (low - 0xDC00) + 0x10000

/-- The UTF-8 bytes of a code point. -/
def codePointBytes (n : Nat) : List UInt8 := String.utf8EncodeChar (Char.ofNat n)

/-- A code unit of which all four digits have been read. The first half
of a surrogate pair yields no character yet, and the second half yields
one together with the first. A half without its other half is no JSON. -/
def finishUnit (high : Option Nat) (unit : Nat) : Except Fault TextStep :=
  match high with
  | none =>
    if isLowSurrogate unit then .error .malformed
    -- What follows has to be an escape with the second half.
    else if isHighSurrogate unit then .ok (.more [] (.lowEscape unit))
    else .ok (.more (codePointBytes unit) .plain)
  | some high =>
    if isLowSurrogate unit then .ok (.more (codePointBytes (joinSurrogates high unit)) .plain)
    else .error .malformed

/-- Reads one byte of a string and says where the next one stands. Bytes
outside of an escape are kept as they are; whether they are UTF-8 is
asked at the end. -/
def textStep (place : TextPlace) (b : UInt8) : Except Fault TextStep :=
  match place with
  | .plain =>
    if b = 0x22 then .ok .close
    else if b = 0x5C then .ok (.more [] .escape)
    else if isControl b then .error .malformed
    else .ok (.more [b] .plain)
  | .escape =>
    match escapedByte? b with
    | some c => .ok (.more [c] .plain)
    -- `u` introduces a code unit.
    | none => if b = 0x75 then .ok (.more [] (.hex none [])) else .error .malformed
  | .hex high digits =>
    if digits.length < 3 then .ok (.more [] (.hex high (b :: digits)))
    -- This is the fourth digit, so the code unit is complete.
    else match hexValue4? (b :: digits).reverse with
      | some unit => finishUnit high unit
      | none => .error .malformed
  | .lowEscape high =>
    if b = 0x5C then .ok (.more [] (.lowLetter high)) else .error .malformed
  | .lowLetter high =>
    if b = 0x75 then .ok (.more [] (.hex (some high) [])) else .error .malformed

/-- Reads a string to its end. Returns the bytes of its text, given
those read so far with the latest first, and what follows the
closing quotation mark. -/
def readTextFrom (place : TextPlace) (acc : List UInt8) : Bytes → Except Fault (Bytes × Bytes)
  | [] => .error .truncated
  | b :: s =>
    match textStep place b with
    | .error f => .error f
    | .ok .close => .ok (acc.reverse, s)
    | .ok (.more out place) => readTextFrom place (out.reverse ++ acc) s

/-- Reads a string whose opening quotation mark has been read. The bytes
between the quotation marks have to be UTF-8, which is asked only when
the string is closed. -/
def readText (s : Bytes) : Except Fault (String × Bytes) :=
  match readTextFrom .plain [] s with
  | .error f => .error f
  | .ok (text, rest) =>
    match String.fromUTF8? ⟨text.toArray⟩ with
    | some t => .ok (t, rest)
    | none => .error .malformed

end NpuAttribution.Json
