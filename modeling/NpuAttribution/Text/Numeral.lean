/-!
# `NpuAttribution.Text.Numeral`: unsigned decimal numerals

Device indices, time limits and device majors are all written as unsigned
decimal numerals: an optional plus sign, then one or more ASCII digits. Leading
zeros do not matter, and a numeral whose value does not fit the number type it is
read for is no numeral of that type at all.
-/

set_option autoImplicit false

namespace NpuAttribution.Text

/-- The value of an ASCII digit. Digits of other scripts have none. -/
def digitValue? (c : Char) : Option Nat :=
  if '0' ≤ c ∧ c ≤ '9' then some (c.toNat - '0'.toNat) else none

/-- Reads on from the value `n` of the digits so far. There is no bound
on the value: it is compared with the bound of the type only when all
digits have been read. -/
def digitsFrom? (n : Nat) : List Char → Option Nat
  | [] => some n
  | c :: cs =>
    match digitValue? c with
    | some d => digitsFrom? (10 * n + d) cs
    | none => none

/-- The value of a text that consists of one or more digits. The empty
text has none, and neither has a text with anything but digits in it, be
it a blank or a sign. -/
def digits? (cs : List Char) : Option Nat :=
  if cs.isEmpty then none else digitsFrom? 0 cs

/-- The value of an unsigned numeral, if it is below `bound`. -/
def unsigned? (bound : Nat) (cs : List Char) : Option Nat :=
  let digits := match cs with
    -- One plus sign may stand in front, and a minus sign may not.
    | '+' :: rest => rest
    | _ => cs
  match digits? digits with
  | some n => if n < bound then some n else none
  | none => none

/-- The zeros of the scripts that have decimal digits. The other nine
digits of a script follow its zero. -/
def scriptZeros : List Nat :=
  [0x30, 0x660, 0x6F0, 0x7C0, 0x966, 0x9E6, 0xA66, 0xAE6, 0xB66, 0xBE6, 0xC66, 0xCE6, 0xD66,
   0xDE6, 0xE50, 0xED0, 0xF20, 0x1040, 0x1090, 0x17E0, 0x1810, 0x1946, 0x19D0, 0x1A80, 0x1A90,
   0x1B50, 0x1BB0, 0x1C40, 0x1C50, 0xA620, 0xA8D0, 0xA900, 0xA9D0, 0xA9F0, 0xAA50, 0xABF0,
   0xFF10, 0x104A0, 0x10D30, 0x10D40, 0x11066, 0x110F0, 0x11136, 0x111D0, 0x112F0, 0x11450,
   0x114D0, 0x11650, 0x116C0, 0x116D0, 0x116DA, 0x11730, 0x118E0, 0x11950, 0x11BF0, 0x11C50,
   0x11D50, 0x11DA0, 0x11F50, 0x16130, 0x16A60, 0x16AC0, 0x16B50, 0x16D70, 0x1CCF0, 0x1D7CE,
   0x1D7D8, 0x1D7E2, 0x1D7EC, 0x1D7F6, 0x1E140, 0x1E2F0, 0x1E4F0, 0x1E5F1, 0x1E950, 0x1FBF0]

/-- Whether a character is a decimal digit of some script. This says
nothing about its value: a text of such digits need not be a numeral. -/
def isScriptDigit (c : Char) : Bool :=
  scriptZeros.any fun first => first ≤ c.toNat && c.toNat < first + 10

end NpuAttribution.Text
