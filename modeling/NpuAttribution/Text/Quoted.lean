import NpuAttribution.Text.Unprintable

/-!
# `NpuAttribution.Text.Quoted`: texts in quotation marks

Messages quote a text when it may hold anything at all: a rejected container id, a
malformed environment entry, the path of a socket. Quotation marks and backslashes
are escaped, five control characters have a letter of their own, and every other
character that a reader could not see is written as its code point in braces.
-/

set_option autoImplicit false

namespace NpuAttribution.Text

/-- The lower case hexadecimal digits of a number, without leading zeros. -/
def hexDigits (n : Nat) : String :=
  String.ofList (Nat.toDigits 16 n)

/-- One character as it stands between quotation marks. -/
def quoteChar (c : Char) : String :=
  match c with
  | '\x00' => "\\0"
  | '\t' => "\\t"
  | '\r' => "\\r"
  | '\n' => "\\n"
  | '\\' => "\\\\"
  | '"' => "\\\""
  -- All others stand for themselves, whether or not they are ASCII.
  | c => if isUnprintable c then "\\u\x7b" ++ hexDigits c.toNat ++ "\x7d" else c.toString

/-- A text in quotation marks. -/
def quote (s : String) : String :=
  "\"" ++ String.join (s.toList.map quoteChar) ++ "\""

/-- A list in square brackets, its members separated by a comma and a space. -/
def bracketed (members : List String) : String :=
  "[" ++ ", ".intercalate members ++ "]"

end NpuAttribution.Text
