import NpuAttribution.Json.Number
import NpuAttribution.Json.Text
import NpuAttribution.Json.Tree
import NpuAttribution.Text.Decimal

/-!
# `NpuAttribution.Json.Meaning`: what the parts of a JSON text mean

Strings stand for texts, and numbers for numbers, but not all of them: a string with half a
surrogate pair stands for no text, and a number may be out of the range of double precision.
A value that keeps to the limits (`Tree.Within`) has neither of these anywhere, and not too many
levels of brackets.
-/

set_option autoImplicit false

namespace NpuAttribution.Json

/-! ### Strings -/

/-- The first half of a surrogate pair. -/
def TextPart.isHigh : TextPart → Bool
  | .unit u => isHighSurrogate u.value
  | _ => false

/-- The second half of a surrogate pair. -/
def TextPart.isLow : TextPart → Bool
  | .unit u => isLowSurrogate u.value
  | _ => false

/-- Second halves of surrogate pairs stand where a first half stands
before them, and nowhere else. The flag says whether a first half stands
before all of this. -/
def Paired : Bool → List TextPart → Bool
  | afterHigh, [] => !afterHigh
  | afterHigh, p :: parts => p.isLow == afterHigh && Paired p.isHigh parts

/-- The characters that the parts of a string stand for, if no
surrogate is alone. -/
def charsOf? : List TextPart → Option (List Char)
  | [] => some []
  | .plain c :: parts => (charsOf? parts).map (c.char :: ·)
  | .escape e :: parts => (charsOf? parts).map (e.char :: ·)
  | .unit u :: parts =>
    if isHighSurrogate u.value then
      -- Only an escape with a second half can follow, and both are one character.
      match parts with
      | .unit low :: parts =>
        if isLowSurrogate low.value then
          (charsOf? parts).map (.ofNat (joinSurrogates u.value low.value) :: ·)
        else none
      | _ => none
    -- A second half that follows no first half.
    else if isLowSurrogate u.value then none
    else (charsOf? parts).map (.ofNat u.value :: ·)

/-- The text that a string stands for. -/
def textOf? (parts : List TextPart) : Option String := (charsOf? parts).map String.ofList

/-- The members of an object under the texts that their keys stand for,
if all of them do. -/
def Members.named? (members : Members) : Option (List (String × Tree)) :=
  members.toList.mapM fun m => (textOf? m.1).map (·, m.2)

/-! ### Numbers -/

/-- Whether a number is in the range of double precision. The question
is put to the digits as they are written, with all digits that the
significand has no room for. -/
def Numeral.InRange (n : Numeral) : Prop := (NumberParts.ofLexeme n.bytes).isFinite = true

/-- The number that is meant, if it is in the range. -/
def Numeral.number? (n : Numeral) : Option Number := Number.ofParts? (.ofLexeme n.bytes)

/-- The value of the digits before the point. -/
def WholePart.value (w : WholePart) : Nat := Text.decimalValue w.digits.toList

/-- A number is an integer in plain decimal: there is no point and
no exponent, and the sign and the digits are those of the integer.
Zero has no sign. -/
structure Numeral.Denotes (n : Numeral) (i : Int) : Prop where
  fraction : n.fraction = none
  exponent : n.exponent = none
  value : i = if n.negative then -(n.whole.value : Int) else n.whole.value
  zero : n.negative = true → n.whole.value ≠ 0

/-! ### Limits -/

mutual

/-- So many levels of brackets a value has. -/
def Tree.depth : Tree → Nat
  | .array items => items.depth + 1
  | .object members => members.depth + 1
  | _ => 0

/-- The levels of the deepest item. -/
def Items.depth : Items → Nat
  | .nil _ => 0
  | .cons _ item _ others => max item.depth others.depth

/-- The levels of the deepest value of a member. -/
def Members.depth : Members → Nat
  | .nil _ => 0
  | .cons _ _ _ _ value _ others => max value.depth others.depth

end

mutual

/-- The numbers anywhere in a value. -/
def Tree.numbers : Tree → List Numeral
  | .number n => [n]
  | .array items => items.numbers
  | .object members => members.numbers
  | _ => []

/-- The numbers in items. -/
def Items.numbers : Items → List Numeral
  | .nil _ => []
  | .cons _ item _ others => item.numbers ++ others.numbers

/-- The numbers in the values of members. -/
def Members.numbers : Members → List Numeral
  | .nil _ => []
  | .cons _ _ _ _ value _ others => value.numbers ++ others.numbers

end

mutual

/-- The strings anywhere in a value, keys included. -/
def Tree.strings : Tree → List (List TextPart)
  | .text parts => [parts]
  | .array items => items.strings
  | .object members => members.strings
  | _ => []

/-- The strings in items. -/
def Items.strings : Items → List (List TextPart)
  | .nil _ => []
  | .cons _ item _ others => item.strings ++ others.strings

/-- The keys of members and the strings in their values. -/
def Members.strings : Members → List (List TextPart)
  | .nil _ => []
  | .cons _ key _ _ value _ others => key :: (value.strings ++ others.strings)

end

/-- A value keeps to the limits of whoever keeps all of it:

- `depth`: it has not too many levels of brackets;
- `numbers`: all its numbers are in the range of double precision;
- `strings`: none of its strings has half a surrogate pair. -/
structure Tree.Within (levels : Nat) (t : Tree) : Prop where
  depth : t.depth ≤ levels
  numbers : ∀ n ∈ t.numbers, n.InRange
  strings : ∀ parts ∈ t.strings, Paired false parts = true

end NpuAttribution.Json
