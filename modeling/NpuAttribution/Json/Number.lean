import NpuAttribution.Json.Byte

/-!
# `NpuAttribution.Json.Number`: numbers

A number that is kept is either an integer, if it is written as one and fits 64 bits,
or some other number, whose value nobody needs. Even so it has to be representable: a
number beyond the range of double precision is as bad as one that is not JSON.

The form of numbers is described by `NumberPlace` and `numberStep`, byte by byte, since
a number ends only at the first byte that cannot continue it.
-/

set_option autoImplicit false

namespace NpuAttribution.Json

/-- Where in a number the next byte stands. The places are named after
the byte before them: after a minus sign, after a zero in front, among
the digits before the point, and so on. -/
inductive NumberPlace
  | start
  | minus
  | zero
  | whole
  | point
  | fraction
  | exponent
  | exponentSign
  | exponentDigits
  deriving DecidableEq, Repr

/-- Whether a number may end at this place. -/
def NumberPlace.isEnd : NumberPlace → Bool
  | .zero | .whole | .fraction | .exponentDigits => true
  | _ => false

/-- What one more byte leads to: it belongs to the number, the number
ended before it, or there is no number here. -/
inductive NumberStep
  | more (place : NumberPlace)
  | ended
  | wrong
  deriving DecidableEq, Repr

/-- The letter `e` before an exponent. -/
def isExponentLetter (b : UInt8) : Bool := b == 0x65 || b == 0x45

/-- The sign of an exponent. -/
def isSign (b : UInt8) : Bool := b == 0x2B || b == 0x2D

/-- Reads one byte of a number. A zero in front admits no further digit. -/
def numberStep (place : NumberPlace) (b : UInt8) : NumberStep :=
  match place with
  | .start =>
    if b = 0x2D then .more .minus
    else if b = 0x30 then .more .zero
    else if isDigit b then .more .whole
    else .wrong
  | .minus =>
    if b = 0x30 then .more .zero
    else if isDigit b then .more .whole
    else .wrong
  -- A zero in front is all there is before the point.
  | .zero =>
    if isDigit b then .wrong
    else if b = 0x2E then .more .point
    else if isExponentLetter b then .more .exponent
    else .ended
  | .whole =>
    if isDigit b then .more .whole
    else if b = 0x2E then .more .point
    else if isExponentLetter b then .more .exponent
    else .ended
  -- After a point there is at least one digit.
  | .point => if isDigit b then .more .fraction else .wrong
  | .fraction =>
    if isDigit b then .more .fraction
    else if isExponentLetter b then .more .exponent
    else .ended
  -- The exponent may have a sign, and has at least one digit.
  | .exponent =>
    if isDigit b then .more .exponentDigits
    else if isSign b then .more .exponentSign
    else .wrong
  | .exponentSign => if isDigit b then .more .exponentDigits else .wrong
  | .exponentDigits => if isDigit b then .more .exponentDigits else .ended

/-- Reads a number from a place in it. Returns its bytes, given those read
so far with the latest first, and what follows.

The byte that ends a number does not belong to it and is left for whoever
reads on, so a comma or a bracket behind a number is still there. -/
def readLexemeFrom (place : NumberPlace) (acc : Bytes) : Bytes → Except Fault (Bytes × Bytes)
  -- The end of the text ends a number as well, if the number may end here.
  | [] => if place.isEnd then .ok (acc.reverse, []) else .error .truncated
  | b :: s =>
    match numberStep place b with
    | .more place => readLexemeFrom place (b :: acc) s
    | .ended => .ok (acc.reverse, b :: s)
    | .wrong => .error .malformed

/-- The parts of a number: the digits before and after the point and the
exponent. `plain` numbers have neither point nor exponent. -/
structure NumberParts where
  negative : Bool
  whole : List Nat
  fraction : List Nat
  exponent : Int
  plain : Bool
  deriving DecidableEq, Repr

/-- The value of a row of digits. -/
def digitsValue (digits : Bytes) : Nat :=
  digits.foldl (fun n b => 10 * n + digitValue b) 0

/-- The exponent that a text after the letter `e` gives. It may be
written with a plus sign, with a minus sign or without any. -/
def exponentValue : Bytes → Int
  | b :: digits =>
    if b = 0x2D then -(digitsValue digits : Int)
    else if b = 0x2B then (digitsValue digits : Int)
    else (digitsValue (b :: digits) : Int)
  | [] => 0

/-- The parts of a number that has been read. -/
def NumberParts.ofLexeme (lexeme : Bytes) : NumberParts :=
  let negative := lexeme.head? == some 0x2D
  let s := if negative then lexeme.drop 1 else lexeme
  let whole := (s.takeWhile isDigit).map digitValue
  match s.dropWhile isDigit with
  | [] => ⟨negative, whole, [], 0, true⟩
  | b :: s =>
    if b = 0x2E then
      let fraction := (s.takeWhile isDigit).map digitValue
      ⟨negative, whole, fraction, exponentValue ((s.dropWhile isDigit).drop 1), false⟩
    else
      ⟨negative, whole, [], exponentValue s, false⟩

/-- Significands have 64 bits. -/
def significandBound : Nat := UInt64.size

/-- The significand that digits add up to. The first digit that would
take it beyond 64 bits ends the sum, and the digits from there on are
returned as well. They are not lost if they stand before the point,
where they count as zeros. -/
def significand (n : Nat) : List Nat → Nat × List Nat
  | [] => (n, [])
  | d :: ds => if 10 * n + d < significandBound then significand (10 * n + d) ds else (n, d :: ds)

/-- The nearest number with 53 significant bits, of two such numbers the
even one. This is how a product or a constant is rounded to double
precision as long as it is in the range. -/
def roundTo53 (n : Nat) : Nat :=
  -- The number has `excess` bits more than fit. They make up `rest`, and `unit` is
  -- what the last bit that does fit counts for.
  let excess := n.log2 - 52
  let unit := 1 <<< excess
  let low := n / unit
  let rest := n % unit
  if 2 * rest < unit then low * unit
  -- Exactly in the middle: the last bit that fits becomes zero.
  else if 2 * rest = unit then (low + low % 2) * unit
  else (low + 1) * unit

/-- The largest power of ten that double precision holds. -/
def maxDecimalExponent : Int := 308

/-- Whether a significand times a power of ten is within the range of
double precision, both factors being rounded before they are multiplied. -/
def inDoubleRange (n : Nat) (exponent : Int) : Bool :=
  -- A negative exponent makes the value smaller, and zero stays zero.
  if exponent < 0 || n == 0 then true
  -- Such a power of ten is out of the range by itself.
  else if maxDecimalExponent < exponent then false
  else roundTo53 (roundTo53 n * roundTo53 (Nat.pow 10 exponent.toNat)) < 1 <<< 1024

/-- Whether a number in double precision is finite. Digits beyond the
64 bits of the significand count as zeros before the point and as
nothing after it. -/
def NumberParts.isFinite (p : NumberParts) : Bool :=
  -- The digits after the point go on with the significand of those before it.
  let (n, ignored) := significand 0 p.whole
  let (m, tail) := significand n p.fraction
  -- Each digit after the point that has been counted moves the point by one place.
  let scale : Int := (ignored.length : Int) - ((p.fraction.length - tail.length : Nat) : Int)
  inDoubleRange m (p.exponent + scale)

/-- A number that has been read. -/
inductive Number
  | integer (n : Int)
  | other
  deriving DecidableEq, Repr

/-- The number with the given parts, if it is one. Integers fit 64 bits
with or without a sign, and minus zero is none of them. A number that is
no integer of this kind counts as another number as long as double
precision can hold it. -/
def Number.ofParts? (p : NumberParts) : Option Number :=
  let n : Nat := p.whole.foldl (fun n d => 10 * n + d) 0
  if p.plain && !p.negative && n < UInt64.size then some (.integer n)
  -- The smallest negative integer has no positive counterpart.
  else if p.plain && p.negative && 0 < n && n ≤ UInt64.size / 2 then some (.integer (-(n : Int)))
  else if p.isFinite then some .other
  else none

/-- Reads a number. Its form is read first and its size is looked at
afterwards, so a number that is too large is refused only when all of it
is there. -/
def readNumber (s : Bytes) : Except Fault (Number × Bytes) :=
  match readLexemeFrom .start [] s with
  | .error f => .error f
  | .ok (lexeme, rest) =>
    match Number.ofParts? (.ofLexeme lexeme) with
    | some n => .ok (n, rest)
    | none => .error .malformed

end NpuAttribution.Json
