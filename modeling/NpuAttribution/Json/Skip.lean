import NpuAttribution.Json.Number

/-!
# `NpuAttribution.Json.Skip`: values that nobody asked for

Members with an unknown name are skipped. Their values must be well formed, but that is
all: they may be nested to any depth, their numbers may be of any size, and their
strings need neither be UTF-8 nor have their surrogates paired.

Skipping goes byte by byte through one machine with a stack of open brackets. A number
that breaks off is counted as malformed here even at the end of the text.
-/

set_option autoImplicit false

namespace NpuAttribution.Json

/-- An open bracket. -/
inductive Bracket
  | array
  | object
  deriving DecidableEq, Repr

/-- The byte that closes a bracket. -/
def Bracket.closing : Bracket → UInt8
  | .array => 0x5D
  | .object => 0x7D

/-- What is being skipped when the next byte comes. -/
inductive SkipPlace
  /-- A value must follow. -/
  | value
  /-- A bracket has just been opened. -/
  | opened
  /-- The key of a member must follow. -/
  | key
  /-- The colon after a key must follow. -/
  | colon
  /-- A value inside a bracket has ended. -/
  | after
  /-- The rest of a literal must follow. -/
  | literal (rest : Bytes)
  /-- Inside a string, which may be a key. -/
  | text (isKey : Bool)
  /-- After a backslash in a string. -/
  | escape (isKey : Bool)
  /-- After `\u` and fewer than four further bytes, the latest first. -/
  | hex (isKey : Bool) (digits : List UInt8)
  /-- Inside a number. -/
  | number (place : NumberPlace)
  deriving DecidableEq, Repr

/-- What one more byte leads to: the value ended with it, the value
ended before it, or there is more to skip. -/
inductive SkipStep
  | last
  | ended
  | more (place : SkipPlace) (stack : List Bracket)
  deriving DecidableEq, Repr

/-- A value has ended, with the given brackets still open around it. -/
def endValue (stack : List Bracket) : SkipStep :=
  if stack.isEmpty then .last else .more .after stack

/-- The first byte of a value. Brackets are put on the stack, and
everything else is followed by a place that says what it is. -/
def skipValueByte (stack : List Bracket) (b : UInt8) : Except Fault SkipStep :=
  if isBlank b then .ok (.more .value stack)
  else if b = 0x22 then .ok (.more (.text false) stack)
  else if b = 0x5B then .ok (.more .opened (.array :: stack))
  else if b = 0x7B then .ok (.more .opened (.object :: stack))
  else if b = 0x6E then .ok (.more (.literal nullTail) stack)
  else if b = 0x74 then .ok (.more (.literal trueTail) stack)
  else if b = 0x66 then .ok (.more (.literal falseTail) stack)
  -- What is none of these can only be a number.
  else match numberStep .start b with
    | .more place => .ok (.more (.number place) stack)
    | _ => .error .malformed

/-- The byte where a key must start. -/
def skipKeyByte (stack : List Bracket) (b : UInt8) : Except Fault SkipStep :=
  if isBlank b then .ok (.more .key stack)
  else if b = 0x22 then .ok (.more (.text true) stack)
  else .error .malformed

/-- A byte after a value inside a bracket: a comma, the closing bracket,
or a blank. If no bracket is open the value is the outermost one and has
ended before this byte. -/
def skipAfterByte (stack : List Bracket) (b : UInt8) : Except Fault SkipStep :=
  match stack with
  | [] => .ok .ended
  | bracket :: below =>
    if isBlank b then .ok (.more .after stack)
    else if b = bracket.closing then .ok (endValue below)
    else if b = 0x2C then
      -- A member has a key, and an item has not.
      .ok (.more (if bracket = .array then .value else .key) stack)
    else .error .malformed

/-- A byte after an opening bracket. -/
def skipOpenedByte (stack : List Bracket) (b : UInt8) : Except Fault SkipStep :=
  match stack with
  | [] => .error .malformed
  | bracket :: below =>
    if isBlank b then .ok (.more .opened stack)
    else if b = bracket.closing then .ok (endValue below)
    else if bracket = .array then skipValueByte stack b
    else skipKeyByte stack b

/-- Skips one byte. Every place has its own bytes that may follow, and
the stack decides what follows the end of a value. -/
def skipStep (place : SkipPlace) (stack : List Bracket) (b : UInt8) : Except Fault SkipStep :=
  match place with
  | .value => skipValueByte stack b
  | .opened => skipOpenedByte stack b
  | .key => skipKeyByte stack b
  | .after => skipAfterByte stack b
  | .colon =>
    if isBlank b then .ok (.more .colon stack)
    else if b = 0x3A then .ok (.more .value stack)
    else .error .malformed
  -- There is always a byte left of a literal that is being skipped.
  | .literal [] => .error .malformed
  | .literal (e :: es) =>
    if b = e then .ok (if es.isEmpty then endValue stack else .more (.literal es) stack)
    else .error .malformed
  | .text isKey =>
    if b = 0x22 then .ok (if isKey then .more .colon stack else endValue stack)
    else if b = 0x5C then .ok (.more (.escape isKey) stack)
    else if isControl b then .error .malformed
    else .ok (.more (.text isKey) stack)
  | .escape isKey =>
    match escapedByte? b with
    | some _ => .ok (.more (.text isKey) stack)
    | none => if b = 0x75 then .ok (.more (.hex isKey []) stack) else .error .malformed
  | .hex isKey digits =>
    if digits.length < 3 then .ok (.more (.hex isKey (b :: digits)) stack)
    else match hexValue4? (b :: digits).reverse with
      | some _ => .ok (.more (.text isKey) stack)
      | none => .error .malformed
  | .number place =>
    match numberStep place b with
    | .more place => .ok (.more (.number place) stack)
    -- The number ended before this byte, which stands after a value.
    | .ended => skipAfterByte stack b
    | .wrong => .error .malformed

/-- What it means that the text ends at a place. Only a number can end
with the text, if it is the outermost value and may end here. -/
def skipEnd (place : SkipPlace) (stack : List Bracket) : Except Fault Bytes :=
  match place with
  | .number place =>
    if place.isEnd then (if stack.isEmpty then .ok [] else .error .truncated)
    else .error .malformed
  | _ => .error .truncated

/-- Skips from a place to the end of the outermost value. Returns
what follows it. -/
def skipFrom (place : SkipPlace) (stack : List Bracket) : Bytes → Except Fault Bytes
  | [] => skipEnd place stack
  | b :: s =>
    match skipStep place stack b with
    | .error f => .error f
    | .ok .last => .ok s
    | .ok .ended => .ok (b :: s)
    | .ok (.more place stack) => skipFrom place stack s

/-- Skips one value and the blanks before it. -/
def skipValue (s : Bytes) : Except Fault Bytes := skipFrom .value [] s

end NpuAttribution.Json
