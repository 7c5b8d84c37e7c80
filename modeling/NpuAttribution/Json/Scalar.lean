import NpuAttribution.Json.Number
import NpuAttribution.Json.Text

/-!
# `NpuAttribution.Json.Scalar`: what a value begins with

Every value begins with a scalar, which it then consists of, or with an opening
bracket. `readStart` reads that much, and all readers of values begin with it. So a
scalar of the wrong type is still read to its end, and what is wrong inside it comes
before its being of the wrong type.
-/

set_option autoImplicit false

namespace NpuAttribution.Json

/-- A value without parts. -/
inductive Scalar
  | null
  | flag (b : Bool)
  | number (n : Number)
  | text (s : String)
  deriving DecidableEq, Repr

/-- A scalar, or an opening bracket, and what follows. -/
inductive Start
  | scalar (x : Scalar) (rest : Bytes)
  | array (rest : Bytes)
  | object (rest : Bytes)
  deriving DecidableEq, Repr

/-- Reads a literal of which the first letter has been read. -/
def readLiteralAs (x : Scalar) (tail : Bytes) (s : Bytes) : Except Fault Start :=
  match readLiteral tail s with
  | .ok rest => .ok (.scalar x rest)
  | .error f => .error f

/-- Reads the beginning of a value and the blanks before it. Of a value
with brackets this is only the opening bracket, so nothing has been
decided about its parts. -/
def readStart (s : Bytes) : Except Fault Start :=
  match skipBlank s with
  | [] => .error .truncated
  | b :: rest =>
    if b = 0x5B then .ok (.array rest)
    else if b = 0x7B then .ok (.object rest)
    -- The first letter says which of the three literals it has to be.
    else if b = 0x6E then readLiteralAs .null nullTail rest
    else if b = 0x74 then readLiteralAs (.flag true) trueTail rest
    else if b = 0x66 then readLiteralAs (.flag false) falseTail rest
    else if b = 0x22 then
      match readText rest with
      | .ok (t, rest) => .ok (.scalar (.text t) rest)
      | .error f => .error f
    else
      -- What begins with any other byte is a number or nothing at all.
      match readNumber (b :: rest) with
      | .ok (n, rest) => .ok (.scalar (.number n) rest)
      | .error f => .error f

end NpuAttribution.Json
