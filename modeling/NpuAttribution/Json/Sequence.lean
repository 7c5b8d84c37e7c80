import NpuAttribution.Json.Text

/-!
# `NpuAttribution.Json.Sequence`: the items of an array, the members of an object

Between the brackets stand items or members with commas between them and no comma
after the last one. The readers here know about commas and brackets only. What an item
is, and what is done with a member, they are told.

The loops count down from a number that exceeds the number of bytes left. Each round
consumes a byte at least, so they never run out.
-/

set_option autoImplicit false

namespace NpuAttribution.Json

/-- What comes next in an array. -/
inductive NextItem
  /-- An item, which starts with the given bytes. -/
  | item (s : Bytes)
  /-- The closing bracket, with what follows it. -/
  | closed (rest : Bytes)
  deriving DecidableEq, Repr

/-- What comes next in an object. -/
inductive NextMember
  /-- A member, with what follows the opening quotation mark of its key. -/
  | key (s : Bytes)
  /-- The closing bracket, with what follows it. -/
  | closed (rest : Bytes)
  deriving DecidableEq, Repr

/-- Looks for the next item. Before the `first` one there is no comma, and
there must be one before every other. A comma must be followed by an item. -/
def nextItem (first : Bool) (s : Bytes) : Except Fault NextItem :=
  match skipBlank s with
  | [] => .error .truncated
  | b :: s =>
    if b = 0x5D then .ok (.closed s)
    else if first then .ok (.item (b :: s))
    else if b = 0x2C then
      match skipBlank s with
      | [] => .error .truncated
      -- A comma in front of the closing bracket is refused here, because the item
      -- reader would only see the bracket.
      | c :: s => if c = 0x5D then .error .malformed else .ok (.item (c :: s))
    else .error .malformed

/-- A key has to start here. -/
def nextKey (b : UInt8) (s : Bytes) : Except Fault NextMember :=
  if b = 0x22 then .ok (.key s) else .error .malformed

/-- Looks for the next member. Before the `first` one there is no comma.
After a comma a key has to start, which also rules out a comma in front
of the closing bracket. -/
def nextMember (first : Bool) (s : Bytes) : Except Fault NextMember :=
  match skipBlank s with
  | [] => .error .truncated
  | b :: s =>
    if b = 0x7D then .ok (.closed s)
    else if first then nextKey b s
    else if b = 0x2C then
      match skipBlank s with
      | [] => .error .truncated
      | c :: s => nextKey c s
    else .error .malformed

/-- Reads the colon after a key. -/
def readColon (s : Bytes) : Except Fault Bytes :=
  match skipBlank s with
  | [] => .error .truncated
  | b :: s => if b = 0x3A then .ok s else .error .malformed

/-- Reads items up to the closing bracket, in the given number of rounds
at most. The round that finds the bracket returns no item, so one round
more than there are items is needed. -/
def readItemsFor {α : Type} (item : Bytes → Except Fault (α × Bytes)) :
    Nat → Bool → Bytes → Except Fault (List α × Bytes)
  -- This is never reached, because each round takes a byte of the text away.
  | 0, _, _ => .error .malformed
  | rounds + 1, first, s => do
    match ← nextItem first s with
    | .closed rest => return ([], rest)
    | .item s =>
      let (a, s) ← item s
      let (as, rest) ← readItemsFor item rounds false s
      return (a :: as, rest)

/-- Reads the items of an array whose opening bracket has been read. -/
def readItems {α : Type} (item : Bytes → Except Fault (α × Bytes)) (s : Bytes) :
    Except Fault (List α × Bytes) :=
  readItemsFor item (s.length + 1) true s

/-- Reads members up to the closing bracket, in the given number of
rounds at most. The state `x` is carried from one member to the next,
and `member` is given the text after the key, at the colon. -/
def readMembersFor {σ : Type} (member : String → σ → Bytes → Except Fault (σ × Bytes)) :
    Nat → Bool → σ → Bytes → Except Fault (σ × Bytes)
  | 0, _, _, _ => .error .malformed
  | rounds + 1, first, x, s => do
    match ← nextMember first s with
    | .closed rest => return (x, rest)
    | .key s =>
      -- Keys are texts like any others and may contain escapes.
      let (key, s) ← readText s
      let (x, s) ← member key x s
      readMembersFor member rounds false x s

/-- Reads the members of an object whose opening bracket has been read. -/
def readMembers {σ : Type} (member : String → σ → Bytes → Except Fault (σ × Bytes))
    (x : σ) (s : Bytes) : Except Fault (σ × Bytes) :=
  readMembersFor member (s.length + 1) true x s

end NpuAttribution.Json
