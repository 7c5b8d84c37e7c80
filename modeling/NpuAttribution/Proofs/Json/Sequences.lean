import NpuAttribution.Json.Scalar
import NpuAttribution.Json.Sequence
import NpuAttribution.Proofs.Json.Borders
import NpuAttribution.Proofs.Json.Strings

/-!
# `NpuAttribution.Proofs.Json.Sequences`: reading arrays and objects that have been taken apart

A reader of values does something with every value that stands in a text: it accepts it with a
result or it refuses it. `Reads` says that this depends on nothing but the value, neither on the
blanks before it nor on what follows it, and what the result is. If this is so of the reader of
items then an array is read item by item (`readItems_bytes`), and if it is so of the reader of
members then an object is read member by member (`readMembers_bytes`), with the results in the
order of the text. The kind of a fault does not matter here, so results are options.
-/

set_option autoImplicit false

namespace NpuAttribution.Json

section

variable {α : Type}

/-- The reader accepts a value if `meaning` has a result for it, and
then it returns this result and what follows the value. -/
def Reads (read : Bytes → Except Fault (α × Bytes)) (meaning : Tree → Option α) : Prop :=
  ∀ (gap : Blanks) (t : Tree) (rest : Bytes), Apart rest →
    (read (gap.bytes ++ (t.bytes ++ rest))).toOption = (meaning t).map (·, rest)

/-- The reader does to the state what `meaning` says for a member of an object. -/
def ReadsMember (member : String → α → Bytes → Except Fault (α × Bytes))
    (meaning : α → String × Tree → Option α) : Prop :=
  ∀ (key : String) (x : α) (beforeColon afterColon : Blanks) (t : Tree) (rest : Bytes),
    Apart rest →
    (member key x (beforeColon.bytes ++ 0x3A :: (afterColon.bytes ++ (t.bytes ++ rest)))).toOption
      = (meaning x (key, t)).map (·, rest)

end

/-! ### The beginning of a value -/

/-- What is read of a value at first. -/
def Tree.start? (rest : Bytes) : Tree → Option Start
  | .null => some (.scalar .null rest)
  | .flag b => some (.scalar (.flag b) rest)
  | .number n => n.number?.map fun x => .scalar (.number x) rest
  | .text parts => (textOf? parts).map fun x => .scalar (.text x) rest
  | .array items => some (.array (items.bytes true ++ rest))
  | .object members => some (.object (members.bytes true ++ rest))

variable {rest : Bytes}

/-- A scalar is read to its end, and of an array or an object the
bracket. Its first byte tells which of them it is. -/
theorem readStart_bytes (gap : Blanks) (t : Tree) (hrest : Apart rest) :
    (readStart (gap.bytes ++ (t.bytes ++ rest))).toOption = t.start? rest := by
  obtain ⟨b, s, hbytes, hblank, -, -⟩ := t.exists_first
  have hstart : skipBlank (gap.bytes ++ (t.bytes ++ rest)) = t.bytes ++ rest := by
    rw [skipBlank_gap, hbytes, List.cons_append, skipBlank_cons hblank]
  rw [readStart, hstart]
  cases t with
  | null => rfl
  | flag b => cases b <;> rfl
  | number n =>
    obtain ⟨b, s, place, hbytes, hstep⟩ := n.exists_first
    obtain ⟨-, hne⟩ := ne_of_numberStep_start hstep
    simp only [List.mem_cons, List.not_mem_nil, or_false, not_or] at hne
    have hnumber := readNumber_bytes n hrest
    rw [hbytes, List.cons_append] at hnumber
    rw [Tree.start?, Tree.bytes, hbytes, List.cons_append]
    -- No other value begins with the first byte of a number, so all tests before
    -- fail.
    simp only [hne, if_false]
    rcases cases_of_toOption hnumber with ⟨x, hx, hread⟩ | ⟨f, hx, hread⟩ <;>
      rw [hx, hread] <;> rfl
  | text parts =>
    have htext := readText_parts parts rest
    rw [Tree.start?, Tree.bytes, quoted, List.cons_append, List.append_assoc]
    simp only [List.cons_append, List.nil_append]
    rcases cases_of_toOption htext with ⟨x, hx, hread⟩ | ⟨f, hx, hread⟩ <;>
      simp only [hx, hread] <;> rfl
  | array items => rfl
  | object members => rfl

/-! ### Arrays -/

/-- Blanks before an item make no difference, since the next token is
looked for. -/
theorem nextItem_gap (first : Bool) (gap : Blanks) (s : Bytes) :
    nextItem first (gap.bytes ++ s) = nextItem first s := by
  rw [nextItem, skipBlank_gap, nextItem]

/-- An item comes next, after a comma unless it is the first one.
Its first byte is not the closing bracket, for which it could be
taken otherwise. -/
theorem nextItem_item (first : Bool) (before : Blanks) (t : Tree) (s : Bytes) :
    nextItem first (comma first ++ (before.bytes ++ (t.bytes ++ s))) =
      .ok (.item (t.bytes ++ s)) := by
  obtain ⟨b, bs, hbytes, hblank, hclosing, -⟩ := t.exists_first
  have hnext : skipBlank (before.bytes ++ (t.bytes ++ s)) = b :: (bs ++ s) := by
    rw [skipBlank_gap, hbytes, List.cons_append, skipBlank_cons hblank]
  cases first with
  | true =>
    show nextItem true (before.bytes ++ (t.bytes ++ s)) = _
    rw [nextItem, hnext, hbytes]
    simp [hclosing]
  | false =>
    have hcomma : skipBlank (comma false ++ (before.bytes ++ (t.bytes ++ s)))
        = 0x2C :: (before.bytes ++ (t.bytes ++ s)) := skipBlank_cons rfl _
    rw [nextItem, hcomma]
    simp [hbytes, hclosing, skipBlank_cons hblank]

/-- The closing bracket comes next, be there items before it or not. -/
theorem nextItem_closing (first : Bool) (gap : Blanks) (rest : Bytes) :
    nextItem first (gap.bytes ++ 0x5D :: rest) = .ok (.closed rest) := by
  rw [nextItem_gap, nextItem, skipBlank_cons rfl]
  rfl

section

variable {α : Type} {item : Bytes → Except Fault (α × Bytes)} {meaning : Tree → Option α}

/-- The items of an array are read in order, if there are rounds enough
for them. The recursion is on the items, and the comma before an item
belongs to its round. -/
theorem readItemsFor_bytes (hitem : Reads item meaning) : (items : Items) → (rounds : Nat) →
    items.toList.length < rounds → (first : Bool) → (gap : Blanks) → (rest : Bytes) →
    (readItemsFor item rounds first (gap.bytes ++ (items.bytes first ++ rest))).toOption =
      (items.toList.mapM meaning).map (·, rest)
  | .nil gap', rounds + 1, _, first, gap, rest => by
    have hclosing := nextItem_closing first gap' rest
    rw [Items.bytes, List.append_assoc, List.cons_append, List.nil_append, readItemsFor,
      nextItem_gap, hclosing]
    rfl
  | .cons before t after others, rounds + 1, hrounds, first, gap, rest => by
    have hlength : others.toList.length < rounds := Nat.lt_of_succ_lt_succ hrounds
    have hothers := readItemsFor_bytes hitem others rounds hlength false after rest
    have ht := hitem .none t _ (apart_gap after (others.apart rest))
    rw [Items.bytes, Items.toList, List.mapM_cons]
    simp only [List.append_assoc]
    rw [readItemsFor, nextItem_gap, nextItem_item]
    show (item (t.bytes ++ (after.bytes ++ (others.bytes false ++ rest))) >>= _).toOption = _
    change (item (t.bytes ++ (after.bytes ++ (others.bytes false ++ rest)))).toOption = _ at ht
    -- If the item is refused then so is the array, and the others do not matter.
    rw [toOption_bind, ht]
    cases meaning t with
    | none => rfl
    | some a =>
      show (readItemsFor item rounds false (after.bytes ++ (others.bytes false ++ rest))
        >>= _).toOption = _
      rw [toOption_bind, hothers]
      cases others.toList.mapM meaning <;> rfl

/-- An item has a byte at least. So the length of the text bounds the
number of items, and the rounds that the reader allows itself are enough. -/
theorem Items.length_toList_le : (items : Items) → (first : Bool) →
    items.toList.length ≤ (items.bytes first).length
  | .nil _, _ => Nat.zero_le _
  | .cons before t after others, first => by
    obtain ⟨b, bs, hbytes, -⟩ := t.exists_first
    have hothers := others.length_toList_le false
    simp only [Items.toList, Items.bytes, hbytes, List.length_append, List.length_cons]
    omega

/-- An array is read item by item, and the bound on the rounds never matters. -/
theorem readItems_bytes (hitem : Reads item meaning) (items : Items) (rest : Bytes) :
    (readItems item (items.bytes true ++ rest)).toOption =
      (items.toList.mapM meaning).map (·, rest) := by
  have hlength := items.length_toList_le true
  refine readItemsFor_bytes hitem items _ ?_ true .none rest
  rw [List.length_append]
  omega

end

/-! ### Objects -/

/-- Blanks before a member make no difference, since the next token is
looked for. -/
theorem nextMember_gap (first : Bool) (gap : Blanks) (s : Bytes) :
    nextMember first (gap.bytes ++ s) = nextMember first s := by
  rw [nextMember, skipBlank_gap, nextMember]

/-- A key comes next, after a comma unless it is the first one. It
begins with a quotation mark, and nothing else is accepted in its place. -/
theorem nextMember_key (first : Bool) (before : Blanks) (s : Bytes) :
    nextMember first (comma first ++ (before.bytes ++ 0x22 :: s)) = .ok (.key s) := by
  have hnext : skipBlank (before.bytes ++ 0x22 :: s) = 0x22 :: s := by
    rw [skipBlank_gap, skipBlank_cons rfl]
  cases first with
  | true =>
    show nextMember true (before.bytes ++ 0x22 :: s) = _
    rw [nextMember, hnext]
    rfl
  | false =>
    have hcomma : skipBlank (comma false ++ (before.bytes ++ 0x22 :: s))
        = 0x2C :: (before.bytes ++ 0x22 :: s) := skipBlank_cons rfl _
    rw [nextMember, hcomma]
    simp [hnext, nextKey]

/-- The closing bracket comes next, be there members before it or not. -/
theorem nextMember_closing (first : Bool) (gap : Blanks) (rest : Bytes) :
    nextMember first (gap.bytes ++ 0x7D :: rest) = .ok (.closed rest) := by
  rw [nextMember_gap, nextMember, skipBlank_cons rfl]
  rfl

/-- The colon after a key is read, with the blanks before it. -/
theorem readColon_gap (gap : Blanks) (s : Bytes) : readColon (gap.bytes ++ 0x3A :: s) = .ok s := by
  rw [readColon, skipBlank_gap, skipBlank_cons rfl]
  rfl

section

variable {α : Type} {member : String → α → Bytes → Except Fault (α × Bytes)}
  {meaning : α → String × Tree → Option α}

/-- The first member has a name and the others have. If one of the keys
stands for no text then no member is named. -/
theorem named?_cons (before : Blanks) (key : List TextPart) (beforeColon afterColon : Blanks)
    (t : Tree) (after : Blanks) (others : Members) :
    (Members.cons before key beforeColon afterColon t after others).named? =
      (textOf? key).bind fun k => others.named?.map ((k, t) :: ·) := by
  rw [Members.named?, Members.toList, List.mapM_cons]
  cases textOf? key with
  | none => rfl
  | some k =>
    show others.named?.bind _ = others.named?.map _
    cases others.named? <;> rfl

/-- The members of an object are read in order, if there are rounds
enough for them. An object with a key that stands for no text is
refused. The recursion is on the members, and the state is handed on
from one to the next. -/
theorem readMembersFor_bytes (hmember : ReadsMember member meaning) : (members : Members) →
    (rounds : Nat) → members.toList.length < rounds → (first : Bool) → (x : α) →
    (gap : Blanks) → (rest : Bytes) →
    (readMembersFor member rounds first x (gap.bytes ++ (members.bytes first ++ rest))).toOption =
      (members.named?.bind fun ms => ms.foldlM meaning x).map (·, rest)
  | .nil gap', rounds + 1, _, first, x, gap, rest => by
    have hclosing := nextMember_closing first gap' rest
    rw [Members.bytes, List.append_assoc, List.cons_append, List.nil_append, readMembersFor,
      nextMember_gap, hclosing]
    rfl
  | .cons before key beforeColon afterColon t after others, rounds + 1, hrounds, first, x, gap,
      rest => by
    have hlength : others.toList.length < rounds := Nat.lt_of_succ_lt_succ hrounds
    have hothers (x : α) := readMembersFor_bytes hmember others rounds hlength false x after rest
    have hkey := readText_parts key (beforeColon.bytes ++ 0x3A :: (afterColon.bytes ++
      (t.bytes ++ (after.bytes ++ (others.bytes false ++ rest)))))
    rw [named?_cons, Members.bytes, quoted]
    simp only [List.append_assoc, List.cons_append, List.nil_append]
    rw [readMembersFor, nextMember_gap, nextMember_key]
    show (readText (key.flatMap TextPart.bytes ++ 0x22 :: _) >>= _).toOption = _
    rw [toOption_bind, hkey]
    cases textOf? key with
    | none => rfl
    | some k =>
      have ht := hmember k x beforeColon afterColon t _ (apart_gap after (others.apart rest))
      show (member k x _ >>= _).toOption = _
      rw [toOption_bind, ht]
      -- Names are read one after the other here, and all before the first value there.
      cases hx : meaning x (k, t) with
      | none => cases others.named? <;> simp [hx]
      | some y =>
        show (readMembersFor member rounds false y _).toOption = _
        rw [hothers]
        cases others.named? <;> simp [hx]

/-- A member has a byte at least, namely its colon. -/
theorem Members.length_toList_le : (members : Members) → (first : Bool) →
    members.toList.length ≤ (members.bytes first).length
  | .nil _, _ => Nat.zero_le _
  | .cons before key beforeColon afterColon t after others, first => by
    have hothers := others.length_toList_le false
    simp only [Members.toList, Members.bytes, quoted, List.length_append, List.length_cons]
    omega

/-- An object is read member by member, if all its keys stand for texts.
The bound on the rounds never matters. -/
theorem readMembers_bytes (hmember : ReadsMember member meaning) (members : Members) (x : α)
    (rest : Bytes) :
    (readMembers member x (members.bytes true ++ rest)).toOption =
      (members.named?.bind fun ms => ms.foldlM meaning x).map (·, rest) := by
  have hlength := members.length_toList_le true
  refine readMembersFor_bytes hmember members _ ?_ true x .none rest
  rw [List.length_append]
  omega

end

end NpuAttribution.Json
