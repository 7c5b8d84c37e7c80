import NpuAttribution.Json.Skip
import NpuAttribution.Proofs.Json.Borders
import NpuAttribution.Proofs.Json.Strings

/-!
# `NpuAttribution.Proofs.Json.Skipping`: skipping a value that has been taken apart

Values that nobody asked for are skipped by a machine with a stack of open brackets. Whatever is
on the stack, a value leads the machine from the place where a value must follow to the place
after a value (`skipFrom_tree`). The induction is on the value: an item or a member is a value
in the same machine with one more bracket on the stack. Nothing about the value matters, neither
its depth nor what its numbers and strings stand for, so every value is skipped
(`skipValue_bytes`).
-/

set_option autoImplicit false

namespace NpuAttribution.Json

/-- How the machine goes on after a value with the given brackets open
around it. Without any it is done. -/
def resume (stack : List Bracket) (rest : Bytes) : Except Fault Bytes :=
  if stack.isEmpty then .ok rest else skipFrom .after stack rest

/-- With no bracket open, the value was what had to be skipped. -/
@[simp] theorem resume_nil (rest : Bytes) : resume [] rest = .ok rest := rfl

/-- With a bracket open, the machine goes on behind the value. -/
@[simp] theorem resume_cons (bracket : Bracket) (below : List Bracket) (rest : Bytes) :
    resume (bracket :: below) rest = skipFrom .after (bracket :: below) rest := rfl

variable {place place' : SkipPlace} {stack stack' : List Bracket} {b : UInt8} {s rest : Bytes}

/-! ### Single steps -/

/-- A byte after which the machine goes on. Its place and the open
brackets are then those of the step. -/
theorem skipFrom_more (h : skipStep place stack b = .ok (.more place' stack')) (s : Bytes) :
    skipFrom place stack (b :: s) = skipFrom place' stack' s := by
  rw [skipFrom, h]

/-- A value ends with its last byte, and what is open around it
decides how to go on. -/
theorem skipFrom_endValue (h : skipStep place stack b = .ok (endValue stack')) (s : Bytes) :
    skipFrom place stack (b :: s) = resume stack' s := by
  rw [skipFrom, h]
  cases stack' <;> rfl

/-- Blanks leave the machine where it is, if each of them does. The
places between tokens are of this kind. -/
theorem skipFrom_gap (h : ∀ b, isBlank b = true → skipStep place stack b = .ok (.more place stack))
    (gap : Blanks) (s : Bytes) :
    skipFrom place stack (gap.bytes ++ s) = skipFrom place stack s := by
  obtain ⟨bytes, hblank⟩ := gap
  show skipFrom place stack (bytes ++ s) = _
  induction bytes with
  | nil => rfl
  | cons b bytes ih =>
    rw [List.cons_append, skipFrom_more (h b (hblank b List.mem_cons_self))]
    exact ih fun c hc => hblank c (List.mem_cons_of_mem b hc)

/-! ### Scalars -/

/-- A literal is skipped once its first letter has been. The remaining
letters are kept in the place of the machine. -/
theorem skipFrom_literal (e : UInt8) (es : Bytes) (stack : List Bracket) (rest : Bytes) :
    skipFrom (.literal (e :: es)) stack (e :: es ++ rest) = resume stack rest := by
  induction es generalizing e with
  | nil => exact skipFrom_endValue (by simp [skipStep]) rest
  | cons e' es ih =>
    have hstep : skipStep (.literal (e :: e' :: es)) stack e
        = .ok (.more (.literal (e' :: es)) stack) := by simp [skipStep]
    rw [List.cons_append, skipFrom_more hstep]
    exact ih e'

/-- Plain bytes of a string leave the machine inside the string, and it
does not matter if the string is a key. -/
theorem skipFrom_plain {isKey : Bool} {bs : Bytes} (h : ∀ b ∈ bs, isPlainByte b) (s : Bytes) :
    skipFrom (.text isKey) stack (bs ++ s) = skipFrom (.text isKey) stack s := by
  induction bs with
  | nil => rfl
  | cons b bs ih =>
    obtain ⟨hquote, hbackslash, hcontrol⟩ := h b List.mem_cons_self
    have hstep : skipStep (.text isKey) stack b = .ok (.more (.text isKey) stack) := by
      simp [skipStep, hquote, hbackslash, hcontrol]
    rw [List.cons_append, skipFrom_more hstep]
    exact ih fun c hc => h c (List.mem_cons_of_mem b hc)

/-- Every part of a string leaves the machine inside the string. A surrogate
may be alone here, because only the digits of a code unit are looked at. -/
theorem skipFrom_part (isKey : Bool) (p : TextPart) (s : Bytes) :
    skipFrom (.text isKey) stack (p.bytes ++ s) = skipFrom (.text isKey) stack s := by
  have hescape : skipStep (.text isKey) stack 0x5C = .ok (.more (.escape isKey) stack) := rfl
  cases p with
  | plain c => exact skipFrom_plain (fun b hb => isPlainByte_of_mem hb) s
  | escape e =>
    obtain ⟨b, hletter, -, -⟩ := escapedByte?_letter e
    have hstep : skipStep (.escape isKey) stack e.letter = .ok (.more (.text isKey) stack) := by
      simp [skipStep, hletter]
    show skipFrom (.text isKey) stack (0x5C :: e.letter :: s) = _
    rw [skipFrom_more hescape, skipFrom_more hstep]
  | unit u =>
    have hstart : skipStep (.escape isKey) stack 0x75 = .ok (.more (.hex isKey []) stack) := rfl
    show skipFrom (.text isKey) stack (0x5C :: 0x75 :: (u.bytes ++ s)) = _
    rw [skipFrom_more hescape, skipFrom_more hstart]
    simp [CodeUnit.bytes, skipFrom, skipStep, hexValue4?_digits]

/-- A string is skipped up to its closing quotation mark. After a key
comes a colon, and after any other string whatever may follow a value. -/
theorem skipFrom_text (isKey : Bool) (parts : List TextPart) (rest : Bytes) :
    skipFrom (.text isKey) stack (parts.flatMap TextPart.bytes ++ 0x22 :: rest) =
      if isKey then skipFrom .colon stack rest else resume stack rest := by
  induction parts with
  | nil =>
    cases isKey with
    | true => exact skipFrom_more rfl rest
    | false => exact skipFrom_endValue rfl rest
  | cons p parts ih => rw [List.flatMap_cons, List.append_assoc, skipFrom_part, ih]

/-- A number is skipped up to what follows it. This is
`readLexemeFrom_along` for the machine, except that the byte after the
number has to be looked at a second time. -/
theorem skipFrom_along {p p' : NumberPlace} (hrest : Apart rest) (h : p.along s = some p')
    (hend : p'.isEnd = true) :
    skipFrom (.number p) stack (s ++ rest) = resume stack rest := by
  induction s generalizing p with
  | nil =>
    cases h
    rw [List.nil_append]
    cases rest with
    | nil => cases stack <;> simp [skipFrom, skipEnd, hend, resume]
    | cons b rest =>
      have hstep : skipStep (.number p') stack b = skipAfterByte stack b := by
        simp [skipStep, numberStep_of_isEnd hend (hrest b rfl)]
      -- The byte means the same after the number as after any other value.
      rw [skipFrom, hstep]
      cases stack <;> rfl
  | cons b s ih =>
    rw [NumberPlace.along] at h
    split at h
    · rename_i next hnext
      have hstep : skipStep (.number p) stack b = .ok (.more (.number next) stack) := by
        simp [skipStep, hnext]
      rw [List.cons_append, skipFrom_more hstep]
      exact ih h
    · cases h

/-- A number is skipped from its first byte on, be it in the range
of numbers or not. -/
theorem skipFrom_numeral (n : Numeral) (hrest : Apart rest) :
    skipFrom .value stack (n.bytes ++ rest) = resume stack rest := by
  obtain ⟨place, hplace, hend⟩ := along_bytes n
  obtain ⟨b, s, next, hbytes, hfirst⟩ := n.exists_first
  obtain ⟨hblank, hne⟩ := ne_of_numberStep_start hfirst
  simp only [List.mem_cons, List.not_mem_nil, or_false, not_or] at hne
  have hstep : skipStep .value stack b = .ok (.more (.number next) stack) := by
    simp [skipStep, skipValueByte, hblank, hne, hfirst]
  rw [hbytes, along_cons hfirst] at hplace
  rw [hbytes, List.cons_append, skipFrom_more hstep]
  exact skipFrom_along hrest hplace hend

/-! ### Arrays and objects -/

/-- Blanks between tokens leave the machine where it is, if a bracket is
open. With none open the machine would have stopped before them. -/
theorem skipFrom_between (hplace : place ∈ [.value, .opened, .key, .colon, .after])
    (bracket : Bracket) (below : List Bracket) (gap : Blanks) (s : Bytes) :
    skipFrom place (bracket :: below) (gap.bytes ++ s) = skipFrom place (bracket :: below) s := by
  refine skipFrom_gap (fun b hb => ?_) gap s
  simp only [List.mem_cons, List.not_mem_nil, or_false] at hplace
  rcases hplace with rfl | rfl | rfl | rfl | rfl <;>
    simp [skipStep, skipValueByte, skipOpenedByte, skipKeyByte, skipAfterByte, hb]

/-- The first item may follow the opening bracket like any value,
because it does not begin with the closing one. -/
theorem skipFrom_opened (t : Tree) (below : List Bracket) (s : Bytes) :
    skipFrom .opened (.array :: below) (t.bytes ++ s) =
      skipFrom .value (.array :: below) (t.bytes ++ s) := by
  obtain ⟨b, bs, hbytes, hblank, hclosing, -⟩ := t.exists_first
  have hstep : skipStep .opened (.array :: below) b = skipStep .value (.array :: below) b := by
    show skipOpenedByte (.array :: below) b = skipValueByte (.array :: below) b
    simp [skipOpenedByte, hblank, Bracket.closing, hclosing]
  rw [hbytes, List.cons_append, skipFrom, skipFrom, hstep]

/-- The place where the next item or member, or the closing bracket,
must follow. -/
def SkipPlace.next (first : Bool) : SkipPlace := if first then .opened else .after

/-- Before an item there is a comma unless it is the first one. Then the
item follows like any value. -/
theorem skipFrom_nextItem (first : Bool) (before : Blanks) (t : Tree) (below : List Bracket)
    (s : Bytes) :
    skipFrom (.next first) (.array :: below) (comma first ++ (before.bytes ++ (t.bytes ++ s))) =
      skipFrom .value (.array :: below) (t.bytes ++ s) := by
  cases first with
  | true =>
    show skipFrom .opened (.array :: below) (before.bytes ++ (t.bytes ++ s)) = _
    rw [skipFrom_between (by simp)]
    exact skipFrom_opened t below s
  | false =>
    have hcomma : skipStep .after (.array :: below) 0x2C = .ok (.more .value (.array :: below)) :=
      rfl
    show skipFrom .after (.array :: below) (0x2C :: (before.bytes ++ (t.bytes ++ s))) = _
    rw [skipFrom_more hcomma, skipFrom_between (by simp)]

/-- Before a key there is a comma unless it is the first one. The
quotation mark of the key is taken in as well. -/
theorem skipFrom_nextKey (first : Bool) (before : Blanks) (below : List Bracket) (s : Bytes) :
    skipFrom (.next first) (.object :: below) (comma first ++ (before.bytes ++ 0x22 :: s)) =
      skipFrom (.text true) (.object :: below) s := by
  cases first with
  | true =>
    show skipFrom .opened (.object :: below) (before.bytes ++ 0x22 :: s) = _
    rw [skipFrom_between (by simp)]
    exact skipFrom_more rfl s
  | false =>
    have hcomma : skipStep .after (.object :: below) 0x2C = .ok (.more .key (.object :: below)) :=
      rfl
    show skipFrom .after (.object :: below) (0x2C :: (before.bytes ++ 0x22 :: s)) = _
    rw [skipFrom_more hcomma, skipFrom_between (by simp)]
    exact skipFrom_more rfl s

/-- The closing bracket ends the array or the object, and the brackets
around it remain. -/
theorem skipFrom_closing (first : Bool) (bracket : Bracket) (gap : Blanks) (below : List Bracket)
    (rest : Bytes) :
    skipFrom (.next first) (bracket :: below) (gap.bytes ++ bracket.closing :: rest) =
      resume below rest := by
  have hstep :
      skipStep (.next first) (bracket :: below) bracket.closing = .ok (endValue below) := by
    cases first <;> cases bracket <;> rfl
  rw [skipFrom_between (by cases first <;> simp [SkipPlace.next]), skipFrom_endValue hstep]

/-- The colon after a key and the blanks around it lead to where a
value must follow. -/
theorem skipFrom_colon (beforeColon afterColon : Blanks) (bracket : Bracket)
    (below : List Bracket) (s : Bytes) :
    skipFrom .colon (bracket :: below) (beforeColon.bytes ++ 0x3A :: (afterColon.bytes ++ s)) =
      skipFrom .value (bracket :: below) s := by
  have hcolon : skipStep .colon (bracket :: below) 0x3A = .ok (.more .value (bracket :: below)) :=
    rfl
  rw [skipFrom_between (by simp), skipFrom_more hcolon,
    skipFrom_between (by simp)]

mutual

/-- A value is skipped, whatever brackets are open around it. This and
the next two theorems are one recursion on the value, and the stack
grows by a bracket on the way inside. -/
theorem skipFrom_tree : (t : Tree) → (stack : List Bracket) → {rest : Bytes} → Apart rest →
    skipFrom .value stack (t.bytes ++ rest) = resume stack rest
  | .null, stack, rest, _ => by
    show skipFrom .value stack (0x6E :: (nullTail ++ rest)) = _
    rw [skipFrom_more rfl]
    exact skipFrom_literal _ _ stack rest
  | .flag true, stack, rest, _ => by
    show skipFrom .value stack (0x74 :: (trueTail ++ rest)) = _
    rw [skipFrom_more rfl]
    exact skipFrom_literal _ _ stack rest
  | .flag false, stack, rest, _ => by
    show skipFrom .value stack (0x66 :: (falseTail ++ rest)) = _
    rw [skipFrom_more rfl]
    exact skipFrom_literal _ _ stack rest
  | .number n, _, _, hrest => skipFrom_numeral n hrest
  | .text parts, stack, rest, _ => by
    -- A quote inside of a text is escaped, so the text ends with its own.
    have htext : skipFrom (.text false) stack (parts.flatMap TextPart.bytes ++ 0x22 :: rest) =
        resume stack rest := skipFrom_text false parts rest
    rw [Tree.bytes, quoted, List.cons_append, List.append_assoc, skipFrom_more rfl]
    exact htext
  | .array items, stack, rest, _ => by
    -- The bracket goes onto the stack, and comes off it where the array is closed.
    have hitems := skipFrom_items items true stack rest
    rw [Tree.bytes, List.cons_append, skipFrom_more rfl]
    exact hitems
  | .object members, stack, rest, _ => by
    have hmembers := skipFrom_members members true stack rest
    rw [Tree.bytes, List.cons_append, skipFrom_more rfl]
    exact hmembers

/-- The items of an array are skipped, and its closing bracket. After
each of them something follows that is no part of a number. -/
theorem skipFrom_items : (items : Items) → (first : Bool) → (below : List Bracket) →
    (rest : Bytes) →
    skipFrom (.next first) (.array :: below) (items.bytes first ++ rest) = resume below rest
  | .nil gap, first, below, rest => by
    rw [Items.bytes, List.append_assoc]
    exact skipFrom_closing first .array gap below rest
  | .cons before item after others, first, below, rest => by
    have hitem := skipFrom_tree item (.array :: below) (apart_gap after (others.apart rest))
    rw [Items.bytes]
    simp only [List.append_assoc]
    rw [skipFrom_nextItem, hitem, resume_cons,
      skipFrom_between (by simp)]
    exact skipFrom_items others false below rest

/-- The members of an object are skipped, and its closing bracket. Their
keys are skipped without asking what they stand for. -/
theorem skipFrom_members : (members : Members) → (first : Bool) → (below : List Bracket) →
    (rest : Bytes) →
    skipFrom (.next first) (.object :: below) (members.bytes first ++ rest) = resume below rest
  | .nil gap, first, below, rest => by
    rw [Members.bytes, List.append_assoc]
    exact skipFrom_closing first .object gap below rest
  | .cons before key beforeColon afterColon value after others, first, below, rest => by
    have hvalue := skipFrom_tree value (.object :: below) (apart_gap after (others.apart rest))
    rw [Members.bytes, quoted]
    simp only [List.append_assoc, List.cons_append, List.nil_append]
    rw [skipFrom_nextKey, skipFrom_text, if_pos rfl, skipFrom_colon, hvalue, resume_cons,
      skipFrom_between (by simp)]
    exact skipFrom_members others false below rest

end

/-- Every value is skipped, with the blanks before it. There is no
condition on the value, which is why unknown members of an object may
hold anything that is well-formed. -/
theorem skipValue_bytes (gap : Blanks) (t : Tree) (hrest : Apart rest) :
    skipValue (gap.bytes ++ (t.bytes ++ rest)) = .ok rest := by
  have hblank : ∀ b, isBlank b = true → skipStep .value [] b = .ok (.more .value []) := by
    intro b hb
    simp [skipStep, skipValueByte, hb]
  rw [skipValue, skipFrom_gap hblank, skipFrom_tree t [] hrest, resume_nil]

end NpuAttribution.Json
