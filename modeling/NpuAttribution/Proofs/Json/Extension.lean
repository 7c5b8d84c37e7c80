import Mathlib.Data.List.DropRight
import NpuAttribution.Json.Value

/-!
# `NpuAttribution.Proofs.Json.Extension`: texts that go on

A reader goes through a text from the front and returns what is left of it. If the text goes
on, then the reader does the same, and only more is left (`readValue_append`). Numbers are the
exception: nothing but the next byte tells that a number has ended, so a number at the very
end of a text may become another one. Inside of brackets this cannot happen.

The other thing that does not matter to a reader is how many levels of brackets it would have
accepted besides those that it has met. `Value.Within` says how many these are, and
`readValue_append` is about two readers with different numbers of levels.
-/

set_option autoImplicit false

namespace NpuAttribution.Json

/-- A computation that succeeds has succeeded with its first part, and
then with the rest. The readers are taken apart by this, step by step. -/
theorem exists_of_bind_eq_ok {ε α β : Type} {x : Except ε α} {f : α → Except ε β} {b : β}
    (h : (x >>= f) = .ok b) : ∃ a, x = .ok a ∧ f a = .ok b := by
  cases x with
  | error e => cases h
  | ok a => exact ⟨a, rfl, h⟩

/-- At most so many levels of brackets are open at once in a value. -/
def Value.Within : Nat → Value → Prop
  | _, .scalar _ => True
  | 0, _ => False
  | levels + 1, .array items => ∀ v ∈ items, v.Within levels
  | levels + 1, .object members => ∀ m ∈ members, m.2.Within levels

section

variable {s rest more : Bytes}

/-! ### Tokens -/

/-- The next token of a text is still the next one if the text goes on. -/
theorem skipBlank_append {b : UInt8} (h : skipBlank s = b :: rest) (more : Bytes) :
    skipBlank (s ++ more) = b :: (rest ++ more) := by
  unfold skipBlank at h ⊢
  rw [List.dropWhile_append, h]
  rfl

/-- Blanks in front make no difference to what comes after them. -/
@[simp] theorem skipBlank_skipBlank (s : Bytes) : skipBlank (skipBlank s) = skipBlank s :=
  List.dropWhile_idempotent _ _

/-- A literal such as `true` is read the same if the text goes on. -/
theorem readLiteral_append {es : Bytes} (h : readLiteral es s = .ok rest) (more : Bytes) :
    readLiteral es (s ++ more) = .ok (rest ++ more) := by
  induction es generalizing s with
  | nil =>
    cases h
    rfl
  | cons e es ih =>
    cases s with
    | nil => cases h
    | cons b s =>
      simp only [readLiteral, List.cons_append] at h ⊢
      split at h
      · rename_i hb
        rw [if_pos hb]
        exact ih h
      · cases h

/-- The bytes of a string are read the same if the text goes on, from
any place inside of the string. The closing quotation mark is in the
text, or there would be no result. -/
theorem readTextFrom_append {place : TextPlace} {acc text : Bytes}
    (h : readTextFrom place acc s = .ok (text, rest)) (more : Bytes) :
    readTextFrom place acc (s ++ more) = .ok (text, rest ++ more) := by
  induction s generalizing place acc with
  | nil => cases h
  | cons b s ih =>
    simp only [readTextFrom, List.cons_append] at h ⊢
    split at h
    · cases h
    · cases h
      rfl
    · exact ih h

/-- A string ends at its closing quotation mark, so what follows is of
no importance to it. -/
theorem readText_append {text : String} (h : readText s = .ok (text, rest)) (more : Bytes) :
    readText (s ++ more) = .ok (text, rest ++ more) := by
  unfold readText at h ⊢
  split at h
  · cases h
  · rename_i hfrom
    rw [readTextFrom_append hfrom more]
    simp only
    split at h
    · cases h
      rfl
    · cases h

/-- The bytes of a number are read the same if the text goes on and
something is left already. If nothing were left, the number might go
on with the text. -/
theorem readLexemeFrom_append {place : NumberPlace} {acc lexeme : Bytes}
    (h : readLexemeFrom place acc s = .ok (lexeme, rest)) (hrest : rest ≠ []) (more : Bytes) :
    readLexemeFrom place acc (s ++ more) = .ok (lexeme, rest ++ more) := by
  induction s generalizing place acc with
  | nil =>
    unfold readLexemeFrom at h
    split at h
    · cases h
      exact absurd rfl hrest
    · cases h
  | cons b s ih =>
    simp only [readLexemeFrom, List.cons_append] at h ⊢
    split at h
    · exact ih h
    · cases h
      rfl
    · cases h

/-- A number ends before the next byte, if there is one. The next byte
is the same in the text that goes on. -/
theorem readNumber_append {n : Number} (h : readNumber s = .ok (n, rest)) (hrest : rest ≠ [])
    (more : Bytes) : readNumber (s ++ more) = .ok (n, rest ++ more) := by
  unfold readNumber at h ⊢
  split at h
  · cases h
  · rename_i hlexeme
    split at h
    · rename_i hparts
      cases h
      rw [readLexemeFrom_append hlexeme hrest more]
      simp only [hparts]
    · cases h

/-- The same beginning of a value in a text that goes on. -/
def Start.append (more : Bytes) : Start → Start
  | .scalar x rest => .scalar x (rest ++ more)
  | .array rest => .array (rest ++ more)
  | .object rest => .object (rest ++ more)

/-- A literal begins and ends a value in the same way if the text goes on. -/
theorem readLiteralAs_append {x : Scalar} {tail : Bytes} {start : Start}
    (h : readLiteralAs x tail s = .ok start) (more : Bytes) :
    readLiteralAs x tail (s ++ more) = .ok (start.append more) := by
  unfold readLiteralAs at h ⊢
  split at h
  · rename_i hliteral
    cases h
    rw [readLiteral_append hliteral more]
    rfl
  · cases h

/-- A value begins in the same way if the text goes on, and if it is not
the end of a scalar that the text breaks off with. Only numbers need the
condition, but it is stated for all scalars, which is how
`readValue_append` has it. -/
theorem readStart_append {start : Start} (h : readStart s = .ok start)
    (hrest : ∀ x, start ≠ .scalar x []) (more : Bytes) :
    readStart (s ++ more) = .ok (start.append more) := by
  unfold readStart at h ⊢
  split at h
  · cases h
  · rename_i b rest hs
    rw [skipBlank_append hs more]
    simp only
    split_ifs at h ⊢
    · cases h
      rfl
    · cases h
      rfl
    · exact readLiteralAs_append h more
    · exact readLiteralAs_append h more
    · exact readLiteralAs_append h more
    · split at h
      · rename_i htext
        cases h
        rw [readText_append htext more]
        rfl
      · cases h
    · split at h
      · rename_i n rest' hnumber
        cases h
        -- A number with nothing after it is just what is ruled out.
        have hne : rest' ≠ [] := by
          rintro rfl
          exact hrest _ rfl
        rw [← List.cons_append, readNumber_append hnumber hne more]
        rfl
      · cases h

/-! ### Sequences -/

/-- The same next item in a text that goes on. -/
def NextItem.append (more : Bytes) : NextItem → NextItem
  | .item s => .item (s ++ more)
  | .closed rest => .closed (rest ++ more)

/-- The same next member in a text that goes on. -/
def NextMember.append (more : Bytes) : NextMember → NextMember
  | .key s => .key (s ++ more)
  | .closed rest => .closed (rest ++ more)

/-- Whether another item follows is seen from the next token or two. -/
theorem nextItem_append {first : Bool} {next : NextItem} (h : nextItem first s = .ok next)
    (more : Bytes) : nextItem first (s ++ more) = .ok (next.append more) := by
  unfold nextItem at h ⊢
  split at h
  · cases h
  · rename_i hs
    rw [skipBlank_append hs more]
    simp only
    split_ifs at h ⊢
    · cases h
      rfl
    · cases h
      rfl
    · split at h
      · cases h
      · rename_i hs'
        rw [skipBlank_append hs' more]
        simp only
        split_ifs at h ⊢
        cases h
        rfl

/-- A key follows if the next byte is a quotation mark, whatever comes
after it. -/
theorem nextKey_append {b : UInt8} {next : NextMember} (h : nextKey b s = .ok next)
    (more : Bytes) : nextKey b (s ++ more) = .ok (next.append more) := by
  unfold nextKey at h ⊢
  split_ifs at h ⊢
  cases h
  rfl

/-- Whether another member follows is seen from the next token or two. -/
theorem nextMember_append {first : Bool} {next : NextMember}
    (h : nextMember first s = .ok next) (more : Bytes) :
    nextMember first (s ++ more) = .ok (next.append more) := by
  unfold nextMember at h ⊢
  split at h
  · cases h
  · rename_i hs
    rw [skipBlank_append hs more]
    simp only
    split_ifs at h ⊢
    · cases h
      rfl
    · exact nextKey_append h more
    · split at h
      · cases h
      · rename_i hs'
        rw [skipBlank_append hs' more]
        exact nextKey_append h more

/-- The colon between a key and its value is one token. -/
theorem readColon_append (h : readColon s = .ok rest) (more : Bytes) :
    readColon (s ++ more) = .ok (rest ++ more) := by
  unfold readColon at h ⊢
  split at h
  · cases h
  · rename_i hs
    rw [skipBlank_append hs more]
    simp only
    split_ifs at h ⊢
    cases h
    rfl

end

section

variable {α : Type} {more : Bytes}

/-- A reader does with a text that goes on what another reader does with
the text, as far as results with the property `P` are concerned after
which something is left. -/
def Extends (more : Bytes) (P : α → Prop) (read read' : Bytes → Except Fault (α × Bytes)) :
    Prop :=
  ∀ s a rest, read s = .ok (a, rest) → P a → rest ≠ [] → read' (s ++ more) = .ok (a, rest ++ more)

/-- There are no items at the end of a text, since even the empty array
has to be closed. -/
theorem ne_nil_of_readItemsFor {item : Bytes → Except Fault (α × Bytes)} {rounds : Nat}
    {first : Bool} {s : Bytes} {r : List α × Bytes}
    (h : readItemsFor item rounds first s = .ok r) : s ≠ [] := by
  rintro rfl
  cases rounds <;> cases h

/-- The items of an array are the same if the text goes on. The
bound on the number of items may be larger then, as it depends on
the length of the text. -/
theorem readItemsFor_append {P : α → Prop} {item item' : Bytes → Except Fault (α × Bytes)}
    (hitem : Extends more P item item') {rounds rounds' : Nat} (hrounds : rounds ≤ rounds')
    {first : Bool} {s rest : Bytes} {items : List α}
    (h : readItemsFor item rounds first s = .ok (items, rest)) (hP : ∀ a ∈ items, P a) :
    readItemsFor item' rounds' first (s ++ more) = .ok (items, rest ++ more) := by
  induction rounds generalizing rounds' first s items with
  | zero => cases h
  | succ rounds ih =>
    obtain ⟨rounds', rfl⟩ := Nat.exists_eq_succ_of_ne_zero (by omega : rounds' ≠ 0)
    have hless : rounds ≤ rounds' := by omega
    unfold readItemsFor at h ⊢
    obtain ⟨next, hnext, h⟩ := exists_of_bind_eq_ok h
    rw [nextItem_append hnext more]
    cases next with
    | closed rest' =>
      cases h
      rfl
    | item s' =>
      obtain ⟨⟨a, s''⟩, ha, h⟩ := exists_of_bind_eq_ok h
      obtain ⟨⟨others, rest'⟩, hothers, h⟩ := exists_of_bind_eq_ok h
      cases h
      -- Something follows the item, so it is not a number that the text ends with.
      have ha' := hitem _ _ _ ha (hP a List.mem_cons_self) (ne_nil_of_readItemsFor hothers)
      have hothers' := ih hless hothers fun b hb => hP b (List.mem_cons_of_mem a hb)
      simp only [NextItem.append, bind, Except.bind, ha', hothers']
      rfl

/-- The items of an array are the same if the text goes on, with the
bounds that the two texts have. -/
theorem readItems_append {P : α → Prop} {item item' : Bytes → Except Fault (α × Bytes)}
    (hitem : Extends more P item item') {s rest : Bytes} {items : List α}
    (h : readItems item s = .ok (items, rest)) (hP : ∀ a ∈ items, P a) :
    readItems item' (s ++ more) = .ok (items, rest ++ more) := by
  have hle : s.length + 1 ≤ (s ++ more).length + 1 := by simp
  exact readItemsFor_append hitem hle h hP

/-- There are no members at the end of a text, since even the empty
object has to be closed. -/
theorem ne_nil_of_readMembersFor {member : String → α → Bytes → Except Fault (α × Bytes)}
    {rounds : Nat} {first : Bool} {x : α} {s : Bytes} {r : α × Bytes}
    (h : readMembersFor member rounds first x s = .ok r) : s ≠ [] := by
  rintro rfl
  cases rounds <;> cases h

/-- The members of an object are the same if the text goes on. What
has been made of some of them has the property `P` if what is made
of all of them has, so `P` may be assumed at the end and is then
known of every step. -/
theorem readMembersFor_append {P : α → Prop}
    {member member' : String → α → Bytes → Except Fault (α × Bytes)}
    (hmember : ∀ key x, Extends more P (member key x) (member' key x))
    (hback : ∀ key x s y rest, member key x s = .ok (y, rest) → P y → P x)
    {rounds rounds' : Nat} (hrounds : rounds ≤ rounds') {first : Bool} {x y : α} {s rest : Bytes}
    (h : readMembersFor member rounds first x s = .ok (y, rest)) (hP : P y) :
    P x ∧ readMembersFor member' rounds' first x (s ++ more) = .ok (y, rest ++ more) := by
  induction rounds generalizing rounds' first x s with
  | zero => cases h
  | succ rounds ih =>
    obtain ⟨rounds', rfl⟩ := Nat.exists_eq_succ_of_ne_zero (by omega : rounds' ≠ 0)
    have hless : rounds ≤ rounds' := by omega
    unfold readMembersFor at h ⊢
    obtain ⟨next, hnext, h⟩ := exists_of_bind_eq_ok h
    rw [nextMember_append hnext more]
    cases next with
    | closed rest' =>
      cases h
      exact ⟨hP, rfl⟩
    | key s' =>
      obtain ⟨⟨key, s''⟩, hkey, h⟩ := exists_of_bind_eq_ok h
      obtain ⟨⟨z, s'''⟩, hz, h⟩ := exists_of_bind_eq_ok h
      -- The property is known at the end, and goes back to this member through the
      -- others.
      obtain ⟨hPz, hothers'⟩ := ih hless h
      have hkey' := readText_append hkey more
      have hz' := hmember key x _ _ _ hz hPz (ne_nil_of_readMembersFor h)
      refine ⟨hback _ _ _ _ _ hz hPz, ?_⟩
      simp only [NextMember.append, bind, Except.bind, hkey', hz', hothers']

/-- The members of an object are the same if the text goes on, with the
bounds that the two texts have. -/
theorem readMembers_append {P : α → Prop}
    {member member' : String → α → Bytes → Except Fault (α × Bytes)}
    (hmember : ∀ key x, Extends more P (member key x) (member' key x))
    (hback : ∀ key x s y rest, member key x s = .ok (y, rest) → P y → P x)
    {x y : α} {s rest : Bytes} (h : readMembers member x s = .ok (y, rest)) (hP : P y) :
    readMembers member' x (s ++ more) = .ok (y, rest ++ more) := by
  have hle : s.length + 1 ≤ (s ++ more).length + 1 := by simp
  exact (readMembersFor_append hmember hback hle h hP).2

end

/-! ### Values -/

/-- Members that are put in front of others leave those as they are. A
member is a colon and a value, since its key has been read before. -/
theorem exists_of_readMemberOf {value : Bytes → Except Fault (Value × Bytes)} {key : String}
    {members members' : List (String × Value)} {s rest : Bytes}
    (h : readMemberOf value key members s = .ok (members', rest)) :
    ∃ s' v, readColon s = .ok s' ∧ value s' = .ok (v, rest) ∧ members' = (key, v) :: members := by
  obtain ⟨s', hcolon, h⟩ := exists_of_bind_eq_ok h
  obtain ⟨⟨v, rest'⟩, hv, h⟩ := exists_of_bind_eq_ok h
  cases h
  exact ⟨s', v, hcolon, hv, rfl⟩

/-- A value that has been read is read in a text that goes on, too, by
any reader that accepts as many levels of brackets as the value has. It
must not be a scalar at the end of the text. The induction is on the
levels of the first reader. -/
theorem readValue_append {levels levels' : Nat} {s rest : Bytes} {v : Value}
    (h : readValue levels s = .ok (v, rest)) (hwithin : v.Within levels')
    (hrest : rest ≠ [] ∨ ∀ x, v ≠ .scalar x) (more : Bytes) :
    readValue levels' (s ++ more) = .ok (v, rest ++ more) := by
  -- The items and members of the value have one level less.
  induction levels generalizing levels' s rest v with
  | zero =>
    unfold readValue at h ⊢
    obtain ⟨start, hstart, h⟩ := exists_of_bind_eq_ok h
    cases start with
    | scalar x rest' =>
      cases h
      have hne : rest ≠ [] := hrest.resolve_right fun hnot => hnot x rfl
      rw [readStart_append hstart (fun y hy => hne (by cases hy; rfl)) more]
      rfl
    | array | object => cases h
  | succ levels ih =>
    unfold readValue at h ⊢
    obtain ⟨start, hstart, h⟩ := exists_of_bind_eq_ok h
    cases start with
    | scalar x rest' =>
      cases h
      have hne : rest ≠ [] := hrest.resolve_right fun hnot => hnot x rfl
      rw [readStart_append hstart (fun y hy => hne (by cases hy; rfl)) more]
      rfl
    | array s' =>
      obtain ⟨⟨items, rest'⟩, hitems, h⟩ := exists_of_bind_eq_ok h
      cases h
      cases levels' with
      | zero => exact hwithin.elim
      | succ levels' =>
        have hitem : Extends more (Value.Within levels') (readValue levels) (readValue levels') :=
          fun _ _ _ hv hwithin hne => ih hv hwithin (.inl hne)
        rw [readStart_append hstart (by simp) more]
        simp only [Start.append, bind, Except.bind, readItems_append hitem hitems hwithin]
        rfl
    | object s' =>
      obtain ⟨⟨members, rest'⟩, hmembers, h⟩ := exists_of_bind_eq_ok h
      cases h
      cases levels' with
      | zero => exact hwithin.elim
      | succ levels' =>
        have hmember (key : String) (members : List (String × Value)) :
            Extends more (fun members => ∀ m ∈ members, m.2.Within levels')
              (readMemberOf (readValue levels) key members)
              (readMemberOf (readValue levels') key members) := by
          intro s members' rest h hwithin hne
          obtain ⟨s', v, hcolon, hv, rfl⟩ := exists_of_readMemberOf h
          have hv' := ih hv (hwithin (key, v) List.mem_cons_self) (.inl hne)
          simp only [readMemberOf, bind, Except.bind, readColon_append hcolon more, hv']
          rfl
        -- What has been read of the members is still there in what is read after
        -- them.
        have hback (key : String) (members : List (String × Value)) (s : Bytes)
            (members' : List (String × Value)) (rest : Bytes)
            (h : readMemberOf (readValue levels) key members s = .ok (members', rest))
            (hwithin : ∀ m ∈ members', m.2.Within levels') : ∀ m ∈ members, m.2.Within levels' := by
          obtain ⟨s', v, -, -, rfl⟩ := exists_of_readMemberOf h
          exact fun m hm => hwithin m (List.mem_cons_of_mem _ hm)
        have hall : ∀ m ∈ members, m.2.Within levels' := fun m hm =>
          hwithin m (List.mem_reverse.mpr hm)
        rw [readStart_append hstart (by simp) more]
        simp only [Start.append, bind, Except.bind, readMembers_append hmember hback hmembers hall]
        rfl

/-- What begins with the bracket of an object begins with its byte,
possibly after blanks. -/
theorem skipBlank_of_readStart {s rest : Bytes} (h : readStart s = .ok (.object rest)) :
    skipBlank s = 0x7B :: rest := by
  have hliteral {x : Scalar} {tail s' : Bytes} : readLiteralAs x tail s' ≠ .ok (.object rest) := by
    unfold readLiteralAs
    split <;> simp
  unfold readStart at h
  split at h
  · cases h
  · rename_i b s' hs
    split_ifs at h with harray hobject
    · cases h
    · cases h
      rw [hs, hobject]
    · exact absurd h hliteral
    · exact absurd h hliteral
    · exact absurd h hliteral
    · split at h <;> cases h
    · split at h <;> cases h

/-- An object begins with its opening bracket, possibly after blanks. So
the beginning of a text tells whether it is an object or an array of them. -/
theorem skipBlank_of_object {levels : Nat} {s rest : Bytes} {members : List (String × Value)}
    (h : readValue levels s = .ok (.object members, rest)) : ∃ s', skipBlank s = 0x7B :: s' := by
  unfold readValue at h
  obtain ⟨start, hstart, h⟩ := exists_of_bind_eq_ok h
  cases start with
  | scalar x rest' => cases h
  | array s' =>
    cases levels with
    | zero => cases h
    | succ levels =>
      obtain ⟨_, -, h⟩ := exists_of_bind_eq_ok h
      cases h
  | object s' => exact ⟨s', skipBlank_of_readStart hstart⟩

/-- Blanks in front of a value make no difference, since its first token
is looked for behind them. -/
theorem readValue_skipBlank (levels : Nat) (s : Bytes) :
    readValue levels (skipBlank s) = readValue levels s := by
  have hstart : readStart (skipBlank s) = readStart s := by
    unfold readStart
    rw [skipBlank_skipBlank]
  cases levels <;> simp only [readValue, hstart]

end NpuAttribution.Json
