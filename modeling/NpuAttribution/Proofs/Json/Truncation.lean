import NpuAttribution.Proofs.Json.Extension

/-!
# `NpuAttribution.Proofs.Json.Truncation`: documents that break off

A record is read to its closing bracket and no further, so if the text goes on then the same is
read (`Schema.read_append`, by recursion on schemas and fields). This is true of everything that
stands inside of brackets: something follows there, and so a number cannot go on.

For documents it means that one that has been read can be followed by nothing but blanks
(`decode_append`). So wherever a document breaks off, what is left of it is no document
(`Truncates.exists_error`): if it were one then what is lost would be blank, but a closing bracket
is lost.
-/

set_option autoImplicit false

namespace NpuAttribution.Json

section

variable {s rest more : Bytes}

/-! ### Skipped values -/

/-- If a text ends with a value that is skipped then nothing is left. -/
theorem eq_nil_of_skipEnd {place : SkipPlace} {stack : List Bracket}
    (h : skipEnd place stack = .ok rest) : rest = [] := by
  cases place with
  | number place =>
    simp only [skipEnd] at h
    split_ifs at h
    cases h
    rfl
  | _ => cases h

/-- What is skipped ends where it ended if the text goes on. The machine
stops at a byte that is there already, unless nothing is left. -/
theorem skipFrom_append {place : SkipPlace} {stack : List Bracket}
    (h : skipFrom place stack s = .ok rest) (hrest : rest ≠ []) (more : Bytes) :
    skipFrom place stack (s ++ more) = .ok (rest ++ more) := by
  induction s generalizing place stack with
  | nil => exact absurd (eq_nil_of_skipEnd h) hrest
  | cons b s ih =>
    simp only [skipFrom, List.cons_append] at h ⊢
    split at h
    · cases h
    · cases h
      rfl
    · cases h
      rfl
    · exact ih h

/-- A value that is skipped ends where it ended if the text goes on. -/
theorem skipValue_append (h : skipValue s = .ok rest) (hrest : rest ≠ []) (more : Bytes) :
    skipValue (s ++ more) = .ok (rest ++ more) :=
  skipFrom_append h hrest more

/-! ### Beginnings of values -/

/-- There is something where a value begins, and it is no blank. -/
theorem skipBlank_ne_nil_of_readStart {start : Start} (h : readStart s = .ok start) :
    skipBlank s ≠ [] := by
  intro hblank
  rw [readStart, hblank] at h
  cases h

/-- What is made of the beginning of a value and of what follows it is
the same in a text that goes on. The beginning must not be a scalar at
the end of the text. -/
theorem readStart_bind_append {α : Type} {read : Start → Except Fault (α × Bytes)} {a : α}
    (h : (readStart s >>= read) = .ok (a, rest))
    (hread : ∀ start, read start = .ok (a, rest) →
      (∀ x, start ≠ .scalar x []) ∧ read (start.append more) = .ok (a, rest ++ more)) :
    (readStart (s ++ more) >>= read) = .ok (a, rest ++ more) := by
  obtain ⟨start, hstart, h⟩ := exists_of_bind_eq_ok h
  obtain ⟨hscalar, happend⟩ := hread start h
  rw [readStart_append hstart hscalar]
  exact happend

/-- The word `null` is read, or something else is left as it is, if
there is anything at all. At the end of a text it could still come. -/
theorem readNull?_append {rest? : Option Bytes} (h : readNull? s = .ok rest?)
    (hs : skipBlank s ≠ []) (more : Bytes) :
    readNull? (s ++ more) = .ok (rest?.map (· ++ more)) := by
  unfold readNull? at h ⊢
  split at h
  · rename_i hb
    rw [skipBlank_append hb more]
    simp only
    split_ifs at h ⊢
    · split at h
      · rename_i hliteral
        cases h
        rw [readLiteral_append hliteral more]
        rfl
      · cases h
    · cases h
      rfl
  · contradiction

/-- Reads the word `null` as the given value, and anything else by
the given reader. -/
def readNullOr {α : Type} (value : α) (read : Bytes → Except Fault (α × Bytes)) (s : Bytes) :
    Except Fault (α × Bytes) :=
  readNull? s >>= fun
    | some rest => .ok (value, rest)
    | none => read s

/-- If a value is not read from blanks then neither is the word
`null` in its place. -/
theorem skipBlank_ne_nil_of_readNullOr {α : Type} {value : α}
    {read : Bytes → Except Fault (α × Bytes)} {r : α × Bytes}
    (hread : ∀ r, read s = .ok r → skipBlank s ≠ []) (h : readNullOr value read s = .ok r) :
    skipBlank s ≠ [] := by
  obtain ⟨rest?, hnull, h⟩ := exists_of_bind_eq_ok h
  cases rest? with
  | some rest =>
    intro hblank
    rw [readNull?, hblank] at hnull
    cases hnull
  | none => exact hread r h

/-- If a value is read in the same way then so is a value in whose place
`null` may stand. Optional and nullable schemas have this in common. -/
theorem extends_readNullOr {α : Type} {value : α} {read : Bytes → Except Fault (α × Bytes)}
    (hblank : ∀ s r, read s = .ok r → skipBlank s ≠ [])
    (hread : Extends more (fun _ => True) read read) :
    Extends more (fun _ => True) (readNullOr value read) (readNullOr value read) := by
  intro s a rest h _ hrest
  have hs : skipBlank s ≠ [] := skipBlank_ne_nil_of_readNullOr (hblank s) h
  obtain ⟨rest?, hnull, h⟩ := exists_of_bind_eq_ok h
  rw [readNullOr, readNull?_append hnull hs]
  cases rest? with
  | some rest' =>
    cases h
    rfl
  | none => exact hread s a rest h trivial hrest

/-- Reads a value that may be missing, if it is there. -/
def Schema.readSome (schema : Schema) (s : Bytes) : Except Fault (Option schema.Value × Bytes) :=
  schema.read s >>= fun (v, rest) => .ok (some v, rest)

/-- A value that is there has been read by the reader of what is expected. -/
theorem Schema.exists_of_readSome {schema : Schema} {r : Option schema.Value × Bytes}
    (h : schema.readSome s = .ok r) :
    ∃ v rest, schema.read s = .ok (v, rest) ∧ r = (some v, rest) := by
  obtain ⟨⟨v, rest⟩, hread, h⟩ := exists_of_bind_eq_ok h
  cases h
  exact ⟨v, rest, hread, rfl⟩

/-- What may be missing is `null` or the value itself. -/
theorem Schema.read_optional (schema : Schema) :
    (Schema.optional schema).read = readNullOr none schema.readSome := rfl

/-- What has a default is `null` or the value itself. -/
theorem Schema.read_nullable (schema : Schema) :
    (Schema.nullable schema).read = readNullOr schema.default schema.read := rfl

/-- Nothing that is expected is read from blanks, not even what may be missing. -/
theorem Schema.skipBlank_ne_nil_of_read : (schema : Schema) → {r : schema.Value × Bytes} →
    schema.read s = .ok r → skipBlank s ≠ []
  | .flag, _, h | .text, _, h | .integer, _, h | .list _, _, h | .record _, _, h => by
    obtain ⟨start, hstart, -⟩ := exists_of_bind_eq_ok h
    exact skipBlank_ne_nil_of_readStart hstart
  | .optional schema, _, h => by
    refine skipBlank_ne_nil_of_readNullOr (fun r hsome => ?_) (schema.read_optional ▸ h)
    obtain ⟨v, rest, hread, -⟩ := exists_of_readSome hsome
    exact schema.skipBlank_ne_nil_of_read hread
  | .nullable schema, _, h =>
    skipBlank_ne_nil_of_readNullOr (fun _ => schema.skipBlank_ne_nil_of_read)
      (schema.read_nullable ▸ h)

/-- Scalars are read in the same way if the text goes on and they are
followed by something. What is made of them depends only on the scalar,
and brackets are refused. -/
theorem extends_of_scalar {α : Type} (value : Scalar → Except Fault α)
    {read : Start → Except Fault (α × Bytes)}
    (hscalar : ∀ x rest, read (.scalar x rest) = (value x).map (·, rest))
    (harray : ∀ rest, read (.array rest) = .error .mismatched)
    (hobject : ∀ rest, read (.object rest) = .error .mismatched) (more : Bytes) :
    Extends more (fun _ => True) (fun s => readStart s >>= read)
      (fun s => readStart s >>= read) := by
  intro s a rest h _ hrest
  -- The beginning of a scalar is the whole scalar, so nothing is left to be read
  -- after it.
  refine readStart_bind_append h fun start hstart => ?_
  cases start with
  | scalar x rest' =>
    rw [hscalar] at hstart
    rw [Start.append, hscalar]
    cases hvalue : value x with
    | error f =>
      rw [hvalue] at hstart
      cases hstart
    | ok b =>
      rw [hvalue] at hstart
      cases hstart
      refine ⟨fun y hy => hrest ?_, rfl⟩
      cases hy
      rfl
  | array s' =>
    rw [harray] at hstart
    cases hstart
  | object s' =>
    rw [hobject] at hstart
    cases hstart

/-! ### Records -/

/-- An array that is closed stays closed if the text goes on. -/
theorem readArrayEnd_append (h : readArrayEnd s = .ok rest) (more : Bytes) :
    readArrayEnd (s ++ more) = .ok (rest ++ more) := by
  unfold readArrayEnd at h ⊢
  split at h
  · cases h
  · rename_i hb
    rw [skipBlank_append hb more]
    simp only
    split_ifs at h ⊢
    cases h
    rfl

/-- A record that is written as an array does not end with the text of
its fields, since the closing bracket must follow. -/
theorem Fields.ne_nil_of_readInOrder {fields : Fields} {first : Bool} {r : fields.Values × Bytes}
    (h : fields.readInOrder first s = .ok r) : s ≠ [] := by
  rintro rfl
  cases fields <;> cases h

/-- A record is read in the same way if the text goes on, and if its
members and the fields that are written in order are. It need not be
followed by anything, because its own closing bracket is what ends it. -/
theorem readRecord_append {fields : Fields} (hmember : ∀ key slots,
      Extends more (fun _ => True) (fields.readMember key slots) (fields.readMember key slots))
    (hitems : ∀ {s rest : Bytes} {vs : fields.Values}, fields.readInOrder true s = .ok (vs, rest) →
      fields.readInOrder true (s ++ more) = .ok (vs, rest ++ more))
    {vs : fields.Values} (h : (Schema.record fields).read s = .ok (vs, rest)) :
    (Schema.record fields).read (s ++ more) = .ok (vs, rest ++ more) := by
  refine readStart_bind_append h fun start hstart => ?_
  cases start with
  | scalar x rest' => cases hstart
  | array s' => exact ⟨by simp, hitems hstart⟩
  | object s' =>
    obtain ⟨⟨slots, rest'⟩, hslots, hstart⟩ := exists_of_bind_eq_ok hstart
    cases hstart
    have happend := readMembers_append hmember (fun _ _ _ _ _ _ _ => trivial) hslots trivial
    refine ⟨by simp, ?_⟩
    simp only [Start.append, bind, Except.bind, happend]
    rfl

mutual

/-- What is expected is read in the same way if the text goes on.
Something must be left, as the value could be a number; for records
this is not needed. -/
theorem Schema.read_append (more : Bytes) : (schema : Schema) →
    Extends more (fun _ => True) schema.read schema.read
  | .flag => extends_of_scalar
      (fun | .flag b => .ok b | _ => .error .mismatched)
      (fun x _ => by cases x <;> rfl) (fun _ => rfl) (fun _ => rfl) more
  | .text => extends_of_scalar
      (fun | .text x => .ok x | _ => .error .mismatched)
      (fun x _ => by cases x <;> rfl) (fun _ => rfl) (fun _ => rfl) more
  | .integer => by
    refine extends_of_scalar
      (fun | .number n => (n.toInt64?.map .ok).getD (.error .mismatched) | _ => .error .mismatched)
      (fun x _ => ?_) (fun _ => rfl) (fun _ => rfl) more
    cases x with
    | number n =>
      dsimp only
      cases n.toInt64? <;> rfl
    | null | flag | text => rfl
  | .list schema => by
    intro s vs rest h _ _
    -- A list is read by its own bracket, which ends it wherever the text goes on.
    refine readStart_bind_append h fun start hstart => ?_
    cases start with
    | scalar x rest' => cases hstart
    | array s' =>
      exact ⟨by simp, readItems_append (schema.read_append more) hstart fun _ _ => trivial⟩
    | object s' => cases hstart
  | .record fields => fun _ _ _ h _ _ =>
    readRecord_append (fields.readMember_append more) (fields.readInOrder_append more true) h
  | .optional schema => by
    rw [schema.read_optional]
    refine extends_readNullOr (fun s r hsome => ?_) fun s v? rest hsome _ hrest => ?_
    · obtain ⟨v, rest, hread, -⟩ := Schema.exists_of_readSome hsome
      exact schema.skipBlank_ne_nil_of_read hread
    · obtain ⟨v, rest', hread, hv⟩ := Schema.exists_of_readSome hsome
      cases hv
      rw [Schema.readSome, schema.read_append more s v rest hread trivial hrest]
      rfl
  | .nullable schema => by
    rw [schema.read_nullable]
    exact extends_readNullOr (fun _ _ => schema.skipBlank_ne_nil_of_read) (schema.read_append more)

/-- A member of a record is read in the same way if the text goes on.
Members that have no field are skipped, and they are skipped in the same
way. The recursion is on the fields, which are tried one after the other. -/
theorem Fields.readMember_append (more : Bytes) : (fields : Fields) → (key : String) →
    (slots : fields.Slots) →
    Extends more (fun _ => True) (fields.readMember key slots) (fields.readMember key slots)
  | .nil, key, () => by
    intro s slots rest h _ hrest
    obtain ⟨s', hcolon, h⟩ := exists_of_bind_eq_ok h
    obtain ⟨rest', hskip, h⟩ := exists_of_bind_eq_ok h
    cases h
    simp only [Fields.readMember, bind, Except.bind, readColon_append hcolon more,
      skipValue_append hskip hrest more]
    rfl
  | .cons name schema others, key, (slot, slots) => by
    intro s slots' rest h _ hrest
    unfold Fields.readMember at h ⊢
    split_ifs at h ⊢
    · obtain ⟨s', hcolon, h⟩ := exists_of_bind_eq_ok h
      obtain ⟨⟨v, rest'⟩, hread, h⟩ := exists_of_bind_eq_ok h
      cases h
      simp only [bind, Except.bind, readColon_append hcolon more,
        schema.read_append more s' v rest hread trivial hrest]
      rfl
    · obtain ⟨⟨slots, rest'⟩, hmember, h⟩ := exists_of_bind_eq_ok h
      cases h
      simp only [bind, Except.bind,
        others.readMember_append more key _ s slots rest hmember trivial hrest]
      rfl

/-- The fields of a record that is written as an array are read in the
same way if the text goes on. After each of them comes a comma or the
bracket, so no number is at the end. -/
theorem Fields.readInOrder_append (more : Bytes) : (fields : Fields) → (first : Bool) →
    {s rest : Bytes} → {vs : fields.Values} → fields.readInOrder first s = .ok (vs, rest) →
    fields.readInOrder first (s ++ more) = .ok (vs, rest ++ more)
  | .nil, first, s, rest, (), h => by
    obtain ⟨rest', hend, h⟩ := exists_of_bind_eq_ok h
    cases h
    simp only [Fields.readInOrder, bind, Except.bind, readArrayEnd_append hend more]
    rfl
  | .cons name schema others, first, s, rest, vs, h => by
    obtain ⟨next, hnext, h⟩ := exists_of_bind_eq_ok h
    unfold Fields.readInOrder
    rw [nextItem_append hnext more]
    cases next with
    | closed rest' =>
      cases h
      rfl
    | item s' =>
      obtain ⟨⟨v, s''⟩, hread, h⟩ := exists_of_bind_eq_ok h
      obtain ⟨⟨vs, rest'⟩, hothers, h⟩ := exists_of_bind_eq_ok h
      cases h
      have hread' := schema.read_append more s' v s'' hread trivial
        (Fields.ne_nil_of_readInOrder hothers)
      simp only [NextItem.append, bind, Except.bind, hread',
        others.readInOrder_append more false hothers]
      rfl

end

end

/-! ### Values of any shape -/

section

variable {α : Type} {rounds : Nat} {first : Bool} {s rest : Bytes}

/-- What is true of everything that is read as an item is true of all
items of an array. -/
theorem forall_of_readItemsFor {P : α → Prop} {item : Bytes → Except Fault (α × Bytes)}
    (hitem : ∀ s a rest, item s = .ok (a, rest) → P a) {items : List α}
    (h : readItemsFor item rounds first s = .ok (items, rest)) : ∀ a ∈ items, P a := by
  induction rounds generalizing first s items with
  | zero => cases h
  | succ rounds ih =>
    obtain ⟨next, -, h⟩ := exists_of_bind_eq_ok h
    cases next with
    | closed rest' =>
      cases h
      simp
    | item s' =>
      obtain ⟨⟨a, s''⟩, ha, h⟩ := exists_of_bind_eq_ok h
      obtain ⟨⟨others, rest'⟩, hothers, h⟩ := exists_of_bind_eq_ok h
      cases h
      exact List.forall_mem_cons.mpr ⟨hitem s' a s'' ha, ih hothers⟩

/-- What every member keeps true is true after all members of an
object. The induction is on the rounds of the reader, each of which
takes one member. -/
theorem of_readMembersFor {P : α → Prop} {member : String → α → Bytes → Except Fault (α × Bytes)}
    (hmember : ∀ key x s y rest, member key x s = .ok (y, rest) → P x → P y) {x y : α}
    (h : readMembersFor member rounds first x s = .ok (y, rest)) (hx : P x) : P y := by
  induction rounds generalizing first s x with
  | zero => cases h
  | succ rounds ih =>
    obtain ⟨next, -, h⟩ := exists_of_bind_eq_ok h
    cases next with
    | closed rest' =>
      cases h
      exact hx
    | key s' =>
      obtain ⟨⟨key, s''⟩, -, h⟩ := exists_of_bind_eq_ok h
      obtain ⟨⟨z, s'''⟩, hz, h⟩ := exists_of_bind_eq_ok h
      exact ih h (hmember key x s'' z s''' hz hx)

end

/-- A value has no more levels of brackets than its reader accepts. So if
the text goes on, a reader with the same levels reads the value again. By
induction on the levels: without any left, brackets are refused, and
otherwise what stands inside of a bracket has one level less. -/
theorem within_of_readValue {levels : Nat} {s rest : Bytes} {v : Value}
    (h : readValue levels s = .ok (v, rest)) : v.Within levels := by
  induction levels generalizing s rest v with
  | zero =>
    unfold readValue at h
    obtain ⟨start, -, h⟩ := exists_of_bind_eq_ok h
    cases start with
    | scalar x rest' =>
      cases h
      trivial
    | array | object => cases h
  | succ levels ih =>
    unfold readValue at h
    obtain ⟨start, -, h⟩ := exists_of_bind_eq_ok h
    cases start with
    | scalar x rest' =>
      cases h
      trivial
    | array s' =>
      obtain ⟨⟨items, rest'⟩, hitems, h⟩ := exists_of_bind_eq_ok h
      cases h
      exact forall_of_readItemsFor (fun _ _ _ => ih) hitems
    | object s' =>
      obtain ⟨⟨members, rest'⟩, hmembers, h⟩ := exists_of_bind_eq_ok h
      cases h
      -- Members are collected in reverse, which does not matter for what holds of all
      -- of them.
      have hall : ∀ m ∈ members, m.2.Within levels := by
        refine of_readMembersFor (P := fun ms => ∀ m ∈ ms, m.2.Within levels)
          (fun key ms s ms' rest hmember hms => ?_) hmembers (by simp)
        obtain ⟨s', v, -, hv, rfl⟩ := exists_of_readMemberOf hmember
        exact List.forall_mem_cons.mpr ⟨ih hv, hms⟩
      exact fun m hm => hall m (List.mem_reverse.mp hm)

/-! ### Documents -/

section

variable {s rest : Bytes}

/-- A document ends where only blanks follow. -/
theorem readEnd_eq (s : Bytes) :
    readEnd s = if s.all isBlank then .ok () else .error .malformed := by
  have hblank : skipBlank s = [] ↔ s.all isBlank = true := by
    rw [List.all_eq_true]
    exact List.dropWhile_eq_nil_iff
  simp only [readEnd, hblank]

/-- Where a document may end, what follows decides. Only blanks are left
there, and only blanks may be added. -/
theorem readEnd_append (h : readEnd rest = .ok ()) (more : Bytes) :
    readEnd (rest ++ more) = if more.all isBlank then .ok () else .error .malformed := by
  rw [readEnd_eq] at h
  split_ifs at h with hrest
  rw [readEnd_eq, List.all_append, hrest, Bool.true_and]

/-- A record that has been read can be followed by blanks only.
Anything else is refused as malformed, since the record ends at its
bracket in both texts. -/
theorem decode_append {fields : Fields} {vs : fields.Values}
    (h : (Schema.record fields).decode s = .ok vs) (more : Bytes) :
    (Schema.record fields).decode (s ++ more) =
      if more.all isBlank then .ok vs else .error .malformed := by
  obtain ⟨⟨vs', rest⟩, hread, h⟩ := exists_of_bind_eq_ok h
  obtain ⟨_, hend, h⟩ := exists_of_bind_eq_ok h
  cases h
  have hread' := readRecord_append (fields.readMember_append more)
    (fields.readInOrder_append more true) hread
  simp only [Schema.decode, bind, Except.bind, hread', readEnd_append hend more]
  cases more.all isBlank <;> rfl

/-- The second text breaks off before its last closing bracket, and the
first text is what is left of it. -/
def Truncates (cut text : Bytes) : Prop :=
  ∃ before after : Bytes, ∃ bracket : Bracket, text = before ++ bracket.closing :: after ∧
    (∀ b : Bracket, b.closing ∉ after) ∧ cut <+: before

/-- If what is read can be followed by blanks only then nothing is read
from a text that breaks off. What was lost holds a closing bracket, so
it is not all blank. -/
theorem Truncates.exists_error {α : Type} {decode : Bytes → Except Fault α}
    (hdecode : ∀ {s : Bytes} {a : α}, decode s = .ok a → ∀ more : Bytes,
      decode (s ++ more) = if more.all isBlank then .ok a else .error .malformed)
    {cut text : Bytes} {a : α} (h : Truncates cut text) (htext : decode text = .ok a) :
    ∃ fault, decode cut = .error fault := by
  obtain ⟨before, after, bracket, rfl, -, lost, rfl⟩ := h
  cases hcut : decode cut with
  | error fault => exact ⟨fault, rfl⟩
  | ok a' =>
    have hbracket : isBlank bracket.closing = false := by cases bracket <;> rfl
    rw [List.append_assoc, hdecode hcut, List.all_append, List.all_cons, hbracket, Bool.false_and,
      Bool.and_false, if_neg Bool.false_ne_true] at htext
    cases htext

end

end NpuAttribution.Json
