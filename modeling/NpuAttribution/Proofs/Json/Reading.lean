import NpuAttribution.Json.Value
import NpuAttribution.Proofs.Json.Sequences
import NpuAttribution.Proofs.Json.Skipping

/-!
# `NpuAttribution.Proofs.Json.Reading`: reading by a schema is fitting what is written

There are two ways to make something of a text: the reader of a schema goes through it once, and
a value of any shape can be fitted to a schema. For what is written both give the same
(`Schema.reads`). This needs the value of everything that is written, also of a number out of
range or of a string with half a surrogate pair. Such parts have no value, and a stand-in that
fits no schema takes their place (`Tree.value`). So a text is refused if such a part stands
where something is expected, and it does no harm where it is skipped.

The proof is by recursion on schemas and fields. Each kind of schema decides by the beginning of
the value (`readStart_bytes`), and its parts are read in order as they are fitted in order.
-/

set_option autoImplicit false

namespace NpuAttribution.Json

/-! ### What is written -/

/-- A value that fits no schema, in place of what stands for nothing. -/
def Value.unreadable : Value := .scalar (.number .other)

mutual

/-- The value that is written. What stands for nothing has the value
that fits no schema. -/
def Tree.value : Tree → Value
  | .null => .scalar .null
  | .flag b => .scalar (.flag b)
  | .number n => (n.number?.map fun x => .scalar (.number x)).getD .unreadable
  | .text parts => ((textOf? parts).map fun x => .scalar (.text x)).getD .unreadable
  | .array items => .array items.values
  | .object members => (members.values?.map .object).getD .unreadable

/-- The values of items. -/
def Items.values : Items → List Value
  | .nil _ => []
  | .cons _ item _ others => item.value :: others.values

/-- The names and values of members, if all keys stand for a name. -/
def Members.values? : Members → Option (List (String × Value))
  | .nil _ => some []
  | .cons _ key _ _ value _ others =>
    (textOf? key).bind fun k => others.values?.map ((k, value.value) :: ·)

end

/-- The items of an array have their values, in the order of the text. -/
theorem Items.values_eq : (items : Items) → items.values = items.toList.map Tree.value
  | .nil _ => rfl
  | .cons _ _ _ others => by rw [Items.values, Items.toList, List.map_cons, others.values_eq]

/-- The members of an object have their names and values. Whether there
are any depends on the keys only, since every tree has a value. -/
theorem Members.values?_eq : (members : Members) →
    members.values? = members.named?.map fun ms => ms.map fun m => (m.1, m.2.value)
  | .nil _ => rfl
  | .cons _ key _ _ value _ others => by
    rw [Members.values?, others.values?_eq, named?_cons]
    cases textOf? key <;> cases others.named? <;> rfl

/-- Nothing but the word `null` has the value `null`. In particular the
stand-in for what cannot be read does not, so it is not taken for
something missing. -/
theorem Tree.value_ne_null {t : Tree} (h : t ≠ .null) : t.value ≠ .scalar .null := by
  cases t with
  | null => exact absurd rfl h
  | flag b => simp [Tree.value]
  | number n => cases hn : n.number? <;> simp [Tree.value, hn, Value.unreadable]
  | text parts => cases hp : textOf? parts <;> simp [Tree.value, hp, Value.unreadable]
  | array items => simp [Tree.value]
  | object members => cases hm : members.values? <;> simp [Tree.value, hm, Value.unreadable]

/-! ### Fitting -/

/-- A value other than `null` is not missing, so what is expected is
the value itself. -/
theorem fit_optional {v : Value} (h : v ≠ .scalar .null) (s : Schema) :
    (Schema.optional s).fit v = (s.fit v).map some := by
  rw [Schema.fit]
  exact h

/-- A value other than `null` does not stand for the default, but for itself. -/
theorem fit_nullable {v : Value} (h : v ≠ .scalar .null) (s : Schema) :
    (Schema.nullable s).fit v = s.fit v := by
  rw [Schema.fit]
  exact h

/-- The stand-in fits no schema. The recursion is on the schema: where
`null` is accepted, what is expected besides it does not fit either. -/
@[simp] theorem fit_unreadable : (s : Schema) → s.fit .unreadable = none
  | .flag => rfl
  | .text => rfl
  | .integer => rfl
  | .optional s => by rw [fit_optional (by simp [Value.unreadable]), fit_unreadable s]; rfl
  | .nullable s => by rw [fit_nullable (by simp [Value.unreadable]), fit_unreadable s]
  | .list _ => rfl
  | .record _ => rfl

/-! ### Reading -/

variable {rest : Bytes}

/-- The word `null` is read where it is written, with the blanks before it. -/
theorem readNull?_null (gap : Blanks) (rest : Bytes) :
    readNull? (gap.bytes ++ (Tree.null.bytes ++ rest)) = .ok (some rest) := by
  rw [readNull?, skipBlank_gap]
  rfl

/-- Every other value is left as it is, and the reader of what is
expected goes on from its first byte. The word begins with a letter that
no other value begins with. -/
theorem readNull?_of_ne {t : Tree} (h : t ≠ .null) (gap : Blanks) (rest : Bytes) :
    readNull? (gap.bytes ++ (t.bytes ++ rest)) = .ok none := by
  obtain ⟨b, s, hbytes, hblank, -, hne⟩ := t.exists_first
  rw [readNull?, skipBlank_gap, hbytes, List.cons_append, skipBlank_cons hblank]
  simp [hne h]

/-- What is expected is read if it is read from each beginning of a
value. A number or a string that stands for nothing has no beginning,
and its stand-in fits nothing, so there is no case for it. -/
theorem reads_of_start {s : Schema} {read : Start → Except Fault (s.Value × Bytes)}
    (hscalar : ∀ x rest, (read (.scalar x rest)).toOption = (s.fit (.scalar x)).map (·, rest))
    (harray : ∀ (items : Items) (rest : Bytes),
      (read (.array (items.bytes true ++ rest))).toOption
        = (s.fit (.array items.values)).map (·, rest))
    (hobject : ∀ (members : Members) (rest : Bytes),
      (read (.object (members.bytes true ++ rest))).toOption
        = (s.fit (Tree.object members).value).map (·, rest)) :
    Reads (fun text => readStart text >>= read) fun t => s.fit t.value := by
  intro gap t rest hrest
  show (readStart (gap.bytes ++ (t.bytes ++ rest)) >>= read).toOption = _
  rw [toOption_bind, readStart_bytes gap t hrest]
  -- Scalars are known completely from their beginning, the others only to their
  -- bracket.
  cases t with
  | null => exact hscalar .null rest
  | flag b => exact hscalar (.flag b) rest
  | number n =>
    simp only [Tree.start?, Tree.value]
    cases n.number? with
    | none => simp
    | some x => exact hscalar (.number x) rest
  | text parts =>
    simp only [Tree.start?, Tree.value]
    cases textOf? parts with
    | none => simp
    | some x => exact hscalar (.text x) rest
  | array items => exact harray items rest
  | object members => exact hobject members rest

/-- An object fits no schema that is not one of a record, whether its
keys stand for texts or not. -/
theorem fit_object_of_none {s : Schema} (h : ∀ ms, s.fit (.object ms) = none) (members : Members) :
    s.fit (Tree.object members).value = none := by
  rw [Tree.value]
  cases members.values? with
  | none => exact fit_unreadable s
  | some ms => exact h ms

/-- The items of an array are fitted one by one, and if one of them does
not fit then the array does not. -/
theorem mapM_values {α : Type} (f : Value → Option α) (items : Items) :
    items.values.mapM f = items.toList.mapM fun t => f t.value := by
  rw [items.values_eq, List.mapM_map]
  rfl

/-- The members of an object are fitted one by one, each into its slot.
If a key stands for no text then nothing is made of the object. -/
theorem fit_record_object (fields : Fields) (members : Members) :
    (Schema.record fields).fit (Tree.object members).value =
      (members.named?.bind fun ms => ms.foldlM
        (fun slots m => fields.fitMember m.1 m.2.value slots) fields.noSlots).map fields.fill := by
  rw [Tree.value, members.values?_eq]
  cases members.named? with
  | none => rfl
  | some ms =>
    show (Schema.record fields).fit (.object _) = _
    rw [Schema.fit, List.foldlM_map]
    rfl

/-- No item follows the last field of a record that is written as an
array. Whether one does is seen from the first byte behind the blanks. -/
theorem readArrayEnd_bytes (gap : Blanks) (items : Items) (first : Bool) (rest : Bytes) :
    (readArrayEnd (gap.bytes ++ (items.bytes first ++ rest))).toOption =
      if items.values.isEmpty then some rest else none := by
  rw [readArrayEnd, skipBlank_gap]
  cases items with
  | nil gap' =>
    rw [Items.bytes, List.append_assoc, skipBlank_gap, List.cons_append, skipBlank_cons rfl]
    rfl
  | cons before t after others =>
    cases first with
    | false => rfl
    | true =>
      obtain ⟨b, s, hbytes, hblank, hclosing, -⟩ := t.exists_first
      rw [Items.bytes, hbytes]
      simp [comma, skipBlank_cons hblank, hclosing, Except.toOption, Items.values]

mutual

/-- What is expected is read from a text if it fits what is written
there. This and the next two theorems are one recursion on schemas and
their fields, since a record is read by the readers of its fields. -/
theorem Schema.reads : (s : Schema) → Reads s.read fun t => s.fit t.value
  | .flag => reads_of_start (fun x _ => by cases x <;> rfl) (fun _ _ => rfl)
      fun members _ => by rw [fit_object_of_none fun _ => rfl]; rfl
  | .text => reads_of_start (fun x _ => by cases x <;> rfl) (fun _ _ => rfl)
      fun members _ => by rw [fit_object_of_none fun _ => rfl]; rfl
  | .integer => by
    refine reads_of_start (fun x _ => ?_) (fun _ _ => rfl) fun members _ => ?_
    · cases x with
      | number n =>
        rw [Schema.fit]
        dsimp only
        cases n.toInt64? <;> rfl
      | null | flag | text => rfl
    · rw [fit_object_of_none fun _ => rfl]
      rfl
  | .optional s => by
    intro gap t rest hrest
    have hs := Schema.reads s gap t rest hrest
    show (readNull? _ >>= _).toOption = ((Schema.optional s).fit t.value).map (·, rest)
    -- Either the word stands there, or the inner schema decides.
    by_cases hnull : t = .null
    · rw [hnull, readNull?_null]
      rfl
    · rw [readNull?_of_ne hnull, fit_optional (Tree.value_ne_null hnull)]
      exact toOption_map hs some
  | .nullable s => by
    intro gap t rest hrest
    have hs := Schema.reads s gap t rest hrest
    show (readNull? _ >>= _).toOption = ((Schema.nullable s).fit t.value).map (·, rest)
    by_cases hnull : t = .null
    · rw [hnull, readNull?_null]
      rfl
    · rw [readNull?_of_ne hnull, fit_nullable (Tree.value_ne_null hnull)]
      exact hs
  | .list s => by
    refine reads_of_start (fun x _ => by cases x <;> rfl) (fun items rest => ?_) fun members _ => ?_
    · have hitems := readItems_bytes (Schema.reads s) items rest
      show (readItems s.read _).toOption = _
      rw [hitems, Schema.fit, mapM_values]
    · rw [fit_object_of_none fun _ => rfl]
      rfl
  | .record fields => by
    refine reads_of_start (fun x _ => by cases x <;> rfl) (fun items rest => ?_)
      fun members rest => ?_
    · have hitems := Fields.readsInOrder fields items true .none rest
      show (fields.readInOrder true _).toOption = _
      rw [Schema.fit]
      exact hitems
    · have hmembers := readMembers_bytes (Fields.readsMember fields) members fields.noSlots rest
      rw [fit_record_object]
      exact toOption_map hmembers fields.fill

/-- A member is read as the field of its name, or skipped. The slots of
the fields are nested pairs, and only the one of the name is touched. -/
theorem Fields.readsMember : (fields : Fields) →
    ReadsMember fields.readMember fun slots m => fields.fitMember m.1 m.2.value slots
  | .nil => by
    intro key slots beforeColon afterColon t rest hrest
    show (readColon _ >>= _).toOption = _
    rw [readColon_gap]
    show (skipValue _ >>= _).toOption = _
    -- No field has this name, so the value is skipped whatever it is.
    rw [skipValue_bytes afterColon t hrest]
    rfl
  | .cons name s others => by
    intro key slots beforeColon afterColon t rest hrest
    obtain ⟨slot, slots⟩ := slots
    have hs := Schema.reads s afterColon t rest hrest
    have hothers := Fields.readsMember others key slots beforeColon afterColon t rest hrest
    simp only [Fields.readMember, Fields.fitMember]
    split
    · split
      · rfl
      · rw [readColon_gap]
        exact toOption_map hs fun v => (some v, slots)
    · exact toOption_map hothers fun slots => (slot, slots)

/-- A record that is written as an array is read field by field, in
the order of the fields. There must be as many items as fields,
neither more nor less. -/
theorem Fields.readsInOrder : (fields : Fields) → (items : Items) → (first : Bool) →
    (gap : Blanks) → (rest : Bytes) →
    (fields.readInOrder first (gap.bytes ++ (items.bytes first ++ rest))).toOption =
      (fields.fitInOrder items.values).map (·, rest)
  | .nil, items, first, gap, rest => by
    show (readArrayEnd _ >>= _).toOption = _
    rw [toOption_bind, readArrayEnd_bytes]
    cases items <;> rfl
  | .cons _ s others, .nil gap', first, gap, rest => by
    -- The array ends too early for the fields that are left.
    have hclosing := nextItem_closing first gap' rest
    rw [Items.bytes, List.append_assoc, List.cons_append, List.nil_append, Fields.readInOrder,
      nextItem_gap, hclosing]
    rfl
  | .cons _ s others, .cons before t after items, first, gap, rest => by
    -- The first item is read for the first field, and the others by the recursion.
    have ht := Schema.reads s .none t _ (apart_gap after (items.apart rest))
    have hothers := Fields.readsInOrder others items false after rest
    change (s.read (t.bytes ++ _)).toOption = _ at ht
    rw [Items.bytes]
    simp only [List.append_assoc]
    rw [Fields.readInOrder, nextItem_gap, nextItem_item]
    show (s.read (t.bytes ++ _) >>= _).toOption = _
    rw [toOption_bind, ht, Items.values, Fields.fitInOrder]
    dsimp only
    cases s.fit t.value with
    | none => rfl
    | some v =>
      show (others.readInOrder false _ >>= _).toOption = _
      rw [toOption_bind, hothers]
      cases others.fitInOrder items.values <;> rfl

end

/-! ### Documents -/

/-- Nothing but blanks follows a document. -/
theorem readEnd_gap (gap : Blanks) : readEnd gap.bytes = .ok () := by
  have hgap := skipBlank_gap gap []
  rw [List.append_nil] at hgap
  rw [readEnd, hgap]
  rfl

/-- The blanks at the end of a document are no part of a number, nor
is the end itself. -/
theorem apart_after (d : Document) : Apart d.after.bytes := by
  have hgap : Apart (d.after.bytes ++ []) := apart_gap d.after fun b hb => by cases hb
  rwa [List.append_nil] at hgap

/-- A document is accepted if what is expected fits what is written, and
the result is what fitting makes of it. All that is said of spellings
below is said of fitting, by this. -/
theorem decode_bytes (s : Schema) (d : Document) :
    (s.decode d.bytes).toOption = s.fit d.tree.value := by
  have hread := s.reads d.before d.tree d.after.bytes (apart_after d)
  rw [Document.bytes, List.append_assoc]
  show (s.read _ >>= _).toOption = _
  rw [toOption_bind, hread]
  dsimp only
  cases s.fit d.tree.value with
  | none => rfl
  | some v =>
    show (readEnd d.after.bytes >>= _).toOption = _
    rw [readEnd_gap]
    rfl

end NpuAttribution.Json
