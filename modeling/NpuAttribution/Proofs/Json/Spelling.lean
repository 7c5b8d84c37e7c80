import Mathlib.Data.List.Forall2
import NpuAttribution.Json.Spelling
import NpuAttribution.Proofs.Json.Reading

/-!
# `NpuAttribution.Proofs.Json.Spelling`: a value is read however it is written

What describes a value of a schema is read as this value (`decode_of_describes`). So the order of
members, members of other names and the way strings are written make no difference, and nothing
describes two values. An object with a field twice is never accepted (`decode_of_repeats`).

Members are read in the order of the text, but the fields of a record have nothing to do with
one another. So what the members make of a record is what those of the first field's name make
of this field, and the members of other names of the other fields (`fitMembers_cons`). From
there on both theorems follow the recursion on schemas and fields.
-/

set_option autoImplicit false

namespace NpuAttribution.Json

/-! ### Records -/

/-- What the members of an object make of the fields of a record. -/
def Fields.fitMembers (fields : Fields) (ms : List (String × Tree)) : Option fields.Values :=
  (ms.foldlM (fun slots m => fields.fitMember m.1 m.2.value slots) fields.noSlots).map fields.fill

/-- What the members with the name of a field make of it. -/
def Schema.fitNamed (s : Schema) : List (String × Tree) → Option s.Value
  | [] => some s.default
  | [m] => s.fit m.2.value
  | _ :: _ :: _ => none

/-- Puts a member into the slot of its field, which must be empty. -/
def Schema.fitSlot (s : Schema) (slot : Option s.Value) (m : String × Tree) :
    Option (Option s.Value) :=
  if slot.isSome then none else (s.fit m.2.value).map some

variable {name : String} {s : Schema} {others : Fields}

/-- No second member goes into a slot. If there is no first one either
then the slot is filled with the default. -/
theorem foldlM_fitSlot (ms : List (String × Tree)) :
    (ms.foldlM s.fitSlot none).map (·.getD s.default) = s.fitNamed ms := by
  match ms with
  | [] => rfl
  | [m] =>
    rw [List.foldlM_cons, Schema.fitSlot, Schema.fitNamed]
    cases s.fit m.2.value <;> rfl
  | m :: m' :: ms =>
    rw [List.foldlM_cons, Schema.fitSlot, Schema.fitNamed]
    cases s.fit m.2.value <;> rfl

/-- The members of the first field's name are taken in without the
others. The state is a pair of the first slot and the other slots, and
each member changes only one half. -/
theorem foldlM_fitMember (ms : List (String × Tree)) (slot : Option s.Value)
    (slots : others.Slots) :
    ms.foldlM (fun slots m => (Fields.cons name s others).fitMember m.1 m.2.value slots)
        (slot, slots) =
      ((ms.filter fun m => m.1 = name).foldlM s.fitSlot slot).bind fun slot =>
        ((ms.filter fun m => m.1 ≠ name).foldlM
          (fun slots m => others.fitMember m.1 m.2.value slots) slots).map fun slots =>
            (slot, slots) := by
  induction ms generalizing slot slots with
  | nil => rfl
  | cons m ms ih =>
    by_cases hname : m.1 = name
    · rw [List.foldlM_cons, List.filter_cons_of_pos (by simpa using hname),
        List.filter_cons_of_neg (by simpa using hname), List.foldlM_cons]
      show (if m.1 = name then _ else _ : Option _) >>= _ = _
      rw [if_pos hname, Schema.fitSlot]
      split
      · rfl
      · cases s.fit m.2.value with
        | none => rfl
        | some v => exact ih (some v) slots
    · rw [List.foldlM_cons, List.filter_cons_of_neg (by simpa using hname),
        List.filter_cons_of_pos (by simpa using hname), List.foldlM_cons]
      show (if m.1 = name then _ else _ : Option _) >>= _ = _
      rw [if_neg hname]
      -- If a later field refuses its member, then nothing comes of the first field
      -- either.
      cases others.fitMember m.1 m.2.value slots with
      | none => cases (ms.filter fun m => m.1 = name).foldlM s.fitSlot slot <;> rfl
      | some slots => exact ih slot slots

/-- A record without fields takes no notice of its members. -/
theorem fitMembers_nil (ms : List (String × Tree)) : Fields.nil.fitMembers ms = some () := by
  rw [Fields.fitMembers]
  induction ms with
  | nil => rfl
  | cons m ms ih => exact ih

/-- Each field is made of the members of its name, and of no others. So the
order in which the members of different names stand is of no importance. -/
theorem fitMembers_cons (name : String) (s : Schema) (others : Fields)
    (ms : List (String × Tree)) :
    (Fields.cons name s others).fitMembers ms =
      (s.fitNamed (ms.filter fun m => m.1 = name)).bind fun v =>
        (others.fitMembers (ms.filter fun m => m.1 ≠ name)).map fun vs => (v, vs) := by
  rw [Fields.fitMembers, Fields.noSlots, foldlM_fitMember, ← foldlM_fitSlot, Fields.fitMembers]
  cases (ms.filter fun m => m.1 = name).foldlM s.fitSlot none with
  | none => rfl
  | some slot =>
    cases (ms.filter fun m => m.1 ≠ name).foldlM
      (fun slots m => others.fitMember m.1 m.2.value slots) others.noSlots <;> rfl

/-- An object makes what its members make, if all its keys stand for texts. -/
theorem fit_record (fields : Fields) (members : Members) :
    (Schema.record fields).fit (Tree.object members).value =
      members.named?.bind fields.fitMembers := by
  rw [fit_record_object]
  cases members.named? <;> rfl

/-! ### Descriptions -/

/-- A row of values is made of a row of items one by one. -/
theorem mapM_of_forall₂ {vs : List s.Value} {ts : List Tree}
    (h : List.Forall₂ (fun v t => s.fit t.value = some v) vs ts) :
    (ts.mapM fun t => s.fit t.value) = some vs := by
  induction h with
  | nil => rfl
  | cons hv _ ih =>
    rw [List.mapM_cons, hv, ih]
    rfl

mutual

/-- What describes a value fits the schema as this value. The
recursion is on the schema, and there is one case for each way to
describe a value of its kind. -/
theorem Schema.fit_of_describes : (s : Schema) → (v : s.Value) → (t : Tree) → s.Describes v t →
    s.fit t.value = some v
  | .flag, b, t, h => by
    rw [Schema.Describes] at h
    rw [h]
    rfl
  | .text, x, t, h => by
    rw [Schema.Describes] at h
    obtain ⟨parts, rfl, hx⟩ := h
    rw [Tree.value, hx]
    rfl
  | .integer, i, t, h => by
    rw [Schema.Describes] at h
    obtain ⟨n, rfl, hn⟩ := h
    rw [Tree.value, number?_of_denotes hn]
    show Number.toInt64? (.integer (Int64.toInt i)) = some i
    have hrange : Int64.minValue.toInt ≤ Int64.toInt i ∧ Int64.toInt i ≤ Int64.maxValue.toInt :=
      ⟨Int64.minValue_le_toInt i, Int64.toInt_le i⟩
    rw [Number.toInt64?, if_pos hrange, Int64.ofInt_toInt]
  | .optional _, none, t, h => by
    rw [Schema.Describes] at h
    rw [h]
    rfl
  | .optional s, some v, t, h => by
    rw [Schema.Describes] at h
    rw [fit_optional (Tree.value_ne_null h.1), Schema.fit_of_describes s v t h.2]
    rfl
  | .nullable s, v, t, h => by
    rw [Schema.Describes] at h
    -- The word stands for the default, and anything else for itself.
    rcases h with ⟨rfl, rfl⟩ | ⟨hne, h⟩
    · rfl
    · rw [fit_nullable (Tree.value_ne_null hne)]
      exact Schema.fit_of_describes s v t h
  | .list s, vs, t, h => by
    rw [Schema.Describes] at h
    obtain ⟨items, rfl, hitems⟩ := h
    have hfit := hitems.imp fun v t hv => Schema.fit_of_describes s v t hv
    show items.values.mapM s.fit = some vs
    rw [mapM_values]
    exact mapM_of_forall₂ hfit
  | .record fields, vs, t, h => by
    rw [Schema.Describes] at h
    obtain ⟨members, ms, rfl, hms, h⟩ := h
    rw [fit_record, hms]
    exact Fields.fitMembers_of_describes fields vs ms h

/-- Members that describe the values of the fields make these values.
A field may have its one member anywhere among them, or none if its
value is the default. -/
theorem Fields.fitMembers_of_describes : (fields : Fields) → (vs : fields.Values) →
    (ms : List (String × Tree)) → fields.Describes vs ms → fields.fitMembers ms = some vs
  | .nil, (), ms, _ => fitMembers_nil ms
  | .cons name s others, (v, vs), ms, h => by
    rw [Fields.Describes] at h
    have hothers := Fields.fitMembers_of_describes others vs _ h.2
    have hv : s.fitNamed (ms.filter fun m => m.1 = name) = some v := by
      rcases h.1 with ⟨t, ht, hv⟩ | ⟨hnone, rfl⟩
      · rw [ht]
        exact Schema.fit_of_describes s v t hv
      · rw [hnone]
        rfl
    rw [fitMembers_cons, hv, hothers]
    rfl

end

/-- A document that describes a value is read as this value. It may have
blanks around it and between its tokens, and nothing else of its
spelling matters. -/
theorem decode_of_describes {v : s.Value} {d : Document} (h : s.Describes v d.tree) :
    s.decode d.bytes = .ok v := by
  rw [eq_ok_iff, decode_bytes]
  exact s.fit_of_describes v d.tree h

/-! ### Repetitions -/

/-- The names of members are what their keys stand for, in the order of
the text. -/
theorem map_of_named? : (members : Members) → {ms : List (String × Tree)} →
    members.named? = some ms →
    members.toList.map (fun m => (textOf? m.1, m.2)) = ms.map fun m => (some m.1, m.2)
  | .nil _, _, h => by
    cases h
    rfl
  | .cons _ key _ _ t _ others, ms, h => by
    rw [named?_cons] at h
    obtain ⟨k, hk, h⟩ := Option.bind_eq_some_iff.mp h
    obtain ⟨ms', hms', rfl⟩ := Option.map_eq_some_iff.mp h
    rw [Members.toList, List.map_cons, List.map_cons, map_of_named? others hms', hk]

/-- As many members have a name as keys stand for it, though the keys
may be spelled in different ways. -/
theorem length_filter_of_named? {members : Members} {ms : List (String × Tree)}
    (h : members.named? = some ms) (name : String) :
    (ms.filter fun m => m.1 = name).length =
      (members.toList.map fun m => textOf? m.1).count (some name) := by
  have hnames := congrArg (List.map Prod.fst) (map_of_named? members h)
  rw [List.map_map, List.map_map] at hnames
  change members.toList.map (fun m => textOf? m.1) = ms.map (fun m => some m.1) at hnames
  rw [hnames, List.count, List.countP_map, List.countP_eq_length_filter]
  congr 1

/-- A member whose key stands for a name is a member of this name. -/
theorem mem_of_named? {members : Members} {ms : List (String × Tree)}
    (h : members.named? = some ms) {m : List TextPart × Tree} (hm : m ∈ members.toList)
    (hname : textOf? m.1 = some name) : (name, m.2) ∈ ms := by
  have hpair : (textOf? m.1, m.2) ∈ members.toList.map fun m => (textOf? m.1, m.2) :=
    List.mem_map_of_mem hm
  rw [map_of_named? members h, hname] at hpair
  obtain ⟨m', hm', heq⟩ := List.mem_map.mp hpair
  rw [Prod.mk.injEq, Option.some_inj] at heq
  rw [← heq.1, ← heq.2]
  exact hm'

/-- Nothing is made of two members of one name, even if they say the same. -/
theorem fitNamed_of_two {ms : List (String × Tree)} (h : 2 ≤ ms.length) : s.fitNamed ms = none := by
  match ms with
  | [_] => exact absurd h (by simp)
  | _ :: _ :: _ => rfl

/-- Nothing is made of a member that does not fit, whether or not it
is the only one. -/
theorem fitNamed_of_unfit {ms : List (String × Tree)} {m : String × Tree} (hm : m ∈ ms)
    (h : s.fit m.2.value = none) : s.fitNamed ms = none := by
  match ms with
  | [_] =>
    rw [List.mem_singleton] at hm
    rw [Schema.fitNamed, ← hm, h]
  | _ :: _ :: _ => rfl

/-- No list is made of items of which one does not fit, wherever it stands. -/
theorem mapM_of_unfit {ts : List Tree} {t : Tree} (ht : t ∈ ts) (h : s.fit t.value = none) :
    (ts.mapM fun t => s.fit t.value) = none := by
  induction ts with
  | nil => cases ht
  | cons t' ts ih =>
    rw [List.mapM_cons]
    rcases List.mem_cons.mp ht with rfl | ht'
    · rw [h]
      rfl
    · rw [ih ht']
      cases s.fit t'.value <;> rfl

/-- Among the members of other names than one, those of another name are
all there. This is what the later fields of a record get to see. -/
theorem filter_filter_of_ne {name name' : String} (h : name ≠ name') (ms : List (String × Tree)) :
    (ms.filter fun m => m.1 ≠ name').filter (fun m => m.1 = name) =
      ms.filter fun m => m.1 = name := by
  rw [List.filter_filter]
  refine List.filter_congr fun m _ => ?_
  by_cases hm : m.1 = name
  · simp [hm, h]
  · simp [hm]

/-- No record is made of members of which nothing is made for one of the
fields. The recursion is on the fields up to the one in question. -/
theorem fitMembers_of_unfit : (fields : Fields) → {name : String} → {s : Schema} →
    fields.schema? name = some s → {ms : List (String × Tree)} →
    s.fitNamed (ms.filter fun m => m.1 = name) = none → fields.fitMembers ms = none
  | .cons name' s' others, name, s, hfield, ms, h => by
    rw [fitMembers_cons]
    by_cases hname : name = name'
    · rw [Fields.schema?, if_pos hname] at hfield
      cases hfield
      rw [← hname, h]
      rfl
    · rw [Fields.schema?, if_neg hname] at hfield
      rw [← filter_filter_of_ne hname] at h
      rw [fitMembers_of_unfit others hfield h]
      cases s'.fitNamed (ms.filter fun m => m.1 = name') <;> rfl

/-- No record is made of items of which one does not fit its field, as
with the members of an object. -/
theorem fitInOrder_of_unfit : (fields : Fields) → (items : Items) → {s : Schema} → {t : Tree} →
    (s, t) ∈ fields.schemas.zip items.toList → s.fit t.value = none →
    fields.fitInOrder items.values = none
  | .nil, _, _, _, hm, _ => by cases hm
  | .cons _ _ _, .nil _, _, _, hm, _ => by cases hm
  | .cons _ s' others, .cons _ t' _ items, s, t, hm, h => by
    rw [Items.values, Fields.fitInOrder]
    rcases List.mem_cons.mp hm with heq | hm'
    · cases heq
      rw [h]
      rfl
    · rw [fitInOrder_of_unfit others items hm' h]
      cases s'.fit t'.value <;> rfl

/-- Whatever has a field twice is not `null`, and so it is not passed
over as missing. -/
theorem Schema.Repeats.ne_null {t : Tree} (h : s.Repeats t) : t ≠ .null := by
  induction h with
  | here | member | inOrder | item => exact fun h => by cases h
  | optional _ ih => exact ih
  | nullable _ ih => exact ih

/-- What has a field twice fits no schema. The induction is on where the
field is: in this object, or in something that has to fit inside of it. -/
theorem Schema.Repeats.fit_eq_none {t : Tree} (h : s.Repeats t) : s.fit t.value = none := by
  induction h with
  | @here fields members name s hfield htwice =>
    rw [fit_record]
    cases hms : members.named? with
    | none => rfl
    | some ms =>
      rw [← length_filter_of_named? hms] at htwice
      exact fitMembers_of_unfit fields hfield (fitNamed_of_two htwice)
  | @member fields members name s m hfield hm hname _ ih =>
    rw [fit_record]
    cases hms : members.named? with
    | none => rfl
    | some ms =>
      have hmem : (name, m.2) ∈ ms.filter fun m => m.1 = name :=
        List.mem_filter.mpr ⟨mem_of_named? hms hm hname, by simp⟩
      exact fitMembers_of_unfit fields hfield (fitNamed_of_unfit hmem ih)
  | @inOrder fields items s t hm _ ih =>
    exact fitInOrder_of_unfit fields items hm ih
  | @item s items t hm _ ih =>
    show items.values.mapM s.fit = none
    rw [mapM_values]
    exact mapM_of_unfit hm ih
  | optional h ih => rw [fit_optional (Tree.value_ne_null h.ne_null), ih]; rfl
  | nullable h ih => rw [fit_nullable (Tree.value_ne_null h.ne_null), ih]

/-- A document in which an object that stands for a record has a
field twice is refused. This holds at any depth, but not where a
value is skipped. -/
theorem decode_of_repeats {d : Document} (h : s.Repeats d.tree) (v : s.Value) :
    s.decode d.bytes ≠ .ok v := by
  intro hdecode
  rw [eq_ok_iff, decode_bytes, h.fit_eq_none] at hdecode
  cases hdecode

end NpuAttribution.Json
