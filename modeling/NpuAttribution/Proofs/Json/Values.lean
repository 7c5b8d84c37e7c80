import NpuAttribution.Proofs.Json.Reading

/-!
# `NpuAttribution.Proofs.Json.Values`: reading a value of any shape

Where a whole value is kept it is read if it keeps to the limits everywhere (`Tree.Within`), and
then the value that is written is read (`reads_value`). The induction is on the levels of
brackets that are left: the items of an array and the members of an object must keep to the same
limits with one level less (`within_array`, `within_object`).
-/

set_option autoImplicit false

namespace NpuAttribution.Json

/-! ### Limits -/

instance (n : Numeral) : Decidable n.InRange :=
  inferInstanceAs (Decidable (NumberParts.isFinite _ = true))

instance (levels : Nat) (t : Tree) : Decidable (t.Within levels) :=
  decidable_of_iff (t.depth ≤ levels ∧ (∀ n ∈ t.numbers, n.InRange) ∧
      ∀ parts ∈ t.strings, Paired false parts = true)
    ⟨fun ⟨depth, numbers, strings⟩ => ⟨depth, numbers, strings⟩,
      fun h => ⟨h.depth, h.numbers, h.strings⟩⟩

/-- Items keep to the limits together if each of them does. The
limits are three, and each is the one of the first item together
with those of the others. -/
theorem Items.within (levels : Nat) : (items : Items) →
    (items.depth ≤ levels ∧ (∀ n ∈ items.numbers, n.InRange) ∧
      ∀ parts ∈ items.strings, Paired false parts = true) ↔
    ∀ t ∈ items.toList, t.Within levels
  | .nil _ => by simp [Items.depth, Items.numbers, Items.strings, Items.toList]
  | .cons _ t _ others => by
    rw [Items.toList, List.forall_mem_cons, ← Items.within levels others, Items.depth,
      Items.numbers, Items.strings, List.forall_mem_append, List.forall_mem_append,
      Nat.max_le]
    constructor
    · rintro ⟨⟨hdepth, hdepths⟩, ⟨hnumbers, hnumbers'⟩, hstrings, hstrings'⟩
      exact ⟨⟨hdepth, hnumbers, hstrings⟩, hdepths, hnumbers', hstrings'⟩
    · rintro ⟨⟨hdepth, hnumbers, hstrings⟩, hdepths, hnumbers', hstrings'⟩
      exact ⟨⟨hdepth, hdepths⟩, ⟨hnumbers, hnumbers'⟩, hstrings, hstrings'⟩

/-- Members keep to the limits together if each key and each value does.
Of a key only the surrogates matter, since it is a string. -/
theorem Members.within (levels : Nat) : (members : Members) →
    (members.depth ≤ levels ∧ (∀ n ∈ members.numbers, n.InRange) ∧
      ∀ parts ∈ members.strings, Paired false parts = true) ↔
    ∀ m ∈ members.toList, Paired false m.1 = true ∧ m.2.Within levels
  | .nil _ => by simp [Members.depth, Members.numbers, Members.strings, Members.toList]
  | .cons _ key _ _ t _ others => by
    rw [Members.toList, List.forall_mem_cons, ← Members.within levels others, Members.depth,
      Members.numbers, Members.strings, List.forall_mem_append, List.forall_mem_cons,
      List.forall_mem_append, Nat.max_le]
    constructor
    · rintro ⟨⟨hdepth, hdepths⟩, ⟨hnumbers, hnumbers'⟩, hkey, hstrings, hstrings'⟩
      exact ⟨⟨hkey, hdepth, hnumbers, hstrings⟩, hdepths, hnumbers', hstrings'⟩
    · rintro ⟨⟨hkey, hdepth, hnumbers, hstrings⟩, hdepths, hnumbers', hstrings'⟩
      exact ⟨⟨hdepth, hdepths⟩, ⟨hnumbers, hnumbers'⟩, hkey, hstrings, hstrings'⟩

/-- An array keeps to the limits if its items do with one level less. -/
theorem within_array (levels : Nat) (items : Items) :
    (Tree.array items).Within (levels + 1) ↔ ∀ t ∈ items.toList, t.Within levels := by
  rw [← Items.within levels items]
  constructor
  · intro h
    exact ⟨Nat.le_of_succ_le_succ h.depth, h.numbers, h.strings⟩
  · rintro ⟨hdepth, hnumbers, hstrings⟩
    exact ⟨Nat.succ_le_succ hdepth, hnumbers, hstrings⟩

/-- An object keeps to the limits if its keys and values do, these
with one level less. -/
theorem within_object (levels : Nat) (members : Members) :
    (Tree.object members).Within (levels + 1) ↔
      ∀ m ∈ members.toList, Paired false m.1 = true ∧ m.2.Within levels := by
  rw [← Members.within levels members]
  constructor
  · intro h
    exact ⟨Nat.le_of_succ_le_succ h.depth, h.numbers, h.strings⟩
  · rintro ⟨hdepth, hnumbers, hstrings⟩
    exact ⟨Nat.succ_le_succ hdepth, hnumbers, hstrings⟩

/-! ### Keeping a value -/

/-- The value that is written, if it keeps to the limits. -/
def Tree.keep? (levels : Nat) (t : Tree) : Option Value :=
  if t.Within levels then some t.value else none

/-- What is written is kept if it stands for something. For scalars the
limits are the conditions under which they stand for something, and this
is how they are compared. -/
theorem keep?_eq {levels : Nat} {t : Tree} {v? : Option Value}
    (hwithin : t.Within levels ↔ v?.isSome = true) (hvalue : t.value = v?.getD .unreadable) :
    t.keep? levels = v? := by
  rw [Tree.keep?, hvalue]
  cases v? with
  | none => rw [if_neg (by simp [hwithin])]
  | some v => rw [if_pos (by simp [hwithin]), Option.getD_some]

/-- Numbers are kept if they are in the range. They have no brackets and
no strings, so this is the only limit of the three that matters. -/
theorem keep?_number (levels : Nat) (n : Numeral) :
    (Tree.number n).keep? levels = n.number?.map fun x => .scalar (.number x) := by
  refine keep?_eq ?_ (by rw [Tree.value])
  rw [Option.isSome_map, isSome_number?]
  constructor
  · intro h
    exact h.numbers n (List.mem_singleton_self n)
  · intro h
    have hnumbers : ∀ n' ∈ (Tree.number n).numbers, n'.InRange :=
      fun _ hn' => by rwa [List.mem_singleton.mp hn']
    exact ⟨Nat.zero_le _, hnumbers, fun _ hparts => by simp [Tree.strings] at hparts⟩

/-- Strings are kept if no surrogate is alone. The other two limits do
not matter to them. -/
theorem keep?_text (levels : Nat) (parts : List TextPart) :
    (Tree.text parts).keep? levels = (textOf? parts).map fun x => .scalar (.text x) := by
  refine keep?_eq ?_ (by rw [Tree.value])
  rw [Option.isSome_map, isSome_textOf?]
  constructor
  · intro h
    exact h.strings parts (List.mem_singleton_self parts)
  · intro h
    have hstrings : ∀ parts' ∈ (Tree.text parts).strings, Paired false parts' = true :=
      fun _ hparts' => by rw [List.mem_singleton.mp hparts', h]
    exact ⟨Nat.zero_le _, fun _ hn => by simp [Tree.numbers] at hn, hstrings⟩

/-- An array is kept if all its items are, and then with their values. -/
theorem keep?_array (levels : Nat) (items : Items) :
    (Tree.array items).keep? (levels + 1) = (items.toList.mapM (Tree.keep? levels)).map .array := by
  -- An item that is not kept ends the traversal, wherever it stands.
  have hmapM (ts : List Tree) : ts.mapM (Tree.keep? levels) =
      if ∀ t ∈ ts, t.Within levels then some (ts.map Tree.value) else none := by
    induction ts with
    | nil => simp
    | cons t ts ih =>
      rw [List.mapM_cons, ih, Tree.keep?]
      by_cases ht : t.Within levels
      · by_cases hts : ∀ t ∈ ts, t.Within levels
        · rw [if_pos ht, if_pos hts, if_pos (List.forall_mem_cons.mpr ⟨ht, hts⟩)]
          rfl
        · rw [if_pos ht, if_neg hts, if_neg fun h => hts (List.forall_mem_cons.mp h).2]
          rfl
      · rw [if_neg ht, if_neg fun h => ht (List.forall_mem_cons.mp h).1]
        rfl
  rw [Tree.keep?, hmapM, Tree.value, items.values_eq]
  by_cases h : ∀ t ∈ items.toList, t.Within levels
  · rw [if_pos h, if_pos ((within_array levels items).mpr h)]
    rfl
  · rw [if_neg h, if_neg (mt (within_array levels items).mp h)]
    rfl

/-- Puts a member in front of others if its value is kept. -/
def keepMember? (levels : Nat) (members : List (String × Value)) (m : String × Tree) :
    Option (List (String × Value)) :=
  (m.2.keep? levels).map fun v => (m.1, v) :: members

/-- All keys of an object stand for texts if no surrogate in them is alone. -/
theorem isSome_named? : (members : Members) →
    (members.named?.isSome = true ↔ ∀ m ∈ members.toList, Paired false m.1 = true)
  | .nil _ => by simp [Members.named?, Members.toList]
  | .cons _ key _ _ t _ others => by
    rw [named?_cons, Members.toList, List.forall_mem_cons, ← isSome_named? others,
      ← isSome_textOf? key]
    cases textOf? key <;> simp

/-- Members are kept in turn if all keys stand for texts and all values
are kept. The latest one stands first, as the reader collects them. By
recursion on the members; a key that stands for no text has the whole
object refused, be it before or after the others are looked at. -/
theorem foldlM_keepMember? (levels : Nat) : (members : Members) →
    (kept : List (String × Value)) →
    (members.named?.bind fun ms => ms.foldlM (keepMember? levels) kept) =
      if ∀ m ∈ members.toList, Paired false m.1 = true ∧ m.2.Within levels then
        members.values?.map fun ms => ms.reverse ++ kept
      else none
  | .nil _, kept => by simp [Members.named?, Members.toList, Members.values?]
  | .cons before key beforeColon afterColon t after others, kept => by
    have hpaired := isSome_textOf? key
    rw [named?_cons, Members.toList, Members.values?]
    cases hkey : textOf? key with
    | none =>
      have hlone : Paired false key = false := by rw [← hpaired, hkey]; rfl
      rw [if_neg fun h => by simp [hlone] at h]
      rfl
    | some k =>
      -- What is asked of all members is asked of this one and of the others.
      have hall : (∀ m ∈ (key, t) :: others.toList, Paired false m.1 = true ∧ m.2.Within levels) ↔
          t.Within levels ∧ ∀ m ∈ others.toList, Paired false m.1 = true ∧ m.2.Within levels := by
        simp [← hpaired, hkey]
      have hothers := foldlM_keepMember? levels others ((k, t.value) :: kept)
      -- The member is kept or it ends the traversal, and only then the others are
      -- looked at.
      by_cases ht : t.Within levels
      · have hkeep : keepMember? levels kept (k, t) = some ((k, t.value) :: kept) := by
          rw [keepMember?, Tree.keep?, if_pos ht]
          rfl
        rw [if_congr (hall.trans (and_iff_right ht)) rfl rfl]
        cases hnamed : others.named? with
        | none => simp [others.values?_eq, hnamed]
        | some ms =>
          rw [hnamed] at hothers
          show (keepMember? levels kept (k, t)).bind _ = _
          rw [hkeep]
          refine hothers.trans (if_congr Iff.rfl ?_ rfl)
          cases others.values? <;> simp
      · have hkeep : keepMember? levels kept (k, t) = none := by
          rw [keepMember?, Tree.keep?, if_neg ht]
          rfl
        rw [if_neg fun h => ht (hall.mp h).1]
        cases others.named? with
        | none => rfl
        | some ms =>
          show (keepMember? levels kept (k, t)).bind _ = _
          rw [hkeep]
          rfl

/-- An object is kept if all its keys stand for texts and all its values
are kept. Its members are turned around at the end, so they stand in the
order of the text. -/
theorem keep?_object (levels : Nat) (members : Members) :
    (Tree.object members).keep? (levels + 1) =
      (members.named?.bind fun ms => ms.foldlM (keepMember? levels) []).map
        fun kept => .object kept.reverse := by
  rw [foldlM_keepMember?, Tree.keep?, Tree.value]
  by_cases h : ∀ m ∈ members.toList, Paired false m.1 = true ∧ m.2.Within levels
  · have hvalues : members.values?.isSome = true := by
      rw [members.values?_eq, Option.isSome_map, isSome_named?]
      exact fun m hm => (h m hm).1
    obtain ⟨ms, hms⟩ := Option.isSome_iff_exists.mp hvalues
    rw [if_pos h, if_pos ((within_object levels members).mpr h), hms]
    simp
  · rw [if_neg h, if_neg (mt (within_object levels members).mp h)]
    rfl

/-- A value is kept if it is kept from each beginning. This is
`reads_of_start` for the reader that keeps values as they are: scalars
are kept as scalars, and what is made of arrays and objects is left to
the two hypotheses. -/
theorem keeps_of_start {levels : Nat} {value : Bytes → Except Fault (Value × Bytes)}
    {read : Start → Except Fault (Value × Bytes)} (hvalue : ∀ s, value s = readStart s >>= read)
    (hscalar : ∀ x rest, read (.scalar x rest) = .ok (.scalar x, rest))
    (harray : ∀ (items : Items) (rest : Bytes),
      (read (.array (items.bytes true ++ rest))).toOption
        = ((Tree.array items).keep? levels).map (·, rest))
    (hobject : ∀ (members : Members) (rest : Bytes),
      (read (.object (members.bytes true ++ rest))).toOption
        = ((Tree.object members).keep? levels).map (·, rest)) :
    Reads value (Tree.keep? levels) := by
  intro gap t rest hrest
  rw [hvalue, toOption_bind, readStart_bytes gap t hrest]
  -- Only numbers and strings may have no beginning, and then they are not kept.
  cases t with
  | null =>
    show (read (.scalar .null rest)).toOption = _
    rw [hscalar]
    rfl
  | flag b =>
    show (read (.scalar (.flag b) rest)).toOption = _
    rw [hscalar]
    rfl
  | number n =>
    rw [keep?_number, Tree.start?]
    cases n.number? with
    | none => rfl
    | some x =>
      show (read (.scalar (.number x) rest)).toOption = _
      rw [hscalar]
      rfl
  | text parts =>
    rw [keep?_text, Tree.start?]
    cases textOf? parts with
    | none => rfl
    | some x =>
      show (read (.scalar (.text x) rest)).toOption = _
      rw [hscalar]
      rfl
  | array items => exact harray items rest
  | object members => exact hobject members rest

/-- A reader of values of any shape accepts what keeps to the limits,
and reads what is written. The induction is on the levels, and without
any left every bracket is refused. -/
theorem reads_value (levels : Nat) : Reads (readValue levels) (Tree.keep? levels) := by
  induction levels with
  | zero =>
    have hbrackets (t : Tree) (h : 0 < t.depth) : t.keep? 0 = none :=
      if_neg fun hwithin => Nat.not_lt.mpr hwithin.depth h
    refine keeps_of_start (fun s => by rw [readValue]) ?_ (fun items rest => ?_)
      fun members rest => ?_
    · intro x rest
      rfl
    · rw [hbrackets (.array items) (Nat.succ_pos _)]
      rfl
    · rw [hbrackets (.object members) (Nat.succ_pos _)]
      rfl
  | succ levels ih =>
    refine keeps_of_start (fun s => by rw [readValue]) ?_ (fun items rest => ?_)
      fun members rest => ?_
    · intro x rest
      rfl
    · have hitems := readItems_bytes ih items rest
      rw [keep?_array]
      exact toOption_map hitems Value.array
    -- A member is a key, a colon and a value that may have one level less.
    · have hmember : ReadsMember (readMemberOf (readValue levels)) (keepMember? levels) := by
        intro key kept beforeColon afterColon t rest hrest
        have ht := ih afterColon t rest hrest
        rw [readMemberOf, readColon_gap, keepMember?]
        exact toOption_map ht fun v => (key, v) :: kept
      have hmembers := readMembers_bytes hmember members [] rest
      rw [keep?_object]
      exact toOption_map hmembers fun kept => Value.object kept.reverse

end NpuAttribution.Json
