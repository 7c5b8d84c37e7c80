import NpuAttribution.Proofs.Device.Rendering

/-!
# `NpuAttribution.Proofs.Device.Expansion`: how many indices a value can stand for

A range stands for more indices than it has characters, so a short value may be a long list. How
long it may be is said by `expands_boundedly`, which also says where ranges have no part in it: a
value without ranges gives one index for an entry at most, and no index above 32767 is that of a
range.

The bound is found by letting each entry pay for its indices. A character of an entry pays for
4096 of them, and so does the comma behind it. Eight characters pay for the widest range, and
`0-32767` with its comma has just eight. A shorter range does not reach that far, and in a longer
one there is a character to spare (`Gives.length_le`). There are 1025 characters to pay with, if
one comma too many is counted. As 1025 is no multiple of eight, not every entry can be of seven
characters, or else not all characters are used. Either way one of them is left over, and 1024 of
them pay for the indices of 128 ranges. So many ranges do fit into a value
(`length_decode_widest`).
-/

set_option autoImplicit false

namespace NpuAttribution.Device

namespace VisibleDevices

open NpuAttribution.Text

/-- An entry is a single number, or a name with a number if the value
is one with names. -/
def IsSingle (value : String) (entry : List Char) (i : Nat) : Prop :=
  ¬ NameIndexed value ∧ IsIndex entry i ∨ NameIndexed value ∧ ∃ name, IsNamed entry name i

/-- What an entry of a value may give: nothing, a single index, or the
members of a range, none of which is above 32767. -/
inductive Gives (value : String) (entry : List Char) : List Nat → Prop
  | nothing : Gives value entry []
  | single {i : Nat} (hsingle : IsSingle value entry i) : Gives value entry [i]
  | range {low high : Nat} (hplain : ¬ NameIndexed value)
    (hwrites : (Item.range low high).Writes entry) (hle : low ≤ high) (hreach : high ≤ 32767) :
    Gives value entry (Item.range low high).indices

/-- Values do not expand without bound:

- `total`: no value, of whatever length, gives more than 4194304
  indices;
- `attained`: there is a value that gives so many;
- `onePerEntry`: with names, or without a minus sign, there are not more
  indices than entries;
- `traced`: all indices are given by the entries, one entry after the
  other, and an entry that gives an index above 32767 gives just this
  one, being a single number or a name with one. -/
structure ExpandsBoundedly (container : String) : Prop where
  total : ∀ value : String, (decode container value).devices.length ≤ 128 * 32768
  attained : ∃ value : String, (decode container value).devices.length = 128 * 32768
  onePerEntry : ∀ value : String, NameIndexed value ∨ '-' ∉ value.toList →
    (decode container value).devices.length ≤ (entries value).length
  traced : ∀ value : String, ∃ given : List Char → List Nat,
    (decode container value).devices = (entries value).flatMap given ∧
      ∀ entry ∈ entries value, Gives value entry (given entry) ∧
        ∀ i ∈ given entry, 32767 < i → given entry = [i] ∧ IsSingle value entry i

variable {container value : String} {entry : List Char} {ids : List Nat}

/-! ### What the entries give -/

/-- What an entry stands for in a value without names is something
that it may give. -/
theorem gives_of_standsFor (hplain : ¬ NameIndexed value) (h : StandsFor entry ids) :
    Gives value entry ids := by
  obtain ⟨item, hvalid, hwrites, rfl⟩ := h
  cases item with
  | index i => exact .single (.inl ⟨hplain, hwrites⟩)
  | range low high => exact .range hplain hwrites hvalid.1 hvalid.2

/-- What an entry stands for in a value with names is something that it
may give. -/
theorem gives_of_namedFor (hnames : NameIndexed value) (h : NamedFor entry ids) :
    Gives value entry ids := by
  obtain ⟨name, i, hnamed, -, rfl⟩ := h
  exact .single (.inr ⟨hnames, name, hnamed⟩)

/-- What a reader finds in an entry is what the entry gives, or
nothing with a warning. -/
theorem Reads.gives {Means : List Char → List Nat → Prop} {read : List Char → Selection}
    (h : Reads Means read) (hmeans : ∀ {ids}, Means entry ids → Gives value entry ids) :
    Gives value entry (read entry).devices := by
  have hcontributes := h.contributes entry
  generalize read entry = s at hcontributes
  cases hcontributes with
  | indices hids => exact hmeans hids
  | warning => exact .nothing

/-- All that is decoded is given by the entries, one after the other.
There are three kinds of values: those that are too long, those with
names and those without. -/
theorem exists_given (container value : String) : ∃ given : List Char → List Nat,
    (decode container value).devices = (entries value).flatMap given ∧
      ∀ entry, Gives value entry (given entry) := by
  by_cases hshort : value.utf8ByteSize ≤ maxValueBytes
  · by_cases hnames : NameIndexed value
    · refine ⟨fun entry => (selectNamed container entry).devices, ?_, fun entry =>
        (reads_named container).gives (gives_of_namedFor hnames)⟩
      rw [decode_named hshort hnames]
      exact List.flatMap_map ..
    · refine ⟨fun entry => (selectIndexOrRange container entry).devices, ?_, fun entry =>
        (reads_item container).gives (gives_of_standsFor hnames)⟩
      rw [decode_plain hshort hnames]
      exact List.flatMap_map ..
  · -- The entries of a value that is too long give nothing.
    refine ⟨fun _ => [], ?_, fun _ => .nothing⟩
    rw [decode, if_pos (Nat.lt_of_not_le hshort), List.flatMap_eq_nil_iff.mpr fun _ _ => rfl]
    rfl

/-- An index above 32767 is not given together with others, since a
range reaches no further. -/
theorem Gives.isSingle (h : Gives value entry ids) {i : Nat} (hi : i ∈ ids) (hlarge : 32767 < i) :
    ids = [i] ∧ IsSingle value entry i := by
  cases h with
  | nothing => cases hi
  | single hsingle =>
    obtain rfl := List.mem_singleton.mp hi
    exact ⟨rfl, hsingle⟩
  | range _ _ _ hreach =>
    have hlt := (List.Ico.mem.mp hi).2
    omega

/-- Where there are no ranges, an entry gives one index at most. A range
has a minus sign, which would be one of the value too. -/
theorem Gives.length_le_one (h : Gives value entry ids) (hentry : entry ∈ entries value)
    (hsingle : NameIndexed value ∨ '-' ∉ value.toList) : ids.length ≤ 1 := by
  cases h with
  | nothing => exact Nat.zero_le 1
  | single => exact Nat.le_refl 1
  | range hplain hwrites =>
    obtain ⟨lowText, highText, -, -, rfl⟩ := hwrites
    have hminus : '-' ∈ value.toList := (infix_of_mem_splitOn hentry).1.subset (by simp)
    exact absurd hsingle (not_or.mpr ⟨hplain, not_not.mpr hminus⟩)

/-! ### How many they are -/

/-- The characters of an entry pay for its indices, but for an entry of
seven characters: it may be the widest range, for which eight must pay.
Each character pays for 4096 indices. -/
theorem Gives.length_le (h : Gives value entry ids) :
    ids.length ≤ 32768 ∧ (entry.length ≠ 7 → ids.length ≤ 4096 * entry.length) := by
  cases h with
  | nothing => exact ⟨Nat.zero_le _, fun _ => Nat.zero_le _⟩
  | single hsingle =>
    have hpos : 0 < entry.length := by
      rcases hsingle with ⟨-, hindex⟩ | ⟨-, name, -, indexText, -, rfl⟩
      · exact hindex.length_pos
      · simp
    rw [List.length_singleton]
    omega
  | @range low high _ hwrites hle hreach =>
    obtain ⟨lowText, highText, hlow, hhigh, rfl⟩ := hwrites
    have hpos := hlow.length_pos
    have hlt := hhigh.lt_pow_length
    show (List.Ico low (high + 1)).length ≤ _ ∧ (_ → (List.Ico low (high + 1)).length ≤ _)
    rw [List.Ico.length, List.length_append, List.length_cons]
    refine ⟨by omega, fun hne => ?_⟩
    -- A range of less than seven characters has four digits at its end, or fewer.
    by_cases hfew : highText.length ≤ 4
    · have hpow : ∀ n ≤ 4, 10 ^ n ≤ 4096 * (n + 2) := by decide
      have hpaid := hpow highText.length hfew
      omega
    · omega

/-- Entries pay for their indices, with one character to spare unless
their characters can be counted in eights. The commas are counted with
the entries here. The induction is on the entries. -/
theorem length_flatMap_le {given : List Char → List Nat}
    (h : ∀ entry, Gives value entry (given entry)) (texts : List (List Char)) :
    8 ∣ (texts.map (·.length + 1)).sum ∧
        (texts.flatMap given).length ≤ 4096 * (texts.map (·.length + 1)).sum ∨
      (texts.flatMap given).length + 4096 ≤ 4096 * (texts.map (·.length + 1)).sum := by
  -- An entry of seven characters changes neither case, and any other has one to spare.
  induction texts with
  | nil => exact .inl ⟨Nat.dvd_zero 8, Nat.le_refl 0⟩
  | cons entry texts ih =>
    obtain ⟨hmost, hother⟩ := (h entry).length_le
    rw [List.flatMap_cons, List.length_append, List.map_cons, List.sum_cons]
    by_cases hseven : entry.length = 7
    · rw [hseven]
      omega
    · have hpaid := hother hseven
      omega

/-- Entries that give one index at most give not more indices than
there are entries. -/
theorem length_flatMap_le_length {texts : List (List Char)} {given : List Char → List Nat}
    (h : ∀ entry ∈ texts, (given entry).length ≤ 1) :
    (texts.flatMap given).length ≤ texts.length := by
  induction texts with
  | nil => exact Nat.le_refl 0
  | cons entry texts ih =>
    have hentry := h entry List.mem_cons_self
    have hrest := ih fun entry hentry => h entry (List.mem_cons_of_mem _ hentry)
    rw [List.flatMap_cons, List.length_append, List.length_cons]
    omega

/-- If a comma is counted with each piece then one is counted too many,
as there is none behind the last piece. -/
theorem sum_length_splitOn (cs : List Char) :
    ((cs.splitOn ',').map (·.length + 1)).sum = cs.length + 1 := by
  induction hlength : cs.length using Nat.strongRecOn generalizing cs with
  | _ n ih =>
    rcases splitOn_cases ',' cs with ⟨-, hsplit⟩ | ⟨first, rest, rfl, -, hsplit⟩
    · rw [hsplit, List.map_singleton, List.sum_singleton, hlength]
    · rw [List.length_append, List.length_cons] at hlength
      have hrest := ih rest.length (by omega) rest rfl
      rw [hsplit, List.map_cons, List.sum_cons, hrest]
      omega

/-- A text has a byte for each character at least. The limit of a value
is one of bytes, and its entries are counted by characters. -/
theorem length_le_utf8ByteSize (value : String) : value.toList.length ≤ value.utf8ByteSize := by
  rw [← value.ofList_toList]
  induction value.toList with
  | nil => exact Nat.zero_le _
  | cons c cs ih =>
    have hcons : String.ofList ([c] ++ cs) = String.ofList [c] ++ String.ofList cs :=
      String.ofList_append
    have hsize : (String.ofList [c]).utf8ByteSize = c.utf8Size := String.utf8ByteSize_singleton
    have hpos := c.utf8Size_pos
    rw [String.toList_ofList] at ih ⊢
    rw [← List.singleton_append, hcons, String.utf8ByteSize_append, hsize, List.length_append,
      List.length_singleton]
    omega

/-- No value gives more indices than 128 of the widest ranges would.
With 1025 characters to pay with, which are no multiple of eight, one of
them is to spare. -/
theorem length_decode_le (container value : String) :
    (decode container value).devices.length ≤ 128 * 32768 := by
  by_cases hshort : value.utf8ByteSize ≤ maxValueBytes
  · obtain ⟨given, hdevices, hgives⟩ := exists_given container value
    have hpaid := length_flatMap_le hgives (entries value)
    have hsum : ((entries value).map (·.length + 1)).sum = value.toList.length + 1 :=
      sum_length_splitOn value.toList
    have hlength := length_le_utf8ByteSize value
    have hmax : maxValueBytes = 1024 := rfl
    rw [← hdevices, hsum] at hpaid
    omega
  · rw [decode, if_pos (Nat.lt_of_not_le hshort)]
    exact Nat.zero_le _

/-! ### The longest list -/

/-- The widest range, written as short as can be. -/
def widest : Token := ⟨.range 0 32767, "0-32767", Item.writes_render (.range 0 32767)⟩

/-- As many of the widest ranges as fit into a value give as many
indices as there can be. So the bound cannot be improved. -/
theorem length_decode_widest (container : String) :
    (decode container (join ((List.replicate 128 widest).map (·.text)))).devices.length =
      128 * 32768 := by
  have hvalid : ∀ t ∈ List.replicate 128 widest, t.item.Valid := by
    intro t ht
    rw [List.eq_of_mem_replicate ht]
    exact ⟨Nat.zero_le _, Nat.le_refl _⟩
  have hne : List.replicate 128 widest ≠ [] := List.cons_ne_nil _ _
  have hshort : (join ((List.replicate 128 widest).map (·.text))).utf8ByteSize ≤ maxValueBytes := by
    decide +kernel
  have hlength : widest.item.indices.length = 32768 := List.Ico.length 0 32768
  rw [decode_tokens hne hshort, concat_tokens hvalid]
  show ((List.replicate 128 widest).flatMap (·.item.indices)).length = _
  rw [List.length_flatMap, List.map_replicate, hlength, List.sum_replicate_nat]

/-- Values do not expand without bound. The bound is the one for all
entries together, and it is attained; the other parts are about what
each entry gives by itself, which is one device if it is not a range. -/
theorem expands_boundedly (container : String) : ExpandsBoundedly container where
  total := length_decode_le container
  attained := ⟨_, length_decode_widest container⟩
  onePerEntry value hsingle := by
    obtain ⟨given, hdevices, hgives⟩ := exists_given container value
    rw [hdevices]
    exact length_flatMap_le_length fun entry hentry =>
      (hgives entry).length_le_one hentry hsingle
  traced value := by
    obtain ⟨given, hdevices, hgives⟩ := exists_given container value
    exact ⟨given, hdevices, fun entry _ =>
      ⟨hgives entry, fun _ hi hlarge => (hgives entry).isSingle hi hlarge⟩⟩

-- Behind a name the same entry is an index that as a range it cannot be.
example : decode "c1" "32768,2-32768" = ⟨[32768], [.invalidEntry "c1" "2-32768" .outOfRange]⟩ ∧
    decode "c1" "npu-32768,2-32768" = ⟨[32768, 32768], []⟩ := by
  decide +kernel

end VisibleDevices

end NpuAttribution.Device
