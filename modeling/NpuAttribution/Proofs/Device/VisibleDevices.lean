import Mathlib.Data.List.Forall2
import NpuAttribution.Proofs.Device.Entries
import NpuAttribution.Proofs.Device.Selection

/-!
# `NpuAttribution.Proofs.Device.VisibleDevices`: a value is decoded entry by entry

The encoding of a value is told from the value as a whole: there is a name in it, a minus sign, a
comma. What comes of it is nevertheless a matter of the single entries. Without names the three
encodings that are left differ only in what they need not look for, and `decode_plain` says that
each entry is read as an index or a range. With names each entry is read as a name and an index
(`decode_named`).

`decodes_entrywise` is what follows from this: values may be put together and taken apart at a
comma, and every entry gives indices or one warning, but not both.
-/

set_option autoImplicit false

namespace NpuAttribution.Device

namespace VisibleDevices

open NpuAttribution.Text

/-- What stands between the commas of a value. -/
def entries (value : String) : List (List Char) := value.toList.splitOn ','

/-- One of the entries looks like a name and an index. -/
def NameIndexed (value : String) : Prop := ∃ entry ∈ entries value, LooksNamed entry

/-- What an entry contributes: the indices that it stands for, or one warning. -/
inductive Contributes (Means : List Char → List Nat → Prop) (entry : List Char) : Selection → Prop
  | indices {ids : List Nat} (hmeans : Means entry ids) (hne : ids ≠ []) :
    Contributes Means entry ⟨ids, []⟩
  | warning {w : Warning} (hnone : ∀ ids, ¬ Means entry ids) :
    Contributes Means entry (.warning w)

/-- A selection accounts for the entries of a value: it is made of what
each of them contributes, and it has as many warnings as there are
entries that contribute no index. -/
def AccountsFor (Means : List Char → List Nat → Prop) (value : String) (s : Selection) : Prop :=
  ∃ parts : List Selection, List.Forall₂ (Contributes Means) (entries value) parts ∧
    s = .concat parts ∧ s.warnings.length = parts.countP (·.devices.isEmpty)

/-- Values are decoded entry by entry:

- `joined`: two values of one kind with a comma between them give what
  the one gives and then what the other gives, as to the indices and as
  to the warnings;
- `alone`: in a value without names, every entry gives what it gives as
  a value of its own;
- `plain`, `named`: every entry gives the indices that it stands for, or
  else one warning;
- `tooLong`: a value that is too long gives no index, and one warning. -/
structure DecodesEntrywise (container : String) : Prop where
  joined : ∀ a b : String, a.utf8ByteSize + 1 + b.utf8ByteSize ≤ 1024 →
    (NameIndexed a ↔ NameIndexed b) →
      decode container (a ++ "," ++ b) = .concat [decode container a, decode container b]
  alone : ∀ value : String, value.utf8ByteSize ≤ 1024 → ¬ NameIndexed value →
    decode container value =
      .concat ((entries value).map fun entry => decode container (String.ofList entry))
  plain : ∀ value : String, value.utf8ByteSize ≤ 1024 → ¬ NameIndexed value →
    AccountsFor StandsFor value (decode container value)
  named : ∀ value : String, value.utf8ByteSize ≤ 1024 → NameIndexed value →
    AccountsFor NamedFor value (decode container value)
  tooLong : ∀ value : String, 1024 < value.utf8ByteSize →
    decode container value = .warning (.valueTooLong container value.utf8ByteSize)

variable {container value : String}

/-! ### The four encodings -/

/-- A comma between two values keeps the entries of both. -/
theorem entries_append (a b : String) : entries (a ++ "," ++ b) = entries a ++ entries b := by
  show (a ++ "," ++ b).toList.splitOn ',' = a.toList.splitOn ',' ++ b.toList.splitOn ','
  rw [String.toList_append, String.toList_append, List.append_assoc]
  exact List.splitOn_append_cons_self a.toList b.toList

/-- An entry on its own is the only entry, as there is no comma in it. -/
theorem entries_ofList {entry : List Char} (h : entry ∈ entries value) :
    entries (String.ofList entry) = [entry] := by
  show (String.ofList entry).toList.splitOn ',' = [entry]
  rw [String.toList_ofList, List.splitOn_eq_singleton (infix_of_mem_splitOn h).2]

/-- An entry is not longer than the value, so it is not too long if
the value is not. -/
theorem utf8ByteSize_le {entry : List Char} (h : entry ∈ entries value) :
    (String.ofList entry).utf8ByteSize ≤ value.utf8ByteSize := by
  obtain ⟨before, after, hvalue⟩ := (infix_of_mem_splitOn h).1
  rw [← value.ofList_toList, ← hvalue, String.ofList_append, String.ofList_append,
    String.utf8ByteSize_append, String.utf8ByteSize_append]
  omega

/-- Whether a value has names is asked of its entries one by one. -/
theorem nameIndexed_iff :
    NameIndexed value ↔ (value.toList.splitOn ',').any isNameLike = true := by
  rw [List.any_eq_true]
  exact exists_congr fun entry => and_congr_right fun _ => isNameLike_iff.symm

/-- Two values have a name between them if one of them has. -/
theorem nameIndexed_append (a b : String) :
    NameIndexed (a ++ "," ++ b) ↔ NameIndexed a ∨ NameIndexed b := by
  unfold NameIndexed
  rw [entries_append]
  simp only [List.mem_append, or_and_right, exists_or]

/-- A value that is not too long is decoded in its encoding. -/
theorem decode_of_short (hshort : value.utf8ByteSize ≤ maxValueBytes) :
    decode container value = select container value.toList (Encoding.detect value.toList) :=
  if_neg (Nat.not_lt.mpr hshort)

/-- If there is a name then all entries are read as names with an index,
those without a name too. -/
theorem decode_named (hshort : value.utf8ByteSize ≤ maxValueBytes) (h : NameIndexed value) :
    decode container value = .concat ((entries value).map (selectNamed container)) := by
  have hdetect : Encoding.detect value.toList = .named := if_pos (nameIndexed_iff.mp h)
  rw [decode_of_short hshort, hdetect]
  rfl

/-- If there is no name then all entries are read as indices or
ranges, in whichever of the other three encodings the value is. The
encoding is found by looking for a comma and a minus sign in the value
as a whole; here it turns out that looking at each entry by itself
comes to the same. -/
theorem decode_plain (hshort : value.utf8ByteSize ≤ maxValueBytes) (h : ¬ NameIndexed value) :
    decode container value = .concat ((entries value).map (selectIndexOrRange container)) := by
  have hdetect : Encoding.detect value.toList =
      if value.toList.contains '-' then
        if value.toList.contains ',' then .mixed else .range
      else .list := if_neg fun hany => h (nameIndexed_iff.mpr hany)
  rw [decode_of_short hshort, hdetect]
  by_cases hminus : value.toList.contains '-' = true
  · rw [if_pos hminus]
    by_cases hcomma : value.toList.contains ',' = true
    · rw [if_pos hcomma]
      rfl
    · -- A range is the only entry of its value.
      have hentries : entries value = [value.toList] :=
        List.splitOn_eq_singleton fun hmem => hcomma (List.contains_iff_mem.mpr hmem)
      have hrange : selectIndexOrRange container value.toList =
          selectRange container value.toList := if_pos hminus
      rw [if_neg hcomma, hentries, List.map_singleton, Selection.concat_singleton, hrange]
      rfl
  · rw [if_neg hminus]
    show Selection.concat ((entries value).map (selectIndex container)) = _
    refine congrArg Selection.concat (List.map_congr_left fun entry hentry => ?_)
    -- No entry has a minus sign that the value does not have.
    have hentryMinus : ¬ entry.contains '-' = true := by
      intro hmem
      have hsub := (infix_of_mem_splitOn hentry).1.subset (List.contains_iff_mem.mp hmem)
      exact hminus (List.contains_iff_mem.mpr hsub)
    exact (if_neg hentryMinus).symm

/-- The devices do not depend on whose value it is. Only the warnings
name the container. -/
theorem devices_decode (container container' value : String) :
    (decode container value).devices = (decode container' value).devices := by
  have hconcat {Means : List Char → List Nat → Prop} {read read' : List Char → Selection}
      (h : Reads Means read) (h' : Reads Means read') :
      (Selection.concat ((entries value).map read)).devices =
        (Selection.concat ((entries value).map read')).devices := by
    show ((entries value).map read).flatMap (·.devices) =
      ((entries value).map read').flatMap (·.devices)
    rw [List.flatMap_map, List.flatMap_map]
    exact List.flatMap_congr fun entry _ => h.devices_eq h' entry
  by_cases hshort : value.utf8ByteSize ≤ maxValueBytes
  · by_cases hnamed : NameIndexed value
    · rw [decode_named hshort hnamed, decode_named hshort hnamed]
      exact hconcat (reads_named container) (reads_named container')
    · rw [decode_plain hshort hnamed, decode_plain hshort hnamed]
      exact hconcat (reads_item container) (reads_item container')
  · have hlong : maxValueBytes < value.utf8ByteSize := Nat.lt_of_not_le hshort
    rw [decode, if_pos hlong, decode, if_pos hlong]
    rfl

/-! ### Putting together and accounting for entries -/

/-- Two values of one kind with a comma between them are decoded one
after the other. If only one of them had names then the entries of the
other would be read in another way. -/
theorem decode_joined {a b : String} (hshort : a.utf8ByteSize + 1 + b.utf8ByteSize ≤ maxValueBytes)
    (hkind : NameIndexed a ↔ NameIndexed b) :
    decode container (a ++ "," ++ b) = .concat [decode container a, decode container b] := by
  have hsize : (a ++ "," ++ b).utf8ByteSize ≤ maxValueBytes := by
    rw [String.utf8ByteSize_append, String.utf8ByteSize_append]
    exact hshort
  have ha : a.utf8ByteSize ≤ maxValueBytes := by omega
  have hb : b.utf8ByteSize ≤ maxValueBytes := by omega
  by_cases hnamed : NameIndexed a
  · rw [decode_named hsize ((nameIndexed_append a b).mpr (.inl hnamed)), decode_named ha hnamed,
      decode_named hb (hkind.mp hnamed), entries_append, List.map_append, Selection.concat_append]
  · have hplain : ¬ NameIndexed b := mt hkind.mpr hnamed
    have hboth : ¬ NameIndexed (a ++ "," ++ b) := fun h =>
      ((nameIndexed_append a b).mp h).elim hnamed hplain
    rw [decode_plain hsize hboth, decode_plain ha hnamed, decode_plain hb hplain, entries_append,
      List.map_append, Selection.concat_append]

/-- In a value without names, each entry is decoded as if it were
the whole value. -/
theorem decode_alone (hshort : value.utf8ByteSize ≤ maxValueBytes) (h : ¬ NameIndexed value) :
    decode container value =
      .concat ((entries value).map fun entry => decode container (String.ofList entry)) := by
  rw [decode_plain hshort h]
  refine congrArg Selection.concat (List.map_congr_left fun entry hentry => ?_)
  have hplain : ¬ NameIndexed (String.ofList entry) := by
    rintro ⟨entry', hentry', hnamed⟩
    rw [entries_ofList hentry, List.mem_singleton] at hentry'
    exact h ⟨entry, hentry, hentry' ▸ hnamed⟩
  rw [decode_plain (Nat.le_trans (utf8ByteSize_le hentry) hshort) hplain, entries_ofList hentry,
    List.map_singleton, Selection.concat_singleton]

/-- What a reader gives for an entry is what the entry contributes. -/
theorem Reads.contributes {Means : List Char → List Nat → Prop} {read : List Char → Selection}
    (h : Reads Means read) (entry : List Char) : Contributes Means entry (read entry) := by
  by_cases hmeans : ∃ ids, Means entry ids
  · obtain ⟨ids, hids⟩ := hmeans
    obtain ⟨hne, hread⟩ := h.found hids
    rw [hread]
    exact .indices hids hne
  · have hnone : ∀ ids, ¬ Means entry ids := fun ids hids => hmeans ⟨ids, hids⟩
    obtain ⟨w, hread⟩ := h.refused hnone
    rw [hread]
    exact .warning hnone

/-- Selections of which each has some indices or one warning have as
many warnings as there are selections without an index. The induction is
on the selections. -/
theorem length_warnings_concat {Means : List Char → List Nat → Prop} {texts : List (List Char)}
    {parts : List Selection} (h : List.Forall₂ (Contributes Means) texts parts) :
    (Selection.concat parts).warnings.length = parts.countP (·.devices.isEmpty) := by
  induction h with
  | nil => rfl
  | cons hpart _ ih =>
    rw [Selection.concat_cons, List.length_append, List.countP_cons, ih]
    cases hpart with
    | indices _ hne => simp [hne]
    | warning _ => simp [Selection.warning, Nat.add_comm]

/-- Reading the entries one by one accounts for all of them. -/
theorem Reads.accountsFor {Means : List Char → List Nat → Prop} {read : List Char → Selection}
    (h : Reads Means read) (value : String) :
    AccountsFor Means value (.concat ((entries value).map read)) := by
  have hparts : List.Forall₂ (Contributes Means) (entries value) ((entries value).map read) := by
    rw [List.forall₂_map_right_iff, List.forall₂_same]
    exact fun entry _ => h.contributes entry
  exact ⟨_, hparts, rfl, length_warnings_concat hparts⟩

/-- Values are decoded entry by entry: which of the two kinds of
entries they have is decided for the value as a whole, and after that
no entry has anything to do with another one. That the limit is one on
the bytes of the whole value is the only other thing about it that is
not a matter of entries. -/
theorem decodes_entrywise (container : String) : DecodesEntrywise container where
  joined _ _ hshort hkind := decode_joined hshort hkind
  alone _ hshort hplain := decode_alone hshort hplain
  plain value hshort hplain := by
    rw [decode_plain hshort hplain]
    exact (reads_item container).accountsFor value
  named value hshort hnamed := by
    rw [decode_named hshort hnamed]
    exact (reads_named container).accountsFor value
  tooLong _ hlong := if_pos hlong

-- The entry in the middle has a meaning only if no entry looks like a name.
example : decode "c1" "1,2-3" = ⟨[1, 2, 3], []⟩ ∧ decode "c1" "a-1,2-3" = ⟨[1, 3], []⟩ := by
  decide +kernel

end VisibleDevices

end NpuAttribution.Device
