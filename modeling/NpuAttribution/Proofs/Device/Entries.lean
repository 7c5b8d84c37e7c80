import Mathlib.Data.List.Intervals
import NpuAttribution.Device.VisibleDevices
import NpuAttribution.Proofs.Text.Blank
import NpuAttribution.Proofs.Text.Split

/-!
# `NpuAttribution.Proofs.Device.Entries`: what one entry of a visible-devices value stands for

An entry is what stands between two commas. In a value without names it stands for an index or
for a range of indices (`Item`), and in a value with names for the index behind a name. Both are
said here in terms of texts that are put together: `Item.Writes` and `IsNamed` do not take an
entry apart, and no reader occurs in them.

`Reads` ties such a meaning to a reader: an entry that stands for some indices gives just them,
and any other entry gives one warning. `reads_item` and `reads_named` are the two instances.
Whether a value has names at all is decided by `LooksNamed`, which is about entries as well.
-/

set_option autoImplicit false

namespace NpuAttribution.Device.VisibleDevices

open NpuAttribution.Text

/-! ### Indices -/

/-- A text is an index if it is a numeral, with any blanks around it. -/
def IsIndex (text : List Char) (i : Nat) : Prop :=
  ∃ before numeral after, AllBlank before ∧ AllBlank after ∧
    text = before ++ numeral ++ after ∧ IsNumeral numeral i

/-- The characters of which indices are made. -/
def IsIndexChar (c : Char) : Prop := isBlank c = true ∨ c = '+' ∨ ∃ d, c = digitChar d

section
variable {text : List Char} {c : Char} {i : Nat}

/-- No character of an index is a comma, so an index is never taken apart. -/
theorem IsIndexChar.ne_comma (h : IsIndexChar c) : c ≠ ',' := by
  rintro rfl
  revert h
  unfold IsIndexChar
  decide

/-- No character of an index is a minus sign, so a range has just one. -/
theorem IsIndexChar.ne_minus (h : IsIndexChar c) : c ≠ '-' := by
  rintro rfl
  revert h
  unfold IsIndexChar
  decide

/-- No character of an index is a letter, so an index never looks like a name. -/
theorem IsIndexChar.isAlpha (h : IsIndexChar c) : c.isAlpha = false := by
  rcases h with hblank | rfl | ⟨d, rfl⟩
  · exact isAlpha_of_isBlank hblank
  · decide
  · revert d
    decide

/-- There are no blanks in a numeral, so trimming finds just the
blanks around it. -/
theorem not_isBlank_of_isNumeral (h : IsNumeral text i) (hc : c ∈ text) : isBlank c = false := by
  rcases h.eq_of_mem hc with rfl | ⟨d, rfl⟩
  · decide
  · exact isBlank_digitChar d

/-- All characters of an index are such characters. -/
theorem IsIndex.isIndexChar (h : IsIndex text i) (hc : c ∈ text) : IsIndexChar c := by
  obtain ⟨before, numeral, after, hbefore, hafter, rfl, hnumeral⟩ := h
  rcases List.mem_append.mp hc with hc | hc
  · rcases List.mem_append.mp hc with hc | hc
    · exact .inl (hbefore c hc)
    · exact .inr (hnumeral.eq_of_mem hc)
  · exact .inl (hafter c hc)

/-- There is no minus sign in an index. -/
theorem IsIndex.minus_notMem (h : IsIndex text i) : '-' ∉ text :=
  fun hminus => (h.isIndexChar hminus).ne_minus rfl

/-- The numeral of an index is what trimming leaves. Blanks inside of
the numeral are not trimmed away, and there must be none. -/
theorem isIndex_iff : IsIndex text i ↔ IsNumeral (trim text) i := by
  constructor
  · rintro ⟨before, numeral, after, hbefore, hafter, rfl, hnumeral⟩
    rw [trim_padded hbefore hafter fun c hc => not_isBlank_of_isNumeral hnumeral hc]
    exact hnumeral
  · intro h
    obtain ⟨before, after, hbefore, hafter, htext⟩ := exists_trim text
    exact ⟨before, trim text, after, hbefore, hafter, htext, h⟩

/-- Every index is written without anything around it. -/
theorem isIndex_repr (i : Nat) : IsIndex i.repr.toList i :=
  ⟨[], i.repr.toList, [], allBlank_nil, allBlank_nil, by simp, isNumeral_repr i⟩

/-- A text is one index at most, though an index is many texts. -/
theorem IsIndex.unique {i' : Nat} (h : IsIndex text i) (h' : IsIndex text i') : i = i' :=
  (isIndex_iff.mp h).unique (isIndex_iff.mp h')

/-- An index has a digit at least. -/
theorem IsIndex.length_pos (h : IsIndex text i) : 0 < text.length := by
  obtain ⟨before, numeral, after, -, -, rfl, sign, ds, -, hne, rfl, -⟩ := h
  have hdigits := List.length_pos_iff.mpr hne
  simp only [List.length_append, List.length_map]
  omega

/-- A large index takes many characters. Zeros and blanks in front take
characters too, and only make the bound weaker. -/
theorem IsIndex.lt_pow_length (h : IsIndex text i) : i < 10 ^ text.length := by
  obtain ⟨before, numeral, after, -, -, rfl, hnumeral⟩ := h
  refine Nat.lt_of_lt_of_le hnumeral.lt_pow_length (Nat.pow_le_pow_right (by decide) ?_)
  rw [List.length_append, List.length_append]
  omega

/-- Just the indices below the bound are read. -/
theorem index?_eq_some_iff : index? text = some i ↔ IsIndex text i ∧ i < indexBound := by
  rw [isIndex_iff]
  exact unsigned?_eq_some_iff

end

/-! ### Entries -/

/-- What an entry without a name may stand for. -/
inductive Item
  | index (i : Nat)
  | range (low high : Nat)
  deriving DecidableEq, Repr

namespace Item

/-- The text is a way to write the item. -/
def Writes : Item → List Char → Prop
  | .index i, text => IsIndex text i
  | .range low high, text => ∃ lowText highText, IsIndex lowText low ∧ IsIndex highText high ∧
    text = lowText ++ '-' :: highText

/-- The item is one that counts: a range must not descend, nor reach too far. -/
def Valid : Item → Prop
  | .index i => i < UInt32.size
  | .range low high => low ≤ high ∧ high ≤ 32767

/-- The indices of an item in ascending order. Both ends belong to a range. -/
def indices : Item → List Nat
  | .index i => [i]
  | .range low high => List.Ico low (high + 1)

/-- The shortest way to write an item. -/
def render : Item → String
  | .index i => i.repr
  | .range low high => low.repr ++ "-" ++ high.repr

end Item

/-- A text is a name and an index. -/
def IsNamed (text name : List Char) (i : Nat) : Prop :=
  '-' ∉ name ∧ ∃ indexText, IsIndex indexText i ∧ text = name ++ '-' :: indexText

/-- The indices that an entry of a value without names stands for. -/
def StandsFor (entry : List Char) (ids : List Nat) : Prop :=
  ∃ item : Item, item.Valid ∧ item.Writes entry ∧ ids = item.indices

/-- The indices that an entry of a value with names stands for:
always a single one. -/
def NamedFor (entry : List Char) (ids : List Nat) : Prop :=
  ∃ name i, IsNamed entry name i ∧ i < UInt32.size ∧ ids = [i]

/-- The text begins with an ASCII letter, if the blanks in front of
it do not count. -/
def StartsWithLetter (text : List Char) : Prop :=
  ∃ before first rest, AllBlank before ∧ first.isAlpha = true ∧ text = before ++ first :: rest

/-- An entry looks like a name and an index: what it starts with is a
letter, and there is a minus sign after it. -/
def LooksNamed (entry : List Char) : Prop :=
  ∃ name rest, StartsWithLetter name ∧ entry = name ++ '-' :: rest

variable {container : String} {entry : List Char} {item : Item}

/-- The shortest way to write an item is one. -/
theorem Item.writes_render (item : Item) : item.Writes item.render.toList := by
  cases item with
  | index i => exact isIndex_repr i
  | range low high =>
    refine ⟨low.repr.toList, high.repr.toList, isIndex_repr low, isIndex_repr high, ?_⟩
    show (low.repr ++ "-" ++ high.repr).toList = _
    rw [String.toList_append, String.toList_append, List.append_assoc]
    rfl

/-- An item that counts has an index. Of a range both ends are among them. -/
theorem Item.indices_ne_nil (h : item.Valid) : item.indices ≠ [] := by
  cases item with
  | index i => exact List.cons_ne_nil i []
  | range low high =>
    have hlow : low ∈ List.Ico low (high + 1) :=
      List.Ico.mem.mpr ⟨Nat.le_refl low, Nat.lt_succ_of_le h.1⟩
    exact List.ne_nil_of_mem hlow

/-- The characters of an item are those of indices, and the minus
sign of a range. -/
theorem Item.Writes.isIndexChar (h : item.Writes entry) {c : Char} (hc : c ∈ entry) :
    IsIndexChar c ∨ c = '-' := by
  cases item with
  | index i => exact .inl (IsIndex.isIndexChar h hc)
  | range low high =>
    obtain ⟨lowText, highText, hlow, hhigh, rfl⟩ := h
    rcases List.mem_append.mp hc with hc | hc
    · exact .inl (hlow.isIndexChar hc)
    · rcases List.mem_cons.mp hc with rfl | hc
      · exact .inr rfl
      · exact .inl (hhigh.isIndexChar hc)

/-- There is no comma in an item, so an item is one entry. -/
theorem Item.Writes.comma_notMem (h : item.Writes entry) : ',' ∉ entry := by
  intro hcomma
  rcases h.isIndexChar hcomma with hchar | hminus
  · exact hchar.ne_comma rfl
  · exact absurd hminus (by decide)

/-- No item looks named, since there are no letters in it. -/
theorem Item.Writes.not_looksNamed (h : item.Writes entry) : ¬ LooksNamed entry := by
  rintro ⟨name, rest, ⟨before, first, letters, -, hfirst, rfl⟩, rfl⟩
  have hmem : first ∈ before ++ first :: letters ++ '-' :: rest := by simp
  rcases h.isIndexChar hmem with hchar | rfl
  · rw [hchar.isAlpha] at hfirst
    cases hfirst
  · exact absurd hfirst (by decide)

/-- A text is a way to write one item at most. If there is a minus sign
then it is a range, and the sign is where the two indices are told apart. -/
theorem Item.Writes.unique {item' : Item} (h : item.Writes entry) (h' : item'.Writes entry) :
    item = item' := by
  cases item with
  | index i =>
    cases item' with
    | index i' => exact congrArg Item.index (IsIndex.unique h h')
    | range low' high' =>
      obtain ⟨lowText, highText, -, -, rfl⟩ := h'
      exact absurd (by simp) (IsIndex.minus_notMem h)
  | range low high =>
    obtain ⟨lowText, highText, hlow, hhigh, rfl⟩ := h
    cases item' with
    | index i' => exact absurd (by simp) (IsIndex.minus_notMem h')
    | range low' high' =>
      obtain ⟨lowText', highText', hlow', hhigh', htext⟩ := h'
      -- Both ways to write it have the pieces on the two sides of the sign.
      have hpair := splitOn_eq_pair_iff.mpr ⟨rfl, hlow.minus_notMem, hhigh.minus_notMem⟩
      rw [htext, splitOn_eq_pair_iff.mpr ⟨rfl, hlow'.minus_notMem, hhigh'.minus_notMem⟩] at hpair
      obtain ⟨rfl, hrest⟩ := List.cons.inj hpair
      obtain ⟨rfl, -⟩ := List.cons.inj hrest
      rw [hlow.unique hlow', hhigh.unique hhigh']

/-- A way to write an item that does not count stands for nothing. -/
theorem not_standsFor (h : item.Writes entry) (hvalid : ¬ item.Valid) (ids : List Nat) :
    ¬ StandsFor entry ids := by
  rintro ⟨item', hvalid', hwrites', -⟩
  exact hvalid (h.unique hwrites' ▸ hvalid')

/-! ### What the readers make of entries -/

/-- A reader of entries reads what they stand for:

- `found`: an entry that stands for some indices gives these, and there
  are some;
- `refused`: an entry that stands for nothing gives one warning. -/
structure Reads (Means : List Char → List Nat → Prop) (read : List Char → Selection) : Prop where
  found : ∀ {entry : List Char} {ids : List Nat}, Means entry ids →
    ids ≠ [] ∧ read entry = ⟨ids, []⟩
  refused : ∀ {entry : List Char}, (∀ ids, ¬ Means entry ids) → ∃ w, read entry = .warning w

/-- It is enough to know of a reader what it gives for entries that
stand for something, and that it gives a warning or what the entry
stands for. The second says nothing about how a warning comes about. -/
theorem Reads.of_cases {Means : List Char → List Nat → Prop} {read : List Char → Selection}
    (hfound : ∀ {entry ids}, Means entry ids → ids ≠ [] ∧ read entry = ⟨ids, []⟩)
    (hcases : ∀ entry, (∃ ids, Means entry ids) ∨ ∃ w, read entry = .warning w) :
    Reads Means read where
  found := hfound
  refused := by
    intro entry hnone
    rcases hcases entry with ⟨ids, hids⟩ | hwarning
    · exact absurd hids (hnone ids)
    · exact hwarning

/-- An index is selected if it is one, and refused otherwise. -/
theorem selectIndex_of_index? {i : Nat} (h : index? entry = some i) :
    selectIndex container entry = .device i := by
  simp only [selectIndex, h]

/-- A text that is no index is refused, whatever it was meant for. -/
theorem selectIndex_of_none (h : index? entry = none) :
    selectIndex container entry = invalid container entry .notAnIndex := by
  simp only [selectIndex, h]

/-- A valid range is selected as a whole, both of its ends included. -/
theorem selectRange_of_writes {low high : Nat} (hwrites : (Item.range low high).Writes entry)
    (hvalid : (Item.range low high).Valid) :
    selectRange container entry = ⟨(Item.range low high).indices, []⟩ := by
  obtain ⟨lowText, highText, hlow, hhigh, rfl⟩ := hwrites
  obtain ⟨hle, hmax⟩ := hvalid
  have hbound : high < indexBound := Nat.lt_of_le_of_lt hmax (by decide)
  have hlowIndex := index?_eq_some_iff.mpr ⟨hlow, Nat.lt_of_le_of_lt hle hbound⟩
  have hhighIndex := index?_eq_some_iff.mpr ⟨hhigh, hbound⟩
  have hreach : ¬ maxRangeIndex < high := Nat.not_lt.mpr hmax
  simp only [selectRange, splitOn_eq_pair_iff.mpr ⟨rfl, hlow.minus_notMem, hhigh.minus_notMem⟩,
    hlowIndex, hhighIndex, if_neg (Nat.not_lt.mpr hle), if_neg hreach]
  rfl

/-- If no warning is given then the entry is a valid range. The tests
are those of the reader, in its order: two pieces, an index in each, no
descent, and not too far. -/
theorem selectRange_cases (container : String) (entry : List Char) :
    (∃ low high, (Item.range low high).Valid ∧ (Item.range low high).Writes entry) ∨
      ∃ w, selectRange container entry = .warning w := by
  unfold selectRange
  split
  · rename_i lowText highText hsplit
    cases hlow : index? lowText with
    | none => exact .inr ⟨_, rfl⟩
    | some low =>
      cases hhigh : index? highText with
      | none => exact .inr ⟨_, rfl⟩
      | some high =>
        dsimp only
        split
        · exact .inr ⟨_, rfl⟩
        · rename_i hle
          split
          · exact .inr ⟨_, rfl⟩
          · rename_i hmax
            exact .inl ⟨low, high, ⟨Nat.not_lt.mp hle, Nat.not_lt.mp hmax⟩, lowText, highText,
              (index?_eq_some_iff.mp hlow).1, (index?_eq_some_iff.mp hhigh).1,
              (splitOn_eq_pair_iff.mp hsplit).1⟩
  · exact .inr ⟨_, rfl⟩

/-- Items are read as what they stand for. A minus sign decides which of
the two readers has the entry, and an item of the other kind would be
written without one, or with. -/
theorem reads_item (container : String) : Reads StandsFor (selectIndexOrRange container) := by
  refine .of_cases ?_ ?_
  · rintro entry ids ⟨item, hvalid, hwrites, rfl⟩
    refine ⟨Item.indices_ne_nil hvalid, ?_⟩
    cases item with
    | index i =>
      -- An index has no minus sign, so it is not taken for a range.
      have hminus : entry.contains '-' = false := by
        rw [← Bool.not_eq_true, List.contains_iff_mem]
        exact IsIndex.minus_notMem hwrites
      show (if entry.contains '-' then _ else _) = _
      rw [hminus]
      exact selectIndex_of_index? (index?_eq_some_iff.mpr ⟨hwrites, hvalid⟩)
    | range low high =>
      have hminus : entry.contains '-' = true := by
        obtain ⟨lowText, highText, -, -, rfl⟩ := hwrites
        exact List.contains_iff_mem.mpr (by simp)
      show (if entry.contains '-' then _ else _) = _
      rw [hminus]
      exact selectRange_of_writes hwrites hvalid
  · intro entry
    unfold selectIndexOrRange
    -- Conversely, what is selected stands for something, and all the rest is refused.
    split
    · rcases selectRange_cases container entry with ⟨low, high, hvalid, hwrites⟩ | hwarning
      · exact .inl ⟨_, .range low high, hvalid, hwrites, rfl⟩
      · exact .inr hwarning
    · cases hindex : index? entry with
      | some i =>
        obtain ⟨hisIndex, hlt⟩ := index?_eq_some_iff.mp hindex
        exact .inl ⟨_, .index i, hlt, hisIndex, rfl⟩
      | none => exact .inr ⟨_, selectIndex_of_none hindex⟩

/-- Two readers of what entries stand for select the same devices. They
may warn in different ways. -/
theorem Reads.devices_eq {Means : List Char → List Nat → Prop}
    {read read' : List Char → Selection} (h : Reads Means read) (h' : Reads Means read')
    (entry : List Char) : (read entry).devices = (read' entry).devices := by
  by_cases hmeans : ∃ ids, Means entry ids
  · obtain ⟨ids, hids⟩ := hmeans
    rw [(h.found hids).2, (h'.found hids).2]
  · have hnone : ∀ ids, ¬ Means entry ids := fun ids hids => hmeans ⟨ids, hids⟩
    obtain ⟨w, hread⟩ := h.refused hnone
    obtain ⟨w', hread'⟩ := h'.refused hnone
    rw [hread, hread']
    rfl

/-- The blanks at the end of an index do not matter, since it is trimmed. -/
theorem index?_append {after : List Char} (h : AllBlank after) (text : List Char) :
    index? (text ++ after) = index? text := by
  show unsigned? indexBound (trim (text ++ after)) = unsigned? indexBound (trim text)
  rw [trim_append h]

/-- Names with an index are read as this index. The entry is trimmed
before it is taken apart, so its blanks have to be counted to the name
and to the index again. -/
theorem reads_named (container : String) : Reads NamedFor (selectNamed container) := by
  refine .of_cases ?_ ?_
  · rintro entry ids ⟨name, i, ⟨hname, indexText, hindex, rfl⟩, hlt, rfl⟩
    refine ⟨List.cons_ne_nil i [], ?_⟩
    obtain ⟨after, hafter, hend⟩ := exists_trimEnd indexText
    have hsplit : (trim (name ++ '-' :: indexText)).splitOn '-' =
        [name.dropWhile isBlank, trimEnd indexText] := by
      refine splitOn_eq_pair_iff.mpr ⟨trim_append_cons (by decide) name indexText, ?_, ?_⟩
      · intro hminus
        exact hname ((List.dropWhile_suffix isBlank).subset hminus)
      · intro hminus
        exact hindex.minus_notMem (hend ▸ List.mem_append_left after hminus)
    have hread : index? (trimEnd indexText) = some i := by
      rw [← index?_append hafter, ← hend]
      exact index?_eq_some_iff.mpr ⟨hindex, hlt⟩
    simp only [selectNamed, hsplit]
    exact selectIndex_of_index? hread
  · intro entry
    unfold selectNamed
    split
    · rename_i name indexText hsplit
      cases hread : index? indexText with
      | none => exact .inr ⟨_, selectIndex_of_none hread⟩
      | some i =>
        obtain ⟨before, after, hbefore, hafter, hentry⟩ := exists_trim entry
        obtain ⟨htrim, hname, -⟩ := splitOn_eq_pair_iff.mp hsplit
        rw [← index?_append hafter] at hread
        obtain ⟨hindex, hlt⟩ := index?_eq_some_iff.mp hread
        -- The blanks in front belong to the name, and those at the end to the index.
        refine .inl ⟨[i], before ++ name, i, ⟨?_, indexText ++ after, hindex, ?_⟩, hlt, rfl⟩
        · intro hminus
          rcases List.mem_append.mp hminus with hminus | hminus
          · exact absurd (hbefore _ hminus) (by decide)
          · exact hname hminus
        · rw [hentry, htrim]
          simp
    · exact .inr ⟨_, rfl⟩

/-- The shape of an entry is seen as it is. The reader looks at the
trimmed entry, and the letter in front is not among what is trimmed. -/
theorem isNameLike_iff : isNameLike entry = true ↔ LooksNamed entry := by
  constructor
  · intro h
    -- The reader sees the entry without the blanks, so they are put back around what
    -- it has seen.
    obtain ⟨before, after, hbefore, -, hentry⟩ := exists_trim entry
    unfold isNameLike at h
    dsimp only at h
    split at h
    · rename_i first hfirst
      obtain ⟨hminus, halpha⟩ := Bool.and_eq_true_iff.mp h
      obtain ⟨rest, htrim⟩ := List.head?_eq_some_iff.mp hfirst
      rw [List.contains_iff_mem, htrim] at hminus
      rcases List.mem_cons.mp hminus with rfl | hminus
      · exact absurd halpha (by decide)
      · obtain ⟨letters, rest', rfl, -⟩ := List.eq_append_cons_of_mem hminus
        refine ⟨before ++ first :: letters, rest' ++ after,
          ⟨before, first, letters, hbefore, halpha, rfl⟩, ?_⟩
        rw [hentry, htrim]
        simp
    · cases h
  · rintro ⟨name, rest, ⟨before, first, letters, hbefore, halpha, rfl⟩, rfl⟩
    -- A letter is no blank, so trimming stops in front of it.
    have hblank : isBlank first = false := by
      cases h : isBlank first with
      | false => rfl
      | true =>
        rw [isAlpha_of_isBlank h] at halpha
        cases halpha
    have hdrop : before.dropWhile isBlank = [] := List.dropWhile_eq_nil_iff.mpr hbefore
    have htrim : trim (before ++ first :: letters ++ '-' :: rest) =
        first :: (letters ++ '-' :: trimEnd rest) := by
      rw [List.append_assoc, List.cons_append, trim_append_cons hblank, hdrop,
        trimEnd_append_cons (by decide)]
      rfl
    unfold isNameLike
    rw [htrim]
    simp [halpha]

end NpuAttribution.Device.VisibleDevices
