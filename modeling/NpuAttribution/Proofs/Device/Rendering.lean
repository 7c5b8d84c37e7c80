import NpuAttribution.Proofs.Device.VisibleDevices

/-!
# `NpuAttribution.Proofs.Device.Rendering`: decoding undoes rendering

A value is rendered by writing its items one after the other, with commas between them. An item
may be written in many ways: its numbers may have zeros and a plus sign in front, and blanks
around them. A `Token` is an item together with one of these ways, so a row of tokens is a value
as somebody has chosen to write it, and `decodes_rendered` says that decoding gives the items
back, whatever has been chosen. Names with an index are rendered and decoded likewise.

The value is taken apart at its commas, and these are the commas that have been put between the
tokens, because there are none in a token (`entries_join`).
-/

set_option autoImplicit false

namespace NpuAttribution.Device.VisibleDevices

open NpuAttribution.Text

/-- An item, and a way to write it. -/
structure Token where
  item : Item
  text : String
  writes : item.Writes text.toList

/-- A name with the index of a device, and a way to write them. -/
structure NamedToken where
  name : String
  index : Nat
  text : String
  bounded : index < UInt32.size
  comma_notMem : ',' ∉ name.toList
  writes : IsNamed text.toList name.toList index

/-- The value that is rendered from texts. -/
def join (texts : List String) : String := ",".intercalate texts

/-- Decoding undoes rendering:

- `itemWritten`, `nameWritten`: every item can be rendered, and so can
  every name without commas and minus signs with every index;
- `items`: a row of valid items gives the indices of these items, in their
  order and as often as they occur, without a warning;
- `names`: a row of names with an index gives the indices, without a
  warning, if one of the names starts with a letter;
- `inserted`: a range that descends or reaches too far makes no difference
  to the indices of the items around it, and gives one warning. -/
structure DecodesRendered (container : String) : Prop where
  itemWritten : ∀ item : Item, ∃ t : Token, t.item = item ∧ t.text = item.render
  nameWritten : ∀ (name : String) (i : Nat), i < UInt32.size → ',' ∉ name.toList →
    '-' ∉ name.toList →
      ∃ t : NamedToken, t.name = name ∧ t.index = i ∧ t.text = name ++ "-" ++ i.repr
  items : ∀ tokens : List Token, tokens ≠ [] → (∀ t ∈ tokens, t.item.Valid) →
    (join (tokens.map (·.text))).utf8ByteSize ≤ 1024 →
      decode container (join (tokens.map (·.text))) = ⟨tokens.flatMap (·.item.indices), []⟩
  names : ∀ tokens : List NamedToken, (∃ t ∈ tokens, StartsWithLetter t.name.toList) →
    (join (tokens.map (·.text))).utf8ByteSize ≤ 1024 →
      decode container (join (tokens.map (·.text))) = ⟨tokens.map (·.index), []⟩
  inserted : ∀ (before after : List Token) (t : Token) (low high : Nat),
    (∀ t ∈ before ++ after, t.item.Valid) → t.item = .range low high →
    high < low ∨ 32767 < high →
    (join ((before ++ t :: after).map (·.text))).utf8ByteSize ≤ 1024 →
      ∃ w, decode container (join ((before ++ t :: after).map (·.text))) =
        ⟨(before ++ after).flatMap (·.item.indices), [w]⟩

variable {container : String}

/-! ### Rendered values -/

/-- The entries of a rendered value are the texts that it has been rendered
from. With no text at all there would still be one entry, the empty one. -/
theorem entries_join {ι : Type} {tokens : List ι} {text : ι → String} (hne : tokens ≠ [])
    (hcomma : ∀ t ∈ tokens, ',' ∉ (text t).toList) :
    entries (join (tokens.map text)) = tokens.map fun t => (text t).toList := by
  have hpieces : ∀ cs ∈ (tokens.map text).map String.toList, ',' ∉ cs := by
    rw [List.map_map]
    intro cs hcs
    obtain ⟨t, ht, rfl⟩ := List.mem_map.mp hcs
    exact hcomma t ht
  have hpieces_ne : (tokens.map text).map String.toList ≠ [] := by
    rw [List.map_map]
    exact mt List.map_eq_nil_iff.mp hne
  show (",".intercalate (tokens.map text)).toList.splitOn ',' = _
  rw [String.toList_intercalate]
  exact (List.splitOn_intercalate ',' hpieces hpieces_ne).trans List.map_map

/-- The entries of a row of tokens are the tokens' texts. -/
theorem entries_tokens {tokens : List Token} (hne : tokens ≠ []) :
    entries (join (tokens.map (·.text))) = tokens.map (·.text.toList) :=
  entries_join hne fun t _ => t.writes.comma_notMem

/-- There is no comma in a name with an index, neither in the name nor
behind it. -/
theorem NamedToken.comma_notMem_text (t : NamedToken) : ',' ∉ t.text.toList := by
  obtain ⟨-, indexText, hindex, htext⟩ := t.writes
  rw [htext]
  intro hmem
  rcases List.mem_append.mp hmem with hname | hrest
  · exact t.comma_notMem hname
  · rcases List.mem_cons.mp hrest with hminus | hcomma
    · exact absurd hminus (by decide)
    · exact (hindex.isIndexChar hcomma).ne_comma rfl

/-- The entries of a row of names are the names with their indices. -/
theorem entries_names {tokens : List NamedToken} (hne : tokens ≠ []) :
    entries (join (tokens.map (·.text))) = tokens.map (·.text.toList) :=
  entries_join hne fun t _ => t.comma_notMem_text

/-- A row of items is not taken for a row of names, since none of
them has a letter. -/
theorem not_nameIndexed_tokens {tokens : List Token} (hne : tokens ≠ []) :
    ¬ NameIndexed (join (tokens.map (·.text))) := by
  rintro ⟨entry, hentry, hnamed⟩
  rw [entries_tokens hne] at hentry
  obtain ⟨t, -, rfl⟩ := List.mem_map.mp hentry
  exact t.writes.not_looksNamed hnamed

/-- One name that starts with a letter is enough for all entries to
be read as names. -/
theorem nameIndexed_names {tokens : List NamedToken} {t : NamedToken} (ht : t ∈ tokens)
    (hletter : StartsWithLetter t.name.toList) : NameIndexed (join (tokens.map (·.text))) := by
  obtain ⟨-, indexText, -, htext⟩ := t.writes
  refine ⟨t.text.toList, ?_, t.name.toList, indexText, hletter, htext⟩
  rw [entries_names (List.ne_nil_of_mem ht)]
  exact List.mem_map.mpr ⟨t, ht, rfl⟩

/-! ### What is decoded -/

/-- Entries that all give indices give all of these, and no warning. -/
theorem concat_found {ι : Type} {tokens : List ι} {read : ι → Selection} {indices : ι → List Nat}
    (h : ∀ t ∈ tokens, read t = ⟨indices t, []⟩) :
    Selection.concat (tokens.map read) = ⟨tokens.flatMap indices, []⟩ := by
  induction tokens with
  | nil => rfl
  | cons t rest ih =>
    rw [List.map_cons, Selection.concat_cons, h t List.mem_cons_self,
      ih fun t ht => h t (List.mem_cons_of_mem _ ht)]
    rfl

/-- Tokens are read as their items, in whatever way they are written. -/
theorem concat_tokens {tokens : List Token} (hvalid : ∀ t ∈ tokens, t.item.Valid) :
    Selection.concat (tokens.map fun t => selectIndexOrRange container t.text.toList) =
      ⟨tokens.flatMap (·.item.indices), []⟩ :=
  concat_found fun t ht => ((reads_item container).found ⟨t.item, hvalid t ht, t.writes, rfl⟩).2

/-- Names are read as the indices behind them, and the names do not matter. -/
theorem concat_names (tokens : List NamedToken) :
    Selection.concat (tokens.map fun t => selectNamed container t.text.toList) =
      ⟨tokens.map (·.index), []⟩ := by
  rw [List.map_eq_flatMap (f := NamedToken.index)]
  refine concat_found fun t _ => ?_
  exact ((reads_named container).found ⟨t.name.toList, t.index, t.writes, t.bounded, rfl⟩).2

/-- A row of tokens is read token by token. -/
theorem decode_tokens {tokens : List Token} (hne : tokens ≠ [])
    (hshort : (join (tokens.map (·.text))).utf8ByteSize ≤ maxValueBytes) :
    decode container (join (tokens.map (·.text))) =
      .concat (tokens.map fun t => selectIndexOrRange container t.text.toList) := by
  rw [decode_plain hshort (not_nameIndexed_tokens hne), entries_tokens hne, List.map_map]
  rfl

/-- A row of names gives the indices behind them, one for each name. -/
theorem decode_names {tokens : List NamedToken}
    (hletter : ∃ t ∈ tokens, StartsWithLetter t.name.toList)
    (hshort : (join (tokens.map (·.text))).utf8ByteSize ≤ maxValueBytes) :
    decode container (join (tokens.map (·.text))) = ⟨tokens.map (·.index), []⟩ := by
  obtain ⟨t, ht, hletter⟩ := hletter
  rw [decode_named hshort (nameIndexed_names ht hletter),
    entries_names (List.ne_nil_of_mem ht), List.map_map]
  exact concat_names tokens

/-- A range that does not count costs a warning and nothing else. The
tokens before and after it are read as if they stood alone. -/
theorem decode_inserted {before after : List Token} {t : Token} {low high : Nat}
    (hvalid : ∀ t ∈ before ++ after, t.item.Valid) (hitem : t.item = .range low high)
    (hbad : high < low ∨ 32767 < high)
    (hshort : (join ((before ++ t :: after).map (·.text))).utf8ByteSize ≤ maxValueBytes) :
    ∃ w, decode container (join ((before ++ t :: after).map (·.text))) =
      ⟨(before ++ after).flatMap (·.item.indices), [w]⟩ := by
  have hinvalid : ¬ t.item.Valid := by
    rw [hitem]
    rintro ⟨hle, hmax⟩
    omega
  obtain ⟨w, hread⟩ := (reads_item container).refused (not_standsFor t.writes hinvalid)
  have hbefore : ∀ t ∈ before, t.item.Valid := fun t ht =>
    hvalid t (List.mem_append_left after ht)
  have hafter : ∀ t ∈ after, t.item.Valid := fun t ht =>
    hvalid t (List.mem_append_right before ht)
  have hrest : Selection.concat
      ((t :: after).map fun t => selectIndexOrRange container t.text.toList) =
        ⟨after.flatMap (·.item.indices), [w]⟩ := by
    rw [List.map_cons, Selection.concat_cons, hread, concat_tokens hafter]
    rfl
  refine ⟨w, ?_⟩
  rw [decode_tokens (by simp) hshort, List.map_append, Selection.concat_append,
    concat_tokens hbefore, hrest]
  simp [Selection.concat]

/-- Decoding undoes rendering, for rows of items and for rows of names,
and with bad ranges in between. What is rendered is known to be written
correctly (`writes_render`), and correct entries give what they stand for. -/
theorem decodes_rendered (container : String) : DecodesRendered container where
  itemWritten item := ⟨⟨item, item.render, item.writes_render⟩, rfl, rfl⟩
  nameWritten name i hlt hcomma hminus := by
    have hwrites : IsNamed (name ++ "-" ++ i.repr).toList name.toList i := by
      refine ⟨hminus, i.repr.toList, isIndex_repr i, ?_⟩
      rw [String.toList_append, String.toList_append, List.append_assoc]
      rfl
    exact ⟨⟨name, i, name ++ "-" ++ i.repr, hlt, hcomma, hwrites⟩, rfl, rfl, rfl⟩
  items tokens hne hvalid hshort := by
    rw [decode_tokens hne hshort]
    exact concat_tokens hvalid
  names _ hletter hshort := decode_names hletter hshort
  inserted _ _ _ _ _ hvalid hitem hbad hshort := decode_inserted hvalid hitem hbad hshort

example : decode "c1" "\u2003+007 ,9-7,32766 - 32767" =
    ⟨[7, 32766, 32767], [.invalidEntry "c1" "9-7" .descending]⟩ := by
  decide +kernel

end NpuAttribution.Device.VisibleDevices
