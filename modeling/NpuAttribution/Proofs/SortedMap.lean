import Mathlib.Data.List.Perm.Basic
import NpuAttribution.SortedMap

/-!
# `NpuAttribution.Proofs.SortedMap`: maps by what their keys are mapped to

A map is determined by what its keys are mapped to (`ext_get?`). The lookup after an
insertion is `get?_insert`. With these two, nothing else has to be known about how maps are
kept: for one, a map is what its own entries make of the empty map, in whatever order they
are inserted (`ofList_of_perm`).
-/

set_option autoImplicit false

namespace NpuAttribution

namespace SortedMap

variable {β : Type}

/-- A lookup in the entries after an insertion. Only the inserted key
finds something else than before. The cases are those of the insertion:
the new entry goes in front, or further back, or takes the place of the
one with its key. -/
theorem find?_insertEntry (k : String) (v : β) (key : String) {es : List (String × β)}
    (h : es.Pairwise fun a b => a.1 < b.1) :
    (insertEntry k v es).find? (fun e => e.1 == key)
      = if k = key then some (k, v) else es.find? fun e => e.1 == key := by
  induction es with
  | nil => by_cases hk : k = key <;> simp [insertEntry, hk]
  | cons a rest ih =>
    obtain ⟨ha, hrest⟩ := List.pairwise_cons.mp h
    simp only [insertEntry]
    split
    · by_cases hk : k = key <;> simp [hk]
    · rename_i hka
      split
      · rename_i hak
        rw [List.find?_cons, List.find?_cons, ih hrest]
        by_cases hk : k = key
        -- The entry in front has a smaller key, so it is not the one that is looked
        -- up.
        · have hne : (a.1 == key) = false := by
            rw [beq_eq_false_iff_ne]
            rintro he
            exact String.lt_irrefl k (he.trans hk.symm ▸ hak)
          simp [hk, hne]
        · simp [hk]
      · rename_i hak
        -- Neither key is smaller, so the new entry takes the place of `a`.
        have hk : k = a.1 :=
          String.le_antisymm (String.not_lt.mp hak) (String.not_lt.mp hka)
        by_cases hkey : k = key
        · simp [hkey]
        · simp [hkey, hk ▸ hkey]

/-- What a key is mapped to after an insertion: the inserted key to the
new value, and all other keys to what they were mapped to before. -/
theorem get?_insert (m : SortedMap β) (k : String) (v : β) (key : String) :
    (m.insert k v).get? key = if k = key then some v else m.get? key := by
  unfold get? insert
  rw [find?_insertEntry k v key m.ascending]
  split <;> rfl

/-- The entries of a map are the keys with what they are mapped to. Each
key occurs in one entry at most, because the keys ascend. -/
theorem mem_entries_iff (m : SortedMap β) (key : String) (v : β) :
    (key, v) ∈ m.entries ↔ m.get? key = some v := by
  obtain ⟨es, h⟩ := m
  unfold get?
  show (key, v) ∈ es ↔ (es.find? fun e => e.1 == key).map (·.2) = some v
  induction es with
  | nil => simp
  | cons a rest ih =>
    obtain ⟨ha, hrest⟩ := List.pairwise_cons.mp h
    rw [List.mem_cons, List.find?_cons]
    by_cases hk : a.1 = key
    · -- The first entry has the key, and no later entry has it as well.
      have hno : (key, v) ∉ rest := by
        intro hmem
        have hlt : a.1 < key := ha _ hmem
        rw [hk] at hlt
        exact String.lt_irrefl key hlt
      simp only [hno, or_false, hk, beq_self_eq_true, Option.map_some, Option.some.injEq]
      constructor
      · intro he
        rw [← he]
      · rintro rfl
        rw [← hk]
    · have hne : (key, v) ≠ a := fun he => hk (by rw [← he])
      simp only [hne, false_or, ih hrest, beq_eq_false_iff_ne.mpr hk]

/-- Two maps are equal if they map every key to the same. They have
the same entries then, and a list in strictly ascending order is
determined by its members. -/
theorem ext_get? {m n : SortedMap β} (h : ∀ key, m.get? key = n.get? key) : m = n := by
  have hmem (e : String × β) : e ∈ m.entries ↔ e ∈ n.entries := by
    rw [mem_entries_iff, mem_entries_iff, h]
  -- No entry occurs twice, as its key would have to be smaller than itself.
  have hnodup (m : SortedMap β) : m.entries.Nodup := by
    refine m.ascending.imp ?_
    rintro a _ hlt rfl
    exact String.lt_irrefl a.1 hlt
  have hperm := (List.perm_ext_iff_of_nodup (hnodup m) (hnodup n)).mpr hmem
  refine ext (hperm.eq_of_pairwise (fun a b _ _ hab hba => ?_) m.ascending n.ascending)
  exact absurd (String.lt_trans hab hba) (String.lt_irrefl _)

/-- Keys that are not inserted are mapped to what they were mapped to
before, by a map to which any number of entries are added. -/
theorem get?_foldl_of_notMem (es : List (String × β)) (m : SortedMap β) {key : String}
    (h : key ∉ es.map (·.1)) :
    (es.foldl (fun m e => m.insert e.1 e.2) m).get? key = m.get? key := by
  induction es generalizing m with
  | nil => rfl
  | cons e rest ih =>
    rw [List.map_cons, List.mem_cons, not_or] at h
    rw [List.foldl_cons, ih (m.insert e.1 e.2) h.2, get?_insert, if_neg (Ne.symm h.1)]

/-- Of entries with different keys each one is found in the map that
they make. With equal keys this would be true of the last of them only. -/
theorem get?_foldl_of_mem {es : List (String × β)} (hnodup : (es.map (·.1)).Nodup)
    (m : SortedMap β) {key : String} {v : β} (h : (key, v) ∈ es) :
    (es.foldl (fun m e => m.insert e.1 e.2) m).get? key = some v := by
  induction es generalizing m with
  | nil => cases h
  | cons e rest ih =>
    rw [List.map_cons, List.nodup_cons] at hnodup
    rw [List.foldl_cons]
    rcases List.mem_cons.mp h with rfl | hrest
    · rw [get?_foldl_of_notMem rest _ hnodup.1, get?_insert, if_pos rfl]
    · exact ih hnodup.2 (m.insert e.1 e.2) hrest

/-- The entries of a map make the map, in whatever order they are
inserted. So a map can be written in any order and is read back as it was. -/
theorem ofList_of_perm {m : SortedMap β} {es : List (String × β)} (h : es.Perm m.entries) :
    ofList es = m := by
  have hkeys : (m.entries.map (·.1)).Nodup := by
    refine List.pairwise_map.mpr (m.ascending.imp ?_)
    intro a b hlt heq
    exact String.lt_irrefl b.1 (heq ▸ hlt)
  have hnodup : (es.map (·.1)).Nodup := (h.map _).nodup_iff.mpr hkeys
  refine ext_get? fun key => ?_
  show (es.foldl (fun m e => m.insert e.1 e.2) empty).get? key = m.get? key
  cases hm : m.get? key with
  | some v =>
    have hmem : (key, v) ∈ es := h.mem_iff.mpr ((mem_entries_iff m key v).mpr hm)
    exact get?_foldl_of_mem hnodup empty hmem
  | none =>
    -- A key that is mapped to nothing is not inserted either.
    have hno : key ∉ es.map (·.1) := by
      intro hkey
      obtain ⟨e, he, rfl⟩ := List.mem_map.mp hkey
      have hsome := (mem_entries_iff m e.1 e.2).mp (h.mem_iff.mp he)
      rw [hm] at hsome
      cases hsome
    rw [get?_foldl_of_notMem es empty hno]
    rfl

end SortedMap

end NpuAttribution
