/-!
# `NpuAttribution.SortedMap`: finite maps keyed by text

Container labels and snapshots are maps from texts. They are kept as the list of
their entries in strictly ascending order of the keys, so two maps with the same
entries are equal, however they were built, and listing a map needs no sorting.
Texts are ordered by code points, which is also the order of their UTF-8 bytes.
-/

set_option autoImplicit false

namespace NpuAttribution

/-- A finite map from texts to `β`. -/
structure SortedMap (β : Type) where
  entries : List (String × β)
  ascending : entries.Pairwise fun a b => a.1 < b.1

namespace SortedMap

variable {β : Type}

/-- Puts an entry where its key belongs. An entry with the same key is
replaced. -/
def insertEntry (k : String) (v : β) : List (String × β) → List (String × β)
  | [] => [(k, v)]
  | e :: rest =>
    if k < e.1 then (k, v) :: e :: rest
    else if e.1 < k then e :: insertEntry k v rest
    -- The key is there already, and the new value takes the place of the old one.
    else (k, v) :: rest

/-- The keys after an insertion are the keys before it and the inserted
one. The value of the inserted key may have been another one before,
which is then gone. -/
theorem mem_insertEntry {k : String} {v : β} {es : List (String × β)} {e : String × β}
    (h : e ∈ insertEntry k v es) : e = (k, v) ∨ e ∈ es := by
  induction es with
  | nil => simp_all [insertEntry]
  | cons a rest ih =>
    simp only [insertEntry] at h
    split at h
    · simpa using h
    · split at h
      · rcases List.mem_cons.mp h with rfl | h
        -- The entry in front is still there.
        · exact .inr (by simp)
        · exact (ih h).imp_right (List.mem_cons_of_mem _)
      · rcases List.mem_cons.mp h with rfl | h
        · exact .inl rfl
        · exact .inr (List.mem_cons_of_mem _ h)

/-- Insertion keeps the keys in ascending order. There are three cases
for the key in front: the new one goes before it, takes its place, or
goes further back. -/
theorem insertEntry_ascending (k : String) (v : β) {es : List (String × β)}
    (h : es.Pairwise fun a b => a.1 < b.1) :
    (insertEntry k v es).Pairwise fun a b => a.1 < b.1 := by
  induction es with
  | nil => simp [insertEntry]
  | cons a rest ih =>
    obtain ⟨ha, hrest⟩ := List.pairwise_cons.mp h
    simp only [insertEntry]
    split
    -- The new key goes in front of all others.
    · rename_i hka
      refine List.pairwise_cons.mpr ⟨?_, h⟩
      intro b hb
      rcases List.mem_cons.mp hb with rfl | hb
      · exact hka
      · exact String.lt_trans hka (ha b hb)
    · rename_i hka
      split
      · rename_i hak
        refine List.pairwise_cons.mpr ⟨?_, ih hrest⟩
        intro b hb
        rcases mem_insertEntry hb with rfl | hb
        · exact hak
        · exact ha b hb
      · rename_i hak
        -- Neither key is smaller, so they are equal and `k` takes the place of `a`.
        have hk : k = a.1 :=
          String.le_antisymm (String.not_lt.mp hak) (String.not_lt.mp hka)
        exact List.pairwise_cons.mpr ⟨fun b hb => hk ▸ ha b hb, hrest⟩

/-- The map without entries. -/
def empty : SortedMap β := ⟨[], .nil⟩

instance : Inhabited (SortedMap β) := ⟨empty⟩

instance : EmptyCollection (SortedMap β) := ⟨empty⟩

/-- Maps `k` to `v`, whatever it was mapped to before. -/
def insert (m : SortedMap β) (k : String) (v : β) : SortedMap β :=
  ⟨insertEntry k v m.entries, insertEntry_ascending k v m.ascending⟩

/-- The map with the given entries. Of two entries with one key the
later counts. -/
def ofList (es : List (String × β)) : SortedMap β :=
  es.foldl (fun m e => m.insert e.1 e.2) empty

/-- What `k` is mapped to. -/
def get? (m : SortedMap β) (k : String) : Option β :=
  (m.entries.find? fun e => e.1 == k).map (·.2)

/-- The number of entries. -/
def size (m : SortedMap β) : Nat := m.entries.length

/-- The values in ascending order of their keys. -/
def values (m : SortedMap β) : List β := m.entries.map (·.2)

/-- Two maps with the same entries are equal. That the keys ascend is a
proof and makes no difference. -/
theorem ext {m n : SortedMap β} (h : m.entries = n.entries) : m = n := by
  cases m; cases n; cases h; rfl

instance [DecidableEq β] : DecidableEq (SortedMap β) := fun m n =>
  if h : m.entries = n.entries then isTrue (ext h) else isFalse (fun e => h (e ▸ rfl))

instance [Repr β] : Repr (SortedMap β) := ⟨fun m n => reprPrec m.entries n⟩

end SortedMap

end NpuAttribution
