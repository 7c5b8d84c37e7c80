import NpuAttribution.Proofs.Wire.Contents

/-!
# `NpuAttribution.Proofs.Wire.Rows`: messages are read field by field

A message is read as a row of fields. If a row stands in front of a message, the reader
merges its fields and goes on with what follows (`readFields_row`), and it reads nothing but
rows (`isRow_of_readFields`). So the places between two fields, where `IsRow` ends, are the
places where the reader stops on its way.

The reader is bounded by the number of bytes. The bound never matters, because no field gives
back more bytes than it was given (`readFieldsFor_eq`).
-/

set_option autoImplicit false

namespace NpuAttribution.Wire

variable {σ τ : Type} {field : Key → σ → Bytes → Option (σ × Bytes)}

/-! ## The reader without its bound -/

/-- What follows a field is never longer than what the field was read from. -/
def TakesFront (field : Key → σ → Bytes → Option (σ × Bytes)) : Prop :=
  ∀ (key : Key) (x y : σ) (s rest : Bytes),
    field key x s = some (y, rest) → rest.length ≤ s.length

/-- There are not more fields than bytes, so any larger bound will do:
each field takes a byte at least, and the reader is done before it
runs out of rounds. -/
theorem readFieldsFor_eq (hfield : TakesFront field) {rounds : Nat} (x : σ) {s : Bytes}
    (h : s.length ≤ rounds) : readFieldsFor field rounds x s = readFields field x s := by
  -- Two bounds are compared, since the one of `readFields` shrinks with the bytes as well.
  have key : ∀ n m : Nat, ∀ (x : σ) (s : Bytes), s.length ≤ n → s.length ≤ m →
      readFieldsFor field n x s = readFieldsFor field m x s := by
    intro n
    induction n with
    | zero =>
      intro m x s hn _
      cases s with
      | nil => cases m <;> rfl
      | cons b s => cases hn
    | succ n ih =>
      intro m x s hn hm
      cases s with
      | nil => cases m <;> rfl
      | cons b s =>
        cases m with
        | zero => cases hm
        | succ m =>
          simp only [readFieldsFor]
          split
          · rename_i k t hkey
            split
            · rename_i y u hread
              obtain ⟨head, hne, -, hs⟩ := exists_of_readKey hkey
              have hpos := List.length_pos_iff.mpr hne
              have hlength := congrArg List.length hs
              have hle := hfield _ _ _ _ _ hread
              rw [List.length_append, List.length_cons] at hlength
              rw [List.length_cons] at hn hm
              exact ih m y u (by omega) (by omega)
            · rfl
          · rfl
  exact key rounds s.length x s h (Nat.le_refl _)

/-- Nothing is read from no bytes, and the state stays as it is. -/
@[simp] theorem readFields_nil (x : σ) : readFields field x [] = some x := rfl

/-- The first field is read, and then the others. This is the
recursion of the reader without its bound, and the proofs below use
nothing else of it. -/
theorem readFields_key (hfield : TakesFront field) {key : Key} (x : σ) {s t : Bytes}
    (h : readKey s = some (key, t)) :
    readFields field x s = (field key x t).bind fun r => readFields field r.1 r.2 := by
  cases s with
  | nil => cases h
  | cons b s =>
    show readFieldsFor field (s.length + 1) x (b :: s) = _
    simp only [readFieldsFor, h]
    cases hread : field key x t with
    | none => rfl
    | some r =>
      obtain ⟨y, u⟩ := r
      obtain ⟨head, hne, -, hs⟩ := exists_of_readKey h
      have hpos := List.length_pos_iff.mpr hne
      have hlength := congrArg List.length hs
      have hle := hfield _ _ _ _ _ hread
      rw [List.length_append, List.length_cons] at hlength
      exact readFieldsFor_eq hfield y (by omega)

/-- A field in front of a message is merged if the key is `key` and the
content is `c`, and reading goes on behind it. -/
theorem readFields_field (hfield : TakesFront field) {key : Key} {head c : Bytes}
    (hkey : IsKey key head) (x : σ) {r : Option σ}
    (h : ∀ s, field key x (c ++ s) = r.map fun y => (y, s)) (s : Bytes) :
    readFields field x (head ++ (c ++ s)) = r.bind fun y => readFields field y s := by
  rw [readFields_key hfield x (readKey_append hkey (c ++ s)), h]
  cases r <;> rfl

/-- Two readers of fields read the same if each field does the same to
corresponding states. The reader of map entries is compared with that of
messages by this. -/
theorem readFields_map {field' : Key → τ → Bytes → Option (τ × Bytes)} (f : σ → τ)
    (h : ∀ key x s, field' key (f x) s = (field key x s).map fun r => (f r.1, r.2)) (x : σ)
    (s : Bytes) : readFields field' (f x) s = (readFields field x s).map f := by
  have key : ∀ rounds : Nat, ∀ (x : σ) (s : Bytes),
      readFieldsFor field' rounds (f x) s = (readFieldsFor field rounds x s).map f := by
    intro rounds
    induction rounds with
    | zero =>
      intro x s
      cases s <;> rfl
    | succ rounds ih =>
      intro x s
      cases s with
      | nil => rfl
      | cons b s =>
        simp only [readFieldsFor]
        cases readKey (b :: s) with
        | none => rfl
        | some k =>
          simp only [h]
          cases field k.1 x k.2 with
          | none => rfl
          | some r => exact ih r.1 r.2
  exact key s.length x s

/-! ## Fields of a layout -/

namespace Layout

/-- Whether a field can be merged depends on nothing that follows its
content. The result is named before what follows is given, and that is
all that locality means here. -/
theorem mergeField_append (layout : Layout) {levels : Nat} {key : Key} {c : Bytes}
    (h : layout.IsContent levels key c) (x : layout.Values) :
    ∃ r : Option layout.Values,
      ∀ s, layout.mergeField levels key x (c ++ s) = r.map fun y => (y, s) := by
  cases layout with
  | nil =>
    exact ⟨some (), fun s => by
      simp only [mergeField, skipContent_append levels key c h, Option.map_some]⟩
  | cons number shape rest =>
    obtain ⟨v, vs⟩ := x
    unfold IsContent shape? at h
    by_cases hnumber : key.number = number
    · rw [if_pos hnumber] at h
      obtain ⟨r, hr⟩ := Shape.merge_append h levels v
      refine ⟨r.map fun v => (v, vs), fun s => ?_⟩
      simp only [mergeField, if_pos hnumber, hr, Option.map_map]
      rfl
    · rw [if_neg hnumber] at h
      obtain ⟨r, hr⟩ := mergeField_append rest h vs
      refine ⟨r.map fun vs => (v, vs), fun s => ?_⟩
      simp only [mergeField, if_neg hnumber, hr, Option.map_map]
      rfl

/-- What is merged is the content of the field, and what is left over is
what follows it. The induction is on the layout: either the field is its
first one or one of the others. -/
theorem exists_of_mergeField (layout : Layout) {levels : Nat} {key : Key}
    {x y : layout.Values} {s rest : Bytes}
    (h : layout.mergeField levels key x s = some (y, rest)) :
    ∃ c, layout.IsContent levels key c ∧ s = c ++ rest := by
  cases layout with
  | nil =>
    simp only [mergeField] at h
    obtain ⟨s', hskip, heq⟩ := Option.map_eq_some_iff.mp h
    cases heq
    exact exists_of_skipContent levels key s rest hskip
  | cons number shape others =>
    obtain ⟨v, vs⟩ := x
    unfold IsContent shape?
    simp only [mergeField] at h
    by_cases hnumber : key.number = number
    · rw [if_pos hnumber] at h ⊢
      obtain ⟨⟨v', s'⟩, hmerge, heq⟩ := Option.map_eq_some_iff.mp h
      cases heq
      exact Shape.exists_of_merge hmerge
    · rw [if_neg hnumber] at h ⊢
      obtain ⟨⟨vs', s'⟩, hmerge, heq⟩ := Option.map_eq_some_iff.mp h
      cases heq
      exact exists_of_mergeField others hmerge

/-- Merging a field takes its content off the front and gives back the rest. -/
theorem takesFront_mergeField (layout : Layout) (levels : Nat) :
    TakesFront (layout.mergeField levels) := by
  intro key x y s rest h
  obtain ⟨c, -, rfl⟩ := exists_of_mergeField layout h
  rw [List.length_append]
  omega

/-- A field that the layout does not list is skipped. It changes nothing
in the state, but its content must be complete. -/
theorem mergeField_of_unknown (layout : Layout) {levels : Nat} {key : Key} {c : Bytes}
    (hunknown : layout.shape? key.number = none) (h : Wire.IsContent levels key c)
    (x : layout.Values) (s : Bytes) :
    layout.mergeField levels key x (c ++ s) = some (x, s) := by
  cases layout with
  | nil => simp only [mergeField, skipContent_append levels key c h, Option.map_some]
  | cons number shape rest =>
    obtain ⟨v, vs⟩ := x
    unfold shape? at hunknown
    split at hunknown
    · cases hunknown
    · rename_i hnumber
      have ih := mergeField_of_unknown rest hunknown h vs s
      simp only [mergeField, if_neg hnumber, ih, Option.map_some]

/-! ## Rows of fields -/

variable {layout : Layout} {levels : Nat}

/-- The fields of a row are merged, and what follows them is read from
there. If one of the fields cannot be merged then the whole message is
refused, whatever follows. -/
theorem readFields_row {row : Bytes} (h : layout.IsRow levels row) (x : layout.Values) :
    ∃ r : Option layout.Values, ∀ s, readFields (layout.mergeField levels) x (row ++ s)
      = r.bind fun y => readFields (layout.mergeField levels) y s := by
  induction h generalizing x with
  | nil => exact ⟨some x, fun s => rfl⟩
  | cons hkey hcontent _ ih =>
    obtain ⟨r, hr⟩ := mergeField_append layout hcontent x
    have hread := readFields_field (takesFront_mergeField layout levels) hkey x hr
    cases r with
    | none =>
      refine ⟨none, fun s => ?_⟩
      rw [List.append_assoc, List.append_assoc, hread]
      rfl
    | some y =>
      obtain ⟨r, hr⟩ := ih y
      refine ⟨r, fun s => ?_⟩
      rw [List.append_assoc, List.append_assoc, hread]
      exact hr s

/-- Nothing but rows of fields is read, so a message that is read at all
can be cut into fields. Between two of them is a place where another
field may be put in. -/
theorem isRow_of_readFields {x y : layout.Values} {s : Bytes}
    (h : readFields (layout.mergeField levels) x s = some y) : layout.IsRow levels s := by
  -- Every field is shorter by its key, so the induction is on the number of bytes.
  induction hn : s.length using Nat.strongRecOn generalizing x s with
  | _ n ih =>
    cases hkey : readKey s with
    | none =>
      cases s with
      | nil => exact .nil
      | cons b s =>
        unfold readFields at h
        simp [readFieldsFor, hkey] at h
    | some r =>
      obtain ⟨key, t⟩ := r
      rw [readFields_key (takesFront_mergeField layout levels) x hkey] at h
      obtain ⟨⟨z, u⟩, hmerge, hrest⟩ := Option.bind_eq_some_iff.mp h
      obtain ⟨head, hne, hhead, rfl⟩ := exists_of_readKey hkey
      obtain ⟨c, hc, rfl⟩ := exists_of_mergeField layout hmerge
      have hpos := List.length_pos_iff.mpr hne
      simp only [List.length_append] at hn
      exact .cons hhead hc (ih u.length (by omega) hrest rfl)

end Layout

end NpuAttribution.Wire
