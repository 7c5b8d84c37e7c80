import NpuAttribution.Proofs.Json.Numbers

/-!
# `NpuAttribution.Proofs.Json.Borders`: where values begin and end

Readers tell from one byte what kind of value begins, and whether a list of items or members goes
on or ends. So what matters about a value that stands in a text is its first byte
(`Tree.exists_first`), and what matters about the text after it is that its first byte is no
part of a number (`Apart`). After an item or a member there are blanks, a comma or a closing
bracket, so this is always true (`Items.apart`, `Members.apart`).
-/

set_option autoImplicit false

namespace NpuAttribution.Json

variable {s rest : Bytes} {b : UInt8}

/-! ### Blanks -/

/-- Blanks are passed over, however many there are. As a rule for
`simp` it removes the blanks between the tokens of a value that has
been taken apart. -/
@[simp] theorem skipBlank_gap (gap : Blanks) (s : Bytes) :
    skipBlank (gap.bytes ++ s) = skipBlank s := by
  have hgap : gap.bytes.dropWhile isBlank = [] := List.dropWhile_eq_nil_iff.mpr gap.blank
  show (gap.bytes ++ s).dropWhile isBlank = s.dropWhile isBlank
  rw [List.dropWhile_append, hgap]
  rfl

/-- A byte that is no blank stays, and everything after it does. -/
theorem skipBlank_cons (h : isBlank b = false) (s : Bytes) : skipBlank (b :: s) = b :: s := by
  show (b :: s).dropWhile isBlank = b :: s
  rw [List.dropWhile_cons, h]
  rfl

/-! ### The end of a value -/

/-- It is enough to look at the first byte of what follows a number. -/
theorem apart_cons (h : continuesNumber b = false) (s : Bytes) : Apart (b :: s) := by
  intro c hc
  cases hc
  exact h

/-- Blanks are no part of a number, so a number ends before them. -/
theorem continuesNumber_of_isBlank (h : isBlank b = true) : continuesNumber b = false := by
  simp only [isBlank, Bool.or_eq_true, beq_iff_eq, or_assoc] at h
  rcases h with rfl | rfl | rfl | rfl <;> rfl

/-- Blanks in front of what stands apart stand apart, also if there are none. -/
theorem apart_gap (gap : Blanks) (h : Apart s) : Apart (gap.bytes ++ s) := by
  cases hgap : gap.bytes with
  | nil => exact h
  | cons b bs =>
    have hblank : isBlank b = true := gap.blank b (by rw [hgap]; exact List.mem_cons_self)
    exact apart_cons (continuesNumber_of_isBlank hblank) _

/-- After an item comes no part of a number, since what comes is a
blank, a comma or the closing bracket. -/
theorem Items.apart (items : Items) (rest : Bytes) : Apart (items.bytes false ++ rest) := by
  cases items with
  | nil gap =>
    rw [Items.bytes, List.append_assoc]
    exact apart_gap gap (apart_cons rfl _)
  | cons before item after others => exact apart_cons rfl _

/-- After a member comes no part of a number, for the same reason as
after an item. -/
theorem Members.apart (members : Members) (rest : Bytes) :
    Apart (members.bytes false ++ rest) := by
  cases members with
  | nil gap =>
    rw [Members.bytes, List.append_assoc]
    exact apart_gap gap (apart_cons rfl _)
  | cons before key beforeColon afterColon value after others => exact apart_cons rfl _

/-! ### The beginning of a value -/

/-- A number begins with a byte that no other value begins with, and
with no blank and no closing bracket either. The seven bytes are those
of the other kinds of values and the bracket after the last item. -/
theorem ne_of_numberStep_start {place : NumberPlace} (h : numberStep .start b = .more place) :
    isBlank b = false ∧ b ∉ ([0x22, 0x5B, 0x5D, 0x66, 0x6E, 0x74, 0x7B] : Bytes) := by
  constructor
  · rw [Bool.eq_false_iff]
    intro hblank
    simp only [isBlank, Bool.or_eq_true, beq_iff_eq, or_assoc] at hblank
    rcases hblank with rfl | rfl | rfl | rfl <;> cases h
  · intro hmem
    simp only [List.mem_cons, List.not_mem_nil, or_false] at hmem
    rcases hmem with rfl | rfl | rfl | rfl | rfl | rfl | rfl <;> cases h

/-- A number has a first byte, which a number may begin with. No bytes at
all would lead nowhere, but a number leads to a place where it may end. -/
theorem Numeral.exists_first (n : Numeral) :
    ∃ b s place, n.bytes = b :: s ∧ numberStep .start b = .more place := by
  obtain ⟨place, hplace, hend⟩ := along_bytes n
  cases hbytes : n.bytes with
  | nil =>
    rw [hbytes] at hplace
    cases hplace
    cases hend
  | cons b s =>
    rw [hbytes, NumberPlace.along] at hplace
    split at hplace
    · rename_i next hstep
      exact ⟨b, s, next, rfl, hstep⟩
    · cases hplace

/-- A value begins with no blank and no closing bracket, and if it is
not `null` then with no `n`. The reader of a list looks for a closing
bracket before it looks for an item, and the reader of what may be
missing looks for `null`. -/
theorem Tree.exists_first (t : Tree) :
    ∃ b s, t.bytes = b :: s ∧ isBlank b = false ∧ b ≠ 0x5D ∧ (t ≠ .null → b ≠ 0x6E) := by
  cases t with
  | null => exact ⟨_, _, rfl, rfl, by decide, fun h => absurd rfl h⟩
  | flag b => cases b <;> exact ⟨_, _, rfl, rfl, by decide, fun _ => by decide⟩
  | number n =>
    obtain ⟨b, s, place, hbytes, hstep⟩ := n.exists_first
    obtain ⟨hblank, hne⟩ := ne_of_numberStep_start hstep
    refine ⟨b, s, hbytes, hblank, ?_, fun _ => ?_⟩
    · rintro rfl
      exact hne (by decide)
    · rintro rfl
      exact hne (by decide)
  | text parts => exact ⟨_, _, rfl, rfl, by decide, fun _ => by decide⟩
  | array items => exact ⟨_, _, rfl, rfl, by decide, fun _ => by decide⟩
  | object members => exact ⟨_, _, rfl, rfl, by decide, fun _ => by decide⟩

end NpuAttribution.Json
