import NpuAttribution.Text.Decimal
import NpuAttribution.Text.Numeral

/-!
# `NpuAttribution.Proofs.Text.Numeral`: what an unsigned numeral is

`IsNumeral` says how a number may be written, without reading it: a plus sign or none, and
then one or more digits, of which the first may be zeros. `unsigned?_eq_some_iff` says that
`unsigned?` reads just these texts, if their value is below the bound.

The reader carries the value of the digits so far along. `digitsFrom?_eq_some_iff` is about
any such value, and only at the end it is zero.
-/

set_option autoImplicit false

namespace NpuAttribution.Text

/-- The character of a digit. -/
def digitChar (d : Fin 10) : Char := Char.ofNat ('0'.toNat + d)

/-- A text is a numeral of the given value. -/
def IsNumeral (cs : List Char) (n : Nat) : Prop :=
  ∃ (sign : List Char) (ds : List (Fin 10)), (sign = [] ∨ sign = ['+']) ∧ ds ≠ [] ∧
    cs = sign ++ ds.map digitChar ∧ n = decimalValue ds

/-- A character has a value if it is a digit, and then the value of this
digit. So the digits of other scripts have none. -/
theorem digitValue?_eq_some_iff {c : Char} {n : Nat} :
    digitValue? c = some n ↔ ∃ d : Fin 10, c = digitChar d ∧ n = d.val := by
  constructor
  · intro h
    unfold digitValue? at h
    split at h
    · rename_i hc
      have hlow : 48 ≤ c.toNat := hc.1
      have hhigh : c.toNat ≤ 57 := hc.2
      have hn : c.toNat - 48 = n := Option.some.inj h
      refine ⟨⟨c.toNat - 48, by omega⟩, ?_, hn.symm⟩
      show c = Char.ofNat (48 + (c.toNat - 48))
      rw [Nat.add_sub_cancel' hlow, Char.ofNat_toNat]
    · cases h
  · rintro ⟨d, rfl, rfl⟩
    -- There are ten digits to try.
    revert d
    decide

/-- The digits are the ASCII digits. The library's test for digits and
the project's own row of digits are about the same ten characters. -/
theorem isDigit_iff {c : Char} : c.isDigit = true ↔ ∃ d, c = digitChar d := by
  constructor
  · intro h
    have hdigit : 48 ≤ c.toNat ∧ c.toNat ≤ 57 := by
      simpa [Char.isDigit, UInt32.le_iff_toNat_le] using h
    have hvalue : digitValue? c = some (c.toNat - 48) := if_pos hdigit
    obtain ⟨d, hd, -⟩ := digitValue?_eq_some_iff.mp hvalue
    exact ⟨d, hd⟩
  · rintro ⟨d, rfl⟩
    revert d
    decide

/-- A text of digits is a row of digits, which has a value even if it is empty. -/
theorem exists_digits {cs : List Char} (h : ∀ c ∈ cs, c.isDigit = true) :
    ∃ ds : List (Fin 10), cs = ds.map digitChar := by
  induction cs with
  | nil => exact ⟨[], rfl⟩
  | cons c cs ih =>
    obtain ⟨d, rfl⟩ := isDigit_iff.mp (h c List.mem_cons_self)
    obtain ⟨ds, rfl⟩ := ih fun c hc => h c (List.mem_cons_of_mem _ hc)
    exact ⟨d :: ds, rfl⟩

/-- The value of a row of digits is below the power of ten with as many
zeros. It is how the length of a numeral bounds what it is worth. -/
theorem decimalValue_lt (ds : List (Fin 10)) : decimalValue ds < 10 ^ ds.length := by
  have hdigits : ∀ d ∈ ds.reverse.map Fin.val, d < 10 := by
    intro d hd
    obtain ⟨d, -, rfl⟩ := List.mem_map.mp hd
    exact d.isLt
  have hlt := Nat.ofDigits_lt_base_pow_length (by decide) hdigits
  rwa [List.length_map, List.length_reverse] at hlt

/-- Reading on from a value appends the digits to it. The induction is
on the text, and the value in front has to be general, because each
digit changes it. -/
theorem digitsFrom?_eq_some_iff {n m : Nat} {cs : List Char} :
    digitsFrom? n cs = some m ↔
      ∃ ds : List (Fin 10), cs = ds.map digitChar ∧ m = 10 ^ ds.length * n + decimalValue ds := by
  induction cs generalizing n with
  | nil =>
    constructor
    · intro h
      have hm : n = m := Option.some.inj h
      exact ⟨[], rfl, by rw [← hm]; simp⟩
    · rintro ⟨ds, hds, rfl⟩
      have hnil : ds = [] := List.map_eq_nil_iff.mp hds.symm
      subst hnil
      simp [digitsFrom?]
  | cons c cs ih =>
    -- One more digit in front counts for the digits behind it and for the value
    -- before it.
    have hvalue (d : Fin 10) (ds : List (Fin 10)) :
        10 ^ ds.length * (10 * n + d.val) + decimalValue ds
          = 10 ^ (d :: ds).length * n + decimalValue (d :: ds) := by
      rw [decimalValue_cons, List.length_cons, Nat.pow_succ, Nat.mul_add, Nat.mul_assoc,
        Nat.add_assoc]
    constructor
    · intro h
      unfold digitsFrom? at h
      split at h
      · rename_i v hv
        obtain ⟨d, rfl, rfl⟩ := digitValue?_eq_some_iff.mp hv
        obtain ⟨ds, rfl, rfl⟩ := ih.mp h
        exact ⟨d :: ds, rfl, hvalue d ds⟩
      · cases h
    · rintro ⟨ds, hds, rfl⟩
      cases ds with
      | nil => cases hds
      | cons d ds =>
        obtain ⟨rfl, rfl⟩ := List.cons.inj hds
        have hd := digitValue?_eq_some_iff.mpr ⟨d, rfl, rfl⟩
        rw [digitsFrom?, hd]
        exact ih.mpr ⟨ds, rfl, (hvalue d ds).symm⟩

/-- A text of digits has their value, if there are any. Nothing is said of
how large the value may be, since that is for the type it is read for. -/
theorem digits?_eq_some_iff {cs : List Char} {n : Nat} :
    digits? cs = some n ↔
      ∃ ds : List (Fin 10), ds ≠ [] ∧ cs = ds.map digitChar ∧ n = decimalValue ds := by
  unfold digits?
  split
  · rename_i hempty
    have hnil : cs = [] := List.isEmpty_iff.mp hempty
    constructor
    · intro h
      cases h
    · rintro ⟨ds, hne, hds, -⟩
      exact absurd (List.map_eq_nil_iff.mp (hds.symm.trans hnil)) hne
  · rename_i hempty
    rw [digitsFrom?_eq_some_iff]
    constructor
    · rintro ⟨ds, rfl, rfl⟩
      refine ⟨ds, ?_, rfl, by simp⟩
      rintro rfl
      exact hempty rfl
    · rintro ⟨ds, -, rfl, rfl⟩
      exact ⟨ds, rfl, by simp⟩

/-- No digit is a plus sign, so a text that begins with a digit has no sign. -/
theorem digitChar_ne_plus (d : Fin 10) : digitChar d ≠ '+' := by
  revert d
  decide

/-- A plus sign in front is taken off. What follows has to be digits, so
a second plus sign is refused. -/
theorem unsigned?_plus (bound : Nat) (rest : List Char) :
    unsigned? bound ('+' :: rest) = (digits? rest).filter (· < bound) := by
  unfold unsigned?
  split
  · rename_i rest' hplus
    rw [(List.cons.inj hplus).2]
    dsimp only
    cases digits? rest' with
    | none => rfl
    | some n => simp [Option.filter_some]
  · rename_i hnone
    exact absurd rfl (hnone rest)

/-- Nothing else is taken off: without a plus sign in front the
whole text is digits. -/
theorem unsigned?_of_ne_plus {cs : List Char} (h : ∀ rest, cs ≠ '+' :: rest) (bound : Nat) :
    unsigned? bound cs = (digits? cs).filter (· < bound) := by
  unfold unsigned?
  split
  · exact absurd rfl (h _)
  · dsimp only
    cases digits? cs with
    | none => rfl
    | some n => simp [Option.filter_some]

/-- Just the numerals with a value below the bound are read. The two
cases are a plus sign in front and none, and a text without one must
not be taken for one with a sign that is left out, which
`digitChar_ne_plus` rules out. -/
theorem unsigned?_eq_some_iff {bound n : Nat} {cs : List Char} :
    unsigned? bound cs = some n ↔ IsNumeral cs n ∧ n < bound := by
  by_cases hplus : ∃ rest, cs = '+' :: rest
  · obtain ⟨rest, rfl⟩ := hplus
    rw [unsigned?_plus, Option.filter_eq_some_iff, digits?_eq_some_iff, decide_eq_true_iff]
    refine and_congr_left fun _ => ?_
    constructor
    · rintro ⟨ds, hne, rfl, hn⟩
      exact ⟨['+'], ds, .inr rfl, hne, rfl, hn⟩
    · rintro ⟨sign, ds, rfl | rfl, hne, hcs, hn⟩
      · -- Without a sign the text begins with a digit.
        cases ds with
        | nil => exact absurd rfl hne
        | cons d ds => exact absurd (List.cons.inj hcs).1.symm (digitChar_ne_plus d)
      · exact ⟨ds, hne, (List.cons.inj hcs).2, hn⟩
  · have hnone : ∀ rest, cs ≠ '+' :: rest := fun rest hrest => hplus ⟨rest, hrest⟩
    rw [unsigned?_of_ne_plus hnone, Option.filter_eq_some_iff, digits?_eq_some_iff,
      decide_eq_true_iff]
    refine and_congr_left fun _ => ?_
    constructor
    · rintro ⟨ds, hne, hcs, hn⟩
      exact ⟨[], ds, .inl rfl, hne, hcs, hn⟩
    · rintro ⟨sign, ds, rfl | rfl, hne, hcs, hn⟩
      · exact ⟨ds, hne, hcs, hn⟩
      · exact absurd hcs (hnone _)

/-- A numeral has nothing in it but digits and plus signs. So it has no
separator in it, and no blank. -/
theorem IsNumeral.eq_of_mem {cs : List Char} {n : Nat} (h : IsNumeral cs n) {c : Char}
    (hc : c ∈ cs) : c = '+' ∨ ∃ d, c = digitChar d := by
  obtain ⟨sign, ds, hsign, -, rfl, -⟩ := h
  cases List.mem_append.mp hc with
  | inl hc =>
    rcases hsign with rfl | rfl
    · cases hc
    · exact .inl (List.mem_singleton.mp hc)
  | inr hc =>
    obtain ⟨d, -, rfl⟩ := List.mem_map.mp hc
    exact .inr ⟨d, rfl⟩

/-- The value of a numeral is below the power of ten with as many
zeros as there are characters. The sign counts as a character although
it adds nothing. -/
theorem IsNumeral.lt_pow_length {cs : List Char} {n : Nat} (h : IsNumeral cs n) :
    n < 10 ^ cs.length := by
  obtain ⟨sign, ds, -, -, rfl, rfl⟩ := h
  refine Nat.lt_of_lt_of_le (decimalValue_lt ds) (Nat.pow_le_pow_right (by decide) ?_)
  rw [List.length_append, List.length_map]
  exact Nat.le_add_left _ _

/-- Every number is written as a numeral, without a sign and without
needless zeros. The induction takes the last digit off, as the
conversion to digits does. -/
theorem isNumeral_repr (n : Nat) : IsNumeral n.repr.toList n := by
  suffices h : ∃ ds : List (Fin 10), ds ≠ [] ∧ Nat.toDigits 10 n = ds.map digitChar ∧
      n = decimalValue ds by
    obtain ⟨ds, hne, hds, hn⟩ := h
    refine ⟨[], ds, .inl rfl, hne, ?_, hn⟩
    show (String.ofList (Nat.toDigits 10 n)).toList = ds.map digitChar
    rw [String.toList_ofList, hds]
  -- The library has a character for each digit of its own, which is the same one.
  have hlast (d : Fin 10) : d.val.digitChar = digitChar d := by
    revert d
    decide
  induction n using Nat.strongRecOn with
  | _ n ih =>
    by_cases hlt : n < 10
    · refine ⟨[⟨n, hlt⟩], List.cons_ne_nil _ _, ?_, ?_⟩
      · rw [Nat.toDigits_of_lt_base hlt]
        exact congrArg (· :: []) (hlast ⟨n, hlt⟩)
      · simp [decimalValue_cons]
    · obtain ⟨ds, -, hds, hn⟩ := ih (n / 10) (by omega)
      have hmod : n % 10 < 10 := Nat.mod_lt n (by decide)
      refine ⟨ds ++ [⟨n % 10, hmod⟩], by simp, ?_, ?_⟩
      · rw [Nat.toDigits_of_base_le (by decide) (Nat.le_of_not_lt hlt), hds, List.map_append]
        exact congrArg (ds.map digitChar ++ · :: []) (hlast ⟨n % 10, hmod⟩)
      · rw [decimalValue_concat, ← hn]
        exact (Nat.div_add_mod n 10).symm

/-- A numeral has but one value, although a value has many numerals. -/
theorem IsNumeral.unique {cs : List Char} {n m : Nat} (h : IsNumeral cs n) (h' : IsNumeral cs m) :
    n = m := by
  have hn : unsigned? (n + m + 1) cs = some n := unsigned?_eq_some_iff.mpr ⟨h, by omega⟩
  have hm : unsigned? (n + m + 1) cs = some m := unsigned?_eq_some_iff.mpr ⟨h', by omega⟩
  exact Option.some.inj (hn.symm.trans hm)

/-- What is read is below the bound, so it fits the type that it is read for. -/
theorem lt_of_unsigned? {bound n : Nat} {cs : List Char} (h : unsigned? bound cs = some n) :
    n < bound :=
  (unsigned?_eq_some_iff.mp h).2

end NpuAttribution.Text
