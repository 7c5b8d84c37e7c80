import NpuAttribution.Json.Spelling
import NpuAttribution.Proofs.Json.Sequences

/-!
# `NpuAttribution.Proofs.Json.Writing`: every value can be written

What is said about all spellings of a value would say nothing about a value without any. So here
one is put together for each value of a schema in which `null` is not needed for two values and
no two fields have the same name (`Schema.exists_describes`). Characters that may not stand for
themselves in a string are written as code units, and integers digit by digit. Records are
written with all their fields.
-/

set_option autoImplicit false

namespace NpuAttribution.Json

/-! ### Strings -/

/-- Every ASCII character is a code unit with two digits and two zeros
in front of them. -/
theorem exists_codeUnit {n : Nat} (h : n < 128) : ∃ u : CodeUnit, u.value = n := by
  refine ⟨⟨⟨0, false⟩, ⟨0, false⟩, ⟨⟨n / 16, by omega⟩, false⟩, ⟨⟨n % 16, by omega⟩, false⟩⟩, ?_⟩
  show 16 * (16 * (16 * 0 + 0) + n / 16) + n % 16 = n
  omega

/-- Every character can be written, whatever follows it. The characters
that do not stand for themselves are all below 128, so one code unit is
enough and no pair is needed. -/
theorem exists_textPart (c : Char) :
    ∃ p, ∀ parts, charsOf? (p :: parts) = (charsOf? parts).map (c :: ·) := by
  by_cases hplain : isPlain c = true
  · exact ⟨.plain ⟨c, hplain⟩, fun parts => by rw [charsOf?]⟩
  · have hsmall : c.toNat < 128 := by
      simp only [isPlain, Bool.and_eq_true, decide_eq_true_eq, bne_iff_ne] at hplain
      omega
    obtain ⟨u, hu⟩ := exists_codeUnit hsmall
    have hhigh : isHighSurrogate u.value = false := by
      rw [hu, isHighSurrogate, Bool.and_eq_false_iff, decide_eq_false_iff_not]
      omega
    have hlow : isLowSurrogate u.value = false := by
      rw [hu, isLowSurrogate, Bool.and_eq_false_iff, decide_eq_false_iff_not]
      omega
    refine ⟨.unit u, fun parts => ?_⟩
    have hunit : charsOf? (.unit u :: parts) = (charsOf? parts).map (.ofNat u.value :: ·) := by
      cases parts with
      | nil => simp [charsOf?, hhigh, hlow]
      | cons p parts => cases p <;> simp [charsOf?, hhigh, hlow]
    rw [hunit, hu, Char.ofNat_toNat]

/-- Every text can be written, character by character. -/
theorem exists_textOf? (x : String) : ∃ parts, textOf? parts = some x := by
  have hchars (cs : List Char) : ∃ parts, charsOf? parts = some cs := by
    induction cs with
    | nil => exact ⟨[], rfl⟩
    | cons c cs ih =>
      obtain ⟨parts, hparts⟩ := ih
      obtain ⟨p, hp⟩ := exists_textPart c
      exact ⟨p :: parts, by rw [hp, hparts]; rfl⟩
  obtain ⟨parts, hparts⟩ := hchars x.toList
  exact ⟨parts, by rw [textOf?, hparts, Option.map_some, String.ofList_toList]⟩

/-! ### Numbers -/

/-- Every number is a row of digits that begins with a zero only if this
is all. The induction takes the last digit off the number. -/
theorem exists_wholePart (n : Nat) : ∃ w : WholePart, w.value = n := by
  induction n using Nat.strongRecOn with
  | ind n ih =>
    by_cases hsmall : n < 10
    · refine ⟨⟨⟨⟨n, hsmall⟩, []⟩, fun _ => rfl⟩, ?_⟩
      show Text.decimalValue [⟨n, hsmall⟩] = n
      rw [Text.decimalValue_cons]
      simp
    · -- The last digit is put behind those of a tenth of the number, which is not zero.
      obtain ⟨w, hw⟩ := ih (n / 10) (by omega)
      have hfirst : w.digits.first ≠ 0 := by
        intro hzero
        have hvalue : w.value = 0 := by
          rw [WholePart.value, Digits.toList, hzero, w.noZero hzero]
          rfl
        omega
      refine ⟨⟨⟨w.digits.first, w.digits.others ++ [⟨n % 10, by omega⟩]⟩,
        fun hzero => absurd hzero hfirst⟩, ?_⟩
      show Text.decimalValue (w.digits.toList ++ [⟨n % 10, by omega⟩]) = n
      rw [Text.decimalValue_concat]
      show 10 * w.value + n % 10 = n
      omega

/-- Every integer can be written in plain decimal, and zero without a sign. -/
theorem exists_denotes (i : Int) : ∃ n : Numeral, n.Denotes i := by
  obtain ⟨w, hw⟩ := exists_wholePart i.natAbs
  by_cases hnegative : i < 0
  · refine ⟨⟨true, w, none, none⟩, rfl, rfl, ?_, fun _ => ?_⟩
    · show i = -(w.value : Int)
      omega
    · show w.value ≠ 0
      omega
  · refine ⟨⟨false, w, none, none⟩, rfl, rfl, ?_, fun h => by cases h⟩
    show i = (w.value : Int)
    omega

/-! ### Values -/

mutual

/-- Every value can be written, and without the word `null` if it does
not stand for a value. So no schema is one of which nothing can be
accepted. By recursion on the schema, together with the next theorem,
which is about the fields of a record. -/
theorem Schema.exists_describes : (s : Schema) → s.Clear → (v : s.Value) →
    ∃ t, s.Describes v t ∧ (s.admitsNull = false → t ≠ .null)
  | .flag, _, b => ⟨.flag b, by rw [Schema.Describes], fun _ h => by cases h⟩
  | .text, _, x => by
    obtain ⟨parts, hparts⟩ := exists_textOf? x
    refine ⟨.text parts, ?_, fun _ h => by cases h⟩
    rw [Schema.Describes]
    exact ⟨parts, rfl, hparts⟩
  | .integer, _, i => by
    obtain ⟨n, hn⟩ := exists_denotes (Int64.toInt i)
    refine ⟨.number n, ?_, fun _ h => by cases h⟩
    rw [Schema.Describes]
    exact ⟨n, rfl, hn⟩
  | .optional s, _, none => ⟨.null, by rw [Schema.Describes], fun h => by cases h⟩
  | .optional s, hs, some v => by
    rw [Schema.Clear] at hs
    -- A value that is there must not be written as `null`, which would say that it is
    -- absent.
    obtain ⟨t, ht, hnull⟩ := Schema.exists_describes s hs.2 v
    refine ⟨t, ?_, fun h => by cases h⟩
    rw [Schema.Describes]
    exact ⟨hnull hs.1, ht⟩
  | .nullable s, hs, v => by
    rw [Schema.Clear] at hs
    obtain ⟨t, ht, hnull⟩ := Schema.exists_describes s hs.2 v
    refine ⟨t, ?_, fun h => by cases h⟩
    rw [Schema.Describes]
    exact .inr ⟨hnull hs.1, ht⟩
  | .list s, hs, vs => by
    rw [Schema.Clear] at hs
    -- Items are written one after the other, with nothing in between.
    have hitems : ∃ items : Items, List.Forall₂ s.Describes vs items.toList := by
      induction vs with
      | nil => exact ⟨.nil .none, .nil⟩
      | cons v vs ih =>
        obtain ⟨items, hitems⟩ := ih
        obtain ⟨t, ht, -⟩ := Schema.exists_describes s hs v
        exact ⟨.cons .none t .none items, .cons ht hitems⟩
    obtain ⟨items, hitems⟩ := hitems
    refine ⟨.array items, ?_, fun _ h => by cases h⟩
    rw [Schema.Describes]
    exact ⟨items, rfl, hitems⟩
  | .record fields, hs, vs => by
    rw [Schema.Clear] at hs
    obtain ⟨members, ms, hms, hvs, -⟩ := Fields.exists_describes fields hs vs
    refine ⟨.object members, ?_, fun _ h => by cases h⟩
    rw [Schema.Describes]
    exact ⟨members, ms, rfl, hms, hvs⟩

/-- Every row of values can be written, and without members of other
names. The members of the later fields must not be members of the first
field, hence the second half. -/
theorem Fields.exists_describes : (fields : Fields) → fields.Clear → (vs : fields.Values) →
    ∃ (members : Members) (ms : List (String × Tree)), members.named? = some ms ∧
      fields.Describes vs ms ∧ ∀ m ∈ ms, fields.schema? m.1 ≠ none
  | .nil, _, () => ⟨.nil .none, [], rfl, by rw [Fields.Describes]; trivial, fun _ hm => by cases hm⟩
  | .cons name s others, h, (v, vs) => by
    rw [Fields.Clear] at h
    obtain ⟨hname, hs, hothers⟩ := h
    obtain ⟨key, hkey⟩ := exists_textOf? name
    obtain ⟨t, ht, -⟩ := Schema.exists_describes s hs v
    obtain ⟨members, ms, hms, hvs, hfields⟩ := Fields.exists_describes others hothers vs
    -- Every field has a name of its own, so what is written for the others is not
    -- taken for this one.
    have hne : ∀ m ∈ ms, m.1 ≠ name := by
      rintro m hm rfl
      exact hfields m hm hname
    have hnone : ms.filter (fun m => m.1 = name) = [] :=
      List.filter_eq_nil_iff.mpr fun m hm => by simpa using hne m hm
    have hall : ms.filter (fun m => m.1 ≠ name) = ms :=
      List.filter_eq_self.mpr fun m hm => by simpa using hne m hm
    refine ⟨.cons .none key .none .none t .none members, (name, t) :: ms, ?_, ?_, ?_⟩
    · rw [named?_cons, hkey, hms]
      rfl
    · rw [Fields.Describes]
      refine ⟨.inl ⟨t, ?_, ht⟩, ?_⟩
      · rw [List.filter_cons_of_pos (by simp), hnone]
      · rw [List.filter_cons_of_neg (by simp), hall]
        exact hvs
    · intro m hm
      rw [Fields.schema?]
      split
      · simp
      · rename_i hother
        rcases List.mem_cons.mp hm with rfl | hm'
        · exact absurd rfl hother
        · exact hfields m hm'

end

end NpuAttribution.Json
