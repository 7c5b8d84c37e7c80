import Mathlib.Data.List.TakeWhile
import NpuAttribution.Proofs.Text.Numeral
import NpuAttribution.Text.Blank

/-!
# `NpuAttribution.Proofs.Text.Blank`: what trimming takes away

Trimming takes blanks away at both ends and nothing else: `exists_trim` puts a text together
again from the trimmed one, and `trim_padded` says that blanks around a text without blanks are
all taken away. Where a text has some other character in it, trimming goes up to this character
from either side at most (`trim_append_cons`).
-/

set_option autoImplicit false

namespace NpuAttribution.Text

/-- A text of blanks only. -/
def AllBlank (cs : List Char) : Prop := ∀ c ∈ cs, isBlank c = true

variable {before cs after : List Char}

/-- The empty text has no characters that could be anything but blank. -/
theorem allBlank_nil : AllBlank [] := fun _ h => by cases h

/-- What is passed over from the front is blank. Together with
`dropWhile` this is what trimming in front takes away. -/
theorem allBlank_takeWhile (cs : List Char) : AllBlank (cs.takeWhile isBlank) :=
  List.all_eq_true.mp List.all_takeWhile

/-- Blanks remain blanks in the opposite order, in which the end of a
text is trimmed. -/
theorem AllBlank.reverse (h : AllBlank cs) : AllBlank cs.reverse :=
  fun c hc => h c (List.mem_reverse.mp hc)

/-- Letters are not blank. Of the white space of Unicode only a few
characters are in the range of ASCII, and those come before all letters. -/
theorem isAlpha_of_isBlank {c : Char} (h : isBlank c = true) : c.isAlpha = false := by
  cases halpha : c.isAlpha with
  | false => rfl
  | true =>
    -- Both cases of letters are intervals of code points.
    have hletter : 65 ≤ c.toNat ∧ c.toNat ≤ 90 ∨ 97 ≤ c.toNat ∧ c.toNat ≤ 122 := by
      rcases (Bool.or_eq_true c.isUpper c.isLower).mp halpha with hupper | hlower
      · have hbounds : 'A'.val ≤ c.val ∧ c.val ≤ 'Z'.val := of_decide_eq_true hupper
        exact .inl hbounds
      · obtain ⟨hlow, hhigh⟩ := (Bool.and_eq_true _ _).mp hlower
        have hbounds : 'a'.val ≤ c.val ∧ c.val ≤ 'z'.val :=
          ⟨of_decide_eq_true hlow, of_decide_eq_true hhigh⟩
        exact .inr hbounds
    simp only [isBlank, Bool.or_eq_true, Bool.and_eq_true, decide_eq_true_eq, beq_iff_eq] at h
    omega

/-- Digits are not blank, so trimming never takes a digit away. -/
theorem isBlank_digitChar (d : Fin 10) : isBlank (digitChar d) = false := by
  revert d
  decide

/-- Blanks at the end are taken away, however many there are. -/
theorem trimEnd_append (h : AllBlank after) : trimEnd (cs ++ after) = trimEnd cs := by
  show ((cs ++ after).reverse.dropWhile isBlank).reverse = (cs.reverse.dropWhile isBlank).reverse
  rw [List.reverse_append, List.dropWhile_append_of_pos h.reverse]

/-- Nothing is taken away of a text that has no blanks. It is enough to
know this of the last character, but no caller knows less than this. -/
theorem trimEnd_of_forall_not_blank (h : ∀ c ∈ cs, isBlank c = false) : trimEnd cs = cs := by
  show (cs.reverse.dropWhile isBlank).reverse = cs
  cases hrev : cs.reverse with
  | nil => exact (List.reverse_eq_nil_iff.mp hrev).symm
  | cons c rest =>
    have hc : c ∈ cs := List.mem_reverse.mp (hrev ▸ List.mem_cons_self)
    rw [List.dropWhile_cons_of_neg (by rw [h c hc]; exact Bool.false_ne_true), ← hrev,
      List.reverse_reverse]

/-- Only what follows a character that is not blank is trimmed at the
end. The character stops the search from the end, so everything in front
of it is left as it is. -/
theorem trimEnd_append_cons {c : Char} (hc : isBlank c = false) (cs rest : List Char) :
    trimEnd (cs ++ c :: rest) = cs ++ c :: trimEnd rest := by
  show ((cs ++ c :: rest).reverse.dropWhile isBlank).reverse =
    cs ++ c :: (rest.reverse.dropWhile isBlank).reverse
  -- From behind, the search ends at the latest here.
  have hstop : (c :: cs.reverse).dropWhile isBlank = c :: cs.reverse :=
    List.dropWhile_cons_of_neg (by rw [hc]; exact Bool.false_ne_true)
  have hdrop : (cs ++ c :: rest).reverse.dropWhile isBlank =
      rest.reverse.dropWhile isBlank ++ c :: cs.reverse := by
    rw [List.reverse_append, List.reverse_cons, List.append_assoc, List.singleton_append,
      List.dropWhile_append, hstop]
    split
    · rename_i hempty
      rw [List.isEmpty_iff.mp hempty, List.nil_append]
    · rfl
  rw [hdrop, List.reverse_append, List.reverse_cons, List.reverse_reverse, List.append_assoc,
    List.singleton_append]

/-- Only what precedes a character that is not blank is trimmed in
front. This is the same as `trimEnd_append_cons` for the other end. -/
theorem dropWhile_append_cons {c : Char} (hc : isBlank c = false) (cs rest : List Char) :
    (cs ++ c :: rest).dropWhile isBlank = cs.dropWhile isBlank ++ c :: rest := by
  have hstop : (c :: rest).dropWhile isBlank = c :: rest :=
    List.dropWhile_cons_of_neg (by rw [hc]; exact Bool.false_ne_true)
  rw [List.dropWhile_append, hstop]
  split
  · rename_i hempty
    rw [List.isEmpty_iff.mp hempty, List.nil_append]
  · rfl

/-- A character that is not blank stays, and the text is trimmed on
both sides of it. -/
theorem trim_append_cons {c : Char} (hc : isBlank c = false) (cs rest : List Char) :
    trim (cs ++ c :: rest) = cs.dropWhile isBlank ++ c :: trimEnd rest := by
  show trimEnd ((cs ++ c :: rest).dropWhile isBlank) = _
  rw [dropWhile_append_cons hc, trimEnd_append_cons hc]

/-- Blanks at the end make no difference, be there something else in
the text or not. -/
theorem trim_append (h : AllBlank after) (cs : List Char) : trim (cs ++ after) = trim cs := by
  show trimEnd ((cs ++ after).dropWhile isBlank) = trimEnd (cs.dropWhile isBlank)
  rw [List.dropWhile_append]
  split
  · rename_i hempty
    rw [List.isEmpty_iff.mp hempty, List.dropWhile_eq_nil_iff.mpr h]
  · exact trimEnd_append h

/-- Blanks around a text without blanks are all taken away. This is
the case of an index or a name in a list, where the blanks are
around and not inside. -/
theorem trim_padded (hbefore : AllBlank before) (hafter : AllBlank after)
    (h : ∀ c ∈ cs, isBlank c = false) : trim (before ++ cs ++ after) = cs := by
  rw [trim_append hafter]
  show trimEnd ((before ++ cs).dropWhile isBlank) = cs
  rw [List.dropWhile_append_of_pos hbefore]
  cases cs with
  | nil => rfl
  | cons c rest =>
    rw [List.dropWhile_cons_of_neg (by rw [h c List.mem_cons_self]; exact Bool.false_ne_true),
      trimEnd_of_forall_not_blank h]

/-- Only blanks are taken away at the end: with some blanks behind it,
the trimmed text is the text again. -/
theorem exists_trimEnd (cs : List Char) : ∃ after, AllBlank after ∧ cs = trimEnd cs ++ after := by
  refine ⟨(cs.reverse.takeWhile isBlank).reverse, (allBlank_takeWhile _).reverse, ?_⟩
  show cs = (cs.reverse.dropWhile isBlank).reverse ++ (cs.reverse.takeWhile isBlank).reverse
  rw [← List.reverse_append, List.takeWhile_append_dropWhile, List.reverse_reverse]

/-- Only blanks are taken away, and only at the ends. With some blanks
on either side the trimmed text is the text again, which is how
statements about a trimmed text become statements about the text. -/
theorem exists_trim (cs : List Char) :
    ∃ before after, AllBlank before ∧ AllBlank after ∧ cs = before ++ trim cs ++ after := by
  obtain ⟨after, hafter, hend⟩ := exists_trimEnd (cs.dropWhile isBlank)
  refine ⟨cs.takeWhile isBlank, after, allBlank_takeWhile cs, hafter, ?_⟩
  show cs = cs.takeWhile isBlank ++ trimEnd (cs.dropWhile isBlank) ++ after
  rw [List.append_assoc, ← hend, List.takeWhile_append_dropWhile]

end NpuAttribution.Text
