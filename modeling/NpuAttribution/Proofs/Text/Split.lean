/-!
# `NpuAttribution.Proofs.Text.Split`: the pieces between separators

Values, entries and lines are all taken apart at a separator. The pieces are what stands
between the separators, so no piece has a separator in it, and there is always a first piece.
`splitOn_cases` says how the pieces begin, and the other statements follow from it.
-/

set_option autoImplicit false

namespace NpuAttribution.Text

variable {α : Type} [BEq α] [LawfulBEq α] {x : α} {xs : List α}

/-- Either there is no separator, or the pieces are what stands in front
of the first one and the pieces of what follows it. -/
theorem splitOn_cases (x : α) (xs : List α) :
    x ∉ xs ∧ xs.splitOn x = [xs] ∨
      ∃ first rest, xs = first ++ x :: rest ∧ x ∉ first ∧
        xs.splitOn x = first :: rest.splitOn x := by
  by_cases hx : x ∈ xs
  · obtain ⟨first, rest, rfl, hfirst⟩ := List.eq_append_cons_of_mem hx
    refine .inr ⟨first, rest, rfl, hfirst, ?_⟩
    rw [List.splitOn_append_cons_self, List.splitOn_eq_singleton hfirst]
    rfl
  · exact .inl ⟨hx, List.splitOn_eq_singleton hx⟩

/-- A piece is a part of the whole without a separator in it. The
induction is on the length of the whole, as what follows a separator is
shorter by one at least. -/
theorem infix_of_mem_splitOn {piece : List α} (h : piece ∈ xs.splitOn x) :
    piece <:+: xs ∧ x ∉ piece := by
  induction hlength : xs.length using Nat.strongRecOn generalizing xs with
  | _ n ih =>
    rcases splitOn_cases x xs with ⟨hx, hsplit⟩ | ⟨first, rest, rfl, hfirst, hsplit⟩
    · rw [hsplit, List.mem_singleton] at h
      subst h
      exact ⟨List.infix_refl piece, hx⟩
    · rw [hsplit] at h
      cases h with
      | head => exact ⟨(List.prefix_append _ _).isInfix, hfirst⟩
      | tail _ hrest =>
        have hlt : rest.length < n := by
          rw [← hlength, List.length_append, List.length_cons]
          omega
        obtain ⟨hpart, hpiece⟩ := ih _ hlt hrest rfl
        have hsuffix : rest <:+ first ++ x :: rest :=
          (List.suffix_cons x rest).trans (List.suffix_append first (x :: rest))
        exact ⟨hpart.trans hsuffix.isInfix, hpiece⟩

/-- There is one piece if and only if there is no separator, and then
it is the whole. -/
theorem splitOn_eq_singleton_iff {piece : List α} :
    xs.splitOn x = [piece] ↔ xs = piece ∧ x ∉ piece := by
  constructor
  · intro h
    rcases splitOn_cases x xs with ⟨hx, hsplit⟩ | ⟨first, rest, -, -, hsplit⟩
    · obtain rfl : xs = piece := (List.cons.inj (hsplit.symm.trans h)).1
      exact ⟨rfl, hx⟩
    · exact absurd (List.cons.inj (hsplit.symm.trans h)).2 (List.splitOn_ne_nil x rest)
  · rintro ⟨rfl, hx⟩
    exact List.splitOn_eq_singleton hx

/-- There are two pieces if and only if there is one separator. They are
what stands on either side of it, and either of them may be empty. -/
theorem splitOn_eq_pair_iff {first second : List α} :
    xs.splitOn x = [first, second] ↔ xs = first ++ x :: second ∧ x ∉ first ∧ x ∉ second := by
  constructor
  · intro h
    rcases splitOn_cases x xs with ⟨-, hsplit⟩ | ⟨first', rest, rfl, hfirst, hsplit⟩
    · cases hsplit.symm.trans h
    · obtain ⟨rfl, hrest⟩ := List.cons.inj (hsplit.symm.trans h)
      obtain ⟨rfl, hsecond⟩ := splitOn_eq_singleton_iff.mp hrest
      exact ⟨rfl, hfirst, hsecond⟩
  · rintro ⟨rfl, hfirst, hsecond⟩
    rw [List.splitOn_append_cons_self, List.splitOn_eq_singleton hfirst,
      List.splitOn_eq_singleton hsecond]
    rfl

/-- What the first piece is: the whole, or what stands in front of a
separator. The pieces after it need not be known. -/
theorem head?_splitOn_eq_some_iff {first : List α} :
    (xs.splitOn x).head? = some first ↔
      x ∉ first ∧ (xs = first ∨ ∃ rest, xs = first ++ x :: rest) := by
  constructor
  · intro h
    rcases splitOn_cases x xs with ⟨hx, hsplit⟩ | ⟨first', rest, rfl, hfirst, hsplit⟩
    · rw [hsplit] at h
      obtain rfl : xs = first := Option.some.inj h
      exact ⟨hx, .inl rfl⟩
    · rw [hsplit] at h
      obtain rfl : first' = first := Option.some.inj h
      exact ⟨hfirst, .inr ⟨rest, rfl⟩⟩
  · rintro ⟨hfirst, rfl | ⟨rest, rfl⟩⟩
    · rw [List.splitOn_eq_singleton hfirst]
      rfl
    · rw [List.splitOn_append_cons_self, List.splitOn_eq_singleton hfirst]
      rfl

end NpuAttribution.Text
