import NpuAttribution.Config.Endpoint

/-!
# `NpuAttribution.Proofs.Config.Endpoint`: which texts name a socket

A socket is named by its path, and the scheme may stand in front of the path. `Names` says so
in terms of texts that are joined, and `ofString?_eq_some_iff` says that just these texts are
read. The scheme is taken off once: what remains may begin with it again.
-/

set_option autoImplicit false

namespace NpuAttribution

namespace Endpoint

/-- A text names the socket at a path, with the scheme in front of
it or without. If the text begins with the scheme then this is no
part of the path. -/
structure Names (raw path : String) : Prop where
  stripped : raw = scheme ++ path ∨ raw = path ∧ ∀ rest, raw ≠ scheme ++ rest
  socket : ∃ stem, path = stem ++ suffix

/-- A path that ends in the suffix is not empty, since the suffix is not. -/
theorem ne_empty_of_socket {path : String} (h : ∃ stem, path = stem ++ suffix) : path ≠ "" := by
  obtain ⟨stem, rfl⟩ := h
  intro hempty
  exact absurd (String.append_eq_empty_iff.mp hempty).2 (by decide)

/-- A text names one path at most. If it begins with the scheme then the
path is what is behind it, and otherwise the path is the text. -/
theorem Names.unique {raw path path' : String} (h : Names raw path) (h' : Names raw path') :
    path = path' := by
  cases h.stripped with
  | inl hraw =>
    cases h'.stripped with
    | inl hraw' => exact (String.append_right_inj scheme).mp (hraw.symm.trans hraw')
    | inr hraw' => exact absurd hraw (hraw'.2 path)
  | inr hraw =>
    cases h'.stripped with
    | inl hraw' => exact absurd hraw' (hraw.2 path')
    | inr hraw' => exact hraw.1.symm.trans hraw'.1

/-- What is left of a text once the scheme is taken off. The scheme is
looked for once, at the front, and a text that does not begin with it
is left as it is. -/
theorem withoutScheme_eq_iff {raw path : List Char} :
    withoutScheme raw = path ↔
      raw = scheme.toList ++ path ∨ raw = path ∧ ∀ rest, raw ≠ scheme.toList ++ rest := by
  unfold withoutScheme
  split
  · rename_i hscheme
    obtain ⟨rest, rfl⟩ := List.isPrefixOf_iff_prefix.mp hscheme
    have hdrop : (scheme.toList ++ rest).drop scheme.length = rest := List.drop_left
    rw [hdrop]
    constructor
    · rintro rfl
      exact .inl rfl
    · rintro (h | ⟨-, h⟩)
      · exact List.append_cancel_left h
      · exact absurd rfl (h rest)
  · rename_i hscheme
    have hnone (rest : List Char) : raw ≠ scheme.toList ++ rest := by
      rintro rfl
      exact hscheme (List.isPrefixOf_iff_prefix.mpr ⟨rest, rfl⟩)
    constructor
    · intro h
      exact .inr ⟨h, hnone⟩
    · rintro (h | ⟨h, -⟩)
      · exact absurd h (hnone path)
      · exact h

/-- Just the texts that name a socket are read, and as the path that
they name. This is all that is used of the reader of endpoints below. -/
theorem ofString?_eq_some_iff {raw : String} {e : Endpoint} :
    ofString? raw = some e ↔ Names raw e.path := by
  -- Both sides are about the characters of the two texts.
  have hstripped : withoutScheme raw.toList = e.path.toList ↔
      raw = scheme ++ e.path ∨ raw = e.path ∧ ∀ rest, raw ≠ scheme ++ rest := by
    rw [withoutScheme_eq_iff, ← String.toList_append, String.toList_inj, String.toList_inj]
    refine or_congr_right (and_congr_right fun _ =>
      ⟨fun h rest hrest => ?_, fun h rest hrest => ?_⟩)
    · exact h rest.toList (by rw [hrest, String.toList_append])
    · refine h (String.ofList rest) (String.toList_inj.mp ?_)
      rw [hrest, String.toList_append, String.toList_ofList]
  have hsocket : suffix.toList.isSuffixOf e.path.toList = true ↔
      ∃ stem, e.path = stem ++ suffix := by
    rw [List.isSuffixOf_iff_suffix]
    constructor
    · rintro ⟨stem, hstem⟩
      refine ⟨String.ofList stem, String.toList_inj.mp ?_⟩
      rw [String.toList_append, String.toList_ofList, hstem]
    · rintro ⟨stem, hstem⟩
      exact ⟨stem.toList, by rw [hstem, String.toList_append]⟩
  -- The reader tests the suffix only, so the path itself is known from the text.
  show (if suffix.toList.isSuffixOf (withoutScheme raw.toList) then
    some (⟨String.ofList (withoutScheme raw.toList)⟩ : Endpoint) else none) = some e ↔ _
  rw [Option.ite_none_right_eq_some, Option.some.injEq]
  constructor
  · rintro ⟨hsuffix, rfl⟩
    rw [String.toList_ofList] at hstripped hsocket
    exact ⟨hstripped.mp rfl, hsocket.mp hsuffix⟩
  · rintro ⟨h, hstem⟩
    rw [hstripped.mpr h, String.ofList_toList]
    exact ⟨hsocket.mpr hstem, rfl⟩

end Endpoint

end NpuAttribution
