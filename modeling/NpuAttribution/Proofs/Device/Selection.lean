import Mathlib.Data.List.Forall2
import NpuAttribution.Device.Selection

/-!
# `NpuAttribution.Proofs.Device.Selection`: selections one after the other

A list is searched item by item, so what is found in it is put together from what is found in its
items, in the order of the list. Where a list is taken apart its selection is taken apart as well
(`concat_append`), and an item more or less is a part more or less (`concat_map_insert`). If no
item contributes more than once then what is found is the image of some of the items, and these
are in order (`exists_sublist_flatMap`).
-/

set_option autoImplicit false

namespace NpuAttribution.Device.Selection

/-- A single selection is what it is put together from. -/
theorem concat_singleton (s : Selection) : concat [s] = s := by
  simp [concat]

/-- The first selection comes before what the others come to. -/
theorem concat_cons (s : Selection) (rest : List Selection) :
    concat (s :: rest) =
      ⟨s.devices ++ (concat rest).devices, s.warnings ++ (concat rest).warnings⟩ := by
  simp [concat]

/-- Rows of selections one after the other come to what each of them comes to. -/
theorem concat_append (xs ys : List Selection) :
    concat (xs ++ ys) = concat [concat xs, concat ys] := by
  simp [concat]

/-- One item among others contributes what is found in it, at its place. -/
theorem concat_map_insert {α : Type} (search : α → Selection) (before after : List α) (a : α) :
    concat ((before ++ a :: after).map search) =
      concat [concat (before.map search), search a, concat (after.map search)] := by
  rw [List.map_append, List.map_cons, concat_append, concat_cons (search a)]
  simp [concat]

/-- An item in which nothing is found might as well be missing. -/
theorem concat_map_insert_empty {α : Type} {search : α → Selection} {a : α}
    (h : search a = .empty) (before after : List α) :
    concat ((before ++ a :: after).map search) = concat ((before ++ after).map search) := by
  rw [concat_map_insert, h, List.map_append, concat_append]
  simp [concat, empty]

/-- If each item has one image or none then all images are those of some
items in their order. The chosen items are those that have an image. The
induction is on the items. -/
theorem exists_sublist_flatMap {α β : Type} {R : α → β → Prop} {images : α → List β}
    (h : ∀ a, images a = [] ∨ ∃ b, R a b ∧ images a = [b]) (as : List α) :
    ∃ chosen, chosen.Sublist as ∧ List.Forall₂ R chosen (as.flatMap images) := by
  induction as with
  | nil => exact ⟨[], .slnil, .nil⟩
  | cons a as ih =>
    obtain ⟨chosen, hsub, hrelated⟩ := ih
    rw [List.flatMap_cons]
    rcases h a with hnone | ⟨b, hb, hone⟩
    · rw [hnone]
      exact ⟨chosen, hsub.cons a, hrelated⟩
    · rw [hone]
      exact ⟨a :: chosen, hsub.cons_cons a, hrelated.cons hb⟩

end NpuAttribution.Device.Selection
