import Mathlib.Data.Nat.Digits.Defs

/-!
# `NpuAttribution.Text.Decimal`: rows of decimal digits

Numbers are written with the most significant digit first. The digits themselves are numbers
below ten here, since they stand for characters in one place and for bytes in another.
-/

set_option autoImplicit false

namespace NpuAttribution.Text

/-- The value of a row of digits, the most significant one first. -/
def decimalValue (ds : List (Fin 10)) : Nat := Nat.ofDigits 10 (ds.reverse.map Fin.val)

@[simp] theorem decimalValue_nil : decimalValue [] = 0 := rfl

/-- A digit in front counts as often as there are numbers with the
digits after it. -/
theorem decimalValue_cons (d : Fin 10) (ds : List (Fin 10)) :
    decimalValue (d :: ds) = 10 ^ ds.length * d.val + decimalValue ds := by
  unfold decimalValue
  rw [List.reverse_cons, List.map_append, Nat.ofDigits_append, List.map_singleton,
    Nat.ofDigits_singleton, List.length_map, List.length_reverse, Nat.add_comm]

/-- Reading a row of digits from its front, on top of the value `n` of
those before it. -/
theorem foldl_digits (ds : List (Fin 10)) (n : Nat) :
    ds.foldl (fun n d => 10 * n + d.val) n = 10 ^ ds.length * n + decimalValue ds := by
  induction ds generalizing n with
  | nil => simp
  | cons d ds ih =>
    rw [List.foldl_cons, ih, decimalValue_cons, List.length_cons, Nat.pow_succ, Nat.mul_add,
      Nat.mul_assoc, Nat.add_assoc]

/-- A digit behind counts once, and makes those before it count ten
times as often. -/
theorem decimalValue_concat (ds : List (Fin 10)) (d : Fin 10) :
    decimalValue (ds ++ [d]) = 10 * decimalValue ds + d.val := by
  have hvalue (ds : List (Fin 10)) : decimalValue ds = ds.foldl (fun n d => 10 * n + d.val) 0 := by
    rw [foldl_digits, Nat.mul_zero, Nat.zero_add]
  rw [hvalue, hvalue, List.foldl_append]
  rfl

end NpuAttribution.Text
