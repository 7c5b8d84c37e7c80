import Mathlib.Data.List.DropRight
import NpuAttribution.Json.Meaning

/-!
# `NpuAttribution.Proofs.Json.Numbers`: reading a number that has been taken apart

The form of numbers is checked byte by byte, and `NumberPlace.along` is where some bytes lead
from a place in a number. A number as it is written leads from the start to a place where it
may end (`along_bytes`). Nothing else tells that it ends there, so what follows must not go on
with it: `Apart` says this, and it is true of everything that may follow a value in a JSON text.

Integers of 64 bits are kept whatever the range of double precision is, but no integer of 64
bits is out of this range (`isSome_number?`). So to keep a number and to be in the range is the
same.
-/

set_option autoImplicit false

namespace NpuAttribution.Json

/-! ### Digits -/

/-- The byte of a digit is the byte of a digit. -/
theorem isDigit_digitByte (d : Fin 10) : isDigit (digitByte d) = true := by
  revert d
  decide

/-- The value of a digit is found from its byte. -/
theorem digitValue_digitByte (d : Fin 10) : digitValue (digitByte d) = d.val := by
  revert d
  decide

/-- No digit is a sign, so the sign of a number is told by its first byte. -/
theorem digitByte_ne_minus (d : Fin 10) : digitByte d ≠ 0x2D := by
  revert d
  decide

/-- Where a digit leads from the places in a number. Before the point
and after it a digit changes nothing, once there has been one. -/
theorem numberStep_digit (d : Fin 10) :
    numberStep .whole (digitByte d) = .more .whole ∧
    numberStep .point (digitByte d) = .more .fraction ∧
    numberStep .fraction (digitByte d) = .more .fraction ∧
    numberStep .exponent (digitByte d) = .more .exponentDigits ∧
    numberStep .exponentSign (digitByte d) = .more .exponentDigits ∧
    numberStep .exponentDigits (digitByte d) = .more .exponentDigits := by
  revert d
  decide

/-- A number begins with a zero or with another digit, after its sign if
it has one. After a zero no other digit may stand before the point. -/
theorem numberStep_first (d : Fin 10) :
    numberStep .start (digitByte d) = .more (if d = 0 then .zero else .whole) ∧
    numberStep .minus (digitByte d) = .more (if d = 0 then .zero else .whole) := by
  revert d
  decide

/-! ### The form of a number -/

/-- Where bytes lead from a place in a number, if they are part of the number. -/
def NumberPlace.along : NumberPlace → Bytes → Option NumberPlace
  | place, [] => some place
  | place, b :: s =>
    match numberStep place b with
    | .more place => place.along s
    | _ => none

open NumberPlace (along)

variable {place place' : NumberPlace} {s rest : Bytes}

/-- One byte that is part of the number, and then the others. -/
theorem along_cons {b : UInt8} (h : numberStep place b = .more place') (s : Bytes) :
    along place (b :: s) = along place' s := by
  rw [along, h]

/-- Bytes that lead somewhere may be followed by others, which go on
from there. By this the parts of a number are looked at one by one. -/
theorem along_append (h : along place s = some place') (more : Bytes) :
    along place (s ++ more) = along place' more := by
  induction s generalizing place with
  | nil =>
    cases h
    rfl
  | cons b s ih =>
    unfold along at h
    split at h
    · rename_i next hstep
      rw [List.cons_append, along_cons hstep]
      exact ih h
    · cases h

/-- Digits lead nowhere else from a place where any digit may stand.
These are the places before the point, after it and in the exponent. -/
theorem along_digits (h : ∀ d, numberStep place (digitByte d) = .more place) (ds : List (Fin 10)) :
    along place (ds.map digitByte) = some place := by
  induction ds with
  | nil => rfl
  | cons d ds ih =>
    rw [List.map_cons, along_cons (h d)]
    exact ih

/-- The digits before the point lead to a place where the number may end
or go on. If they begin with a zero, the zero is all there is. -/
theorem along_whole (w : WholePart) (hplace : place = .start ∨ place = .minus) :
    along place (w.digits.toList.map digitByte) =
      some (if w.digits.first = 0 then .zero else .whole) := by
  have hstep : numberStep place (digitByte w.digits.first) =
      .more (if w.digits.first = 0 then .zero else .whole) := by
    rcases hplace with rfl | rfl
    · exact (numberStep_first _).1
    · exact (numberStep_first _).2
  rw [Digits.toList, List.map_cons, along_cons hstep]
  split
  · rename_i hzero
    rw [w.noZero hzero]
    rfl
  · exact along_digits (fun d => (numberStep_digit d).1) _

/-- The point and the digits after it lead to a place where the number
may end. There is at least one digit, without which it must not. -/
theorem along_fraction (ds : Digits) (hplace : place = .zero ∨ place = .whole) :
    along place (fractionBytes ds) = some .fraction := by
  have hpoint : numberStep place 0x2E = .more .point := by
    rcases hplace with rfl | rfl <;> rfl
  rw [fractionBytes, along_cons hpoint, Digits.toList, List.map_cons,
    along_cons (numberStep_digit _).2.1]
  exact along_digits (fun d => (numberStep_digit d).2.2.1) _

/-- The exponent with its letter and its sign. It may follow the digits
before the point or those after it, and it ends the number. -/
theorem along_exponent (e : Exponent)
    (hplace : place = .zero ∨ place = .whole ∨ place = .fraction) :
    along place e.bytes = some .exponentDigits := by
  have hletter : numberStep place (if e.upper then 0x45 else 0x65) = .more .exponent := by
    rcases hplace with rfl | rfl | rfl <;> cases e.upper <;> rfl
  have hdigits : along .exponentDigits (e.digits.others.map digitByte) = some .exponentDigits :=
    along_digits (fun d => (numberStep_digit d).2.2.2.2.2) _
  rw [Exponent.bytes, along_cons hletter, Digits.toList, List.map_cons]
  -- With a sign there is one place more on the way.
  cases e.sign with
  | none =>
    show along .exponent (digitByte e.digits.first :: _) = _
    rw [along_cons (numberStep_digit _).2.2.2.1, hdigits]
  | some minus =>
    have hsign : numberStep .exponent (if minus then 0x2D else 0x2B) = .more .exponentSign := by
      cases minus <;> rfl
    show along .exponent ((if minus then 0x2D else 0x2B) :: digitByte e.digits.first :: _) = _
    rw [along_cons hsign, along_cons (numberStep_digit _).2.2.2.2.1, hdigits]

/-- A number leads from the start to a place where it may end. The four
parts of a number are passed one after the other, and each of the last
two may be missing. -/
theorem along_bytes (n : Numeral) : ∃ place, along .start n.bytes = some place ∧
    place.isEnd = true := by
  have hsign : ∃ place, along .start (if n.negative then [0x2D] else []) = some place ∧
      (place = .start ∨ place = .minus) := by
    cases n.negative with
    | false => exact ⟨.start, rfl, .inl rfl⟩
    | true => exact ⟨.minus, rfl, .inr rfl⟩
  -- The places on the way are named for what has been passed there.
  obtain ⟨signed, hsigned, hsigned'⟩ := hsign
  have hwhole : ∃ place, along signed (n.whole.digits.toList.map digitByte) = some place ∧
      (place = .zero ∨ place = .whole) := by
    refine ⟨_, along_whole n.whole hsigned', ?_⟩
    split
    · exact .inl rfl
    · exact .inr rfl
  obtain ⟨counted, hcounted, hcounted'⟩ := hwhole
  have hfraction : ∃ place, along counted ((n.fraction.map fractionBytes).getD []) = some place ∧
      (place = .zero ∨ place = .whole ∨ place = .fraction) := by
    cases n.fraction with
    | none => exact ⟨counted, rfl, by rcases hcounted' with rfl | rfl <;> simp⟩
    | some ds => exact ⟨.fraction, along_fraction ds hcounted', .inr (.inr rfl)⟩
  obtain ⟨divided, hdivided, hdivided'⟩ := hfraction
  have hexponent : ∃ place, along divided ((n.exponent.map Exponent.bytes).getD []) = some place ∧
      place.isEnd = true := by
    cases n.exponent with
    | none => exact ⟨divided, rfl, by rcases hdivided' with rfl | rfl | rfl <;> rfl⟩
    | some e => exact ⟨.exponentDigits, along_exponent e hdivided', rfl⟩
  obtain ⟨place, hplace, hend⟩ := hexponent
  refine ⟨place, ?_, hend⟩
  rw [Numeral.bytes, List.append_assoc, List.append_assoc, along_append hsigned,
    along_append hcounted, along_append hdivided, hplace]

/-! ### The end of a number -/

/-- Whether a byte after a number would be part of it. -/
def continuesNumber (b : UInt8) : Bool := isDigit b || b == 0x2E || isExponentLetter b

/-- What stands here is no part of a number before it. -/
def Apart (rest : Bytes) : Prop := ∀ b, rest.head? = some b → continuesNumber b = false

/-- A number that may end does so before a byte that is no part of it. The
places where it may end are four, and each of them refuses such a byte. -/
theorem numberStep_of_isEnd {b : UInt8} (hend : place.isEnd = true)
    (h : continuesNumber b = false) : numberStep place b = .ended := by
  simp only [continuesNumber, Bool.or_eq_false_iff, beq_eq_false_iff_ne] at h
  obtain ⟨⟨hdigit, hpoint⟩, hletter⟩ := h
  cases place with
  | zero | whole | fraction | exponentDigits => simp [numberStep, hdigit, hpoint, hletter]
  | start | minus | point | exponent | exponentSign => cases hend

/-- Bytes that lead to an end are read, if what follows stands apart.
The induction is on the bytes, and what has been read before them is
collected in `acc`. -/
theorem readLexemeFrom_along (hrest : Apart rest) (h : along place s = some place')
    (hend : place'.isEnd = true) (acc : Bytes) :
    readLexemeFrom place acc (s ++ rest) = .ok (acc.reverse ++ s, rest) := by
  induction s generalizing place acc with
  | nil =>
    cases h
    rw [List.append_nil, List.nil_append]
    cases rest with
    | nil => simp [readLexemeFrom, hend]
    | cons b rest =>
      rw [readLexemeFrom, numberStep_of_isEnd hend (hrest b rfl)]
  | cons b s ih =>
    unfold along at h
    split at h
    · rename_i next hstep
      rw [List.cons_append, readLexemeFrom, hstep]
      show readLexemeFrom next (b :: acc) (s ++ rest) = _
      rw [ih h, List.reverse_cons, List.append_assoc]
      rfl
    · cases h

/-- A number is read as the number that is meant, or it is refused because
it is out of range. This is the case of numbers in the reading of values. -/
theorem readNumber_bytes (n : Numeral) (hrest : Apart rest) :
    (readNumber (n.bytes ++ rest)).toOption = n.number?.map (·, rest) := by
  obtain ⟨place, hplace, hend⟩ := along_bytes n
  rw [readNumber, readLexemeFrom_along hrest hplace hend, Numeral.number?]
  simp only [List.reverse_nil, List.nil_append]
  cases Number.ofParts? (.ofLexeme n.bytes) <;> rfl

/-! ### The value of a number -/

/-- A number without a point and an exponent is its sign and its
digits. The reader of parts finds the digits by looking for the first
byte that is none. -/
theorem ofLexeme_plain {n : Numeral} (hfraction : n.fraction = none)
    (hexponent : n.exponent = none) :
    NumberParts.ofLexeme n.bytes =
      ⟨n.negative, n.whole.digits.toList.map Fin.val, [], 0, true⟩ := by
  have hdigits (ds : List (Fin 10)) : (ds.map digitByte).takeWhile isDigit = ds.map digitByte ∧
      (ds.map digitByte).dropWhile isDigit = [] := by
    have hall : ∀ b ∈ ds.map digitByte, isDigit b = true := by
      intro b hb
      obtain ⟨d, -, rfl⟩ := List.mem_map.mp hb
      exact isDigit_digitByte d
    exact ⟨List.takeWhile_eq_self_iff.mpr hall, List.dropWhile_eq_nil_iff.mpr hall⟩
  have hvalues (ds : List (Fin 10)) : (ds.map digitByte).map digitValue = ds.map Fin.val := by
    rw [List.map_map]
    exact List.map_congr_left fun d _ => digitValue_digitByte d
  have hbytes : n.bytes = (if n.negative then [0x2D] else []) ++
      n.whole.digits.toList.map digitByte := by
    rw [Numeral.bytes, hfraction, hexponent]
    simp
  -- A sign is there if the first byte is one, since no digit is.
  have hsign : (n.bytes.head? == some 0x2D) = n.negative := by
    rw [hbytes]
    cases n.negative with
    | false => simpa [Digits.toList] using digitByte_ne_minus _
    | true => rfl
  have hrest : (if n.negative then n.bytes.drop 1 else n.bytes) =
      n.whole.digits.toList.map digitByte := by
    rw [hbytes]
    cases n.negative <;> rfl
  simp only [NumberParts.ofLexeme, hsign, hrest, hdigits, hvalues]

/-- An integer of 64 bits that is written plainly is read as this
integer, and not as a number of double precision. Zero with a sign is
such a number, and is left out. -/
theorem number?_of_denotes {n : Numeral} {i : Int64} (h : n.Denotes i.toInt) :
    n.number? = some (.integer i.toInt) := by
  obtain ⟨hfraction, hexponent, hvalue, hzero⟩ := h
  have hcount : (n.whole.digits.toList.map Fin.val).foldl (fun n d => 10 * n + d) 0
      = n.whole.value := by
    rw [List.foldl_map, Text.foldl_digits]
    simp [WholePart.value]
  have hlow : -(2 ^ 63 : Int) ≤ i.toInt := Int64.le_toInt i
  have hhigh : i.toInt < 2 ^ 63 := Int64.toInt_lt i
  have hsize : UInt64.size = 2 ^ 64 := rfl
  rw [Numeral.number?, ofLexeme_plain hfraction hexponent]
  unfold Number.ofParts?
  simp only [hcount]
  cases hnegative : n.negative with
  | false =>
    simp only [hnegative, Bool.false_eq_true, if_false] at hvalue
    have hsmall : n.whole.value < UInt64.size := by omega
    simp [hsmall, hvalue]
  | true =>
    simp only [hnegative, if_true] at hvalue
    have hpos : 0 < n.whole.value := Nat.pos_of_ne_zero (hzero hnegative)
    have hsmall : n.whole.value ≤ UInt64.size / 2 := by omega
    simp [hsmall, hvalue, hpos]

/-! ### The range of double precision -/

/-- Rounding makes a number at most twice as large. This is very
coarse, but the range of double precision is so far away from 64 bits
that it is enough. -/
theorem roundTo53_le (n : Nat) : roundTo53 n ≤ 2 * n := by
  cases Nat.eq_zero_or_pos n with
  | inl hzero =>
    subst hzero
    decide
  | inr hpos =>
    -- The number lies between two neighbours that are a unit apart, and has at least a unit.
    obtain ⟨unit, hunit⟩ : ∃ unit, unit = 1 <<< (n.log2 - 52) := ⟨_, rfl⟩
    have hle : unit ≤ n := by
      rw [hunit, Nat.one_shiftLeft]
      calc 2 ^ (n.log2 - 52) ≤ 2 ^ n.log2 := Nat.pow_le_pow_right (by decide) (Nat.sub_le _ _)
        _ ≤ n := Nat.log2_self_le (by omega)
    have hlow : n / unit * unit ≤ n := Nat.div_mul_le_self n unit
    have hnext : (n / unit + 1) * unit ≤ 2 * n := by
      rw [Nat.add_mul, Nat.one_mul]
      omega
    have hparity : (n / unit + n / unit % 2) * unit ≤ (n / unit + 1) * unit :=
      Nat.mul_le_mul_right unit (by omega)
    show (if 2 * (n % (1 <<< (n.log2 - 52))) < 1 <<< (n.log2 - 52) then _ else
      if 2 * (n % (1 <<< (n.log2 - 52))) = 1 <<< (n.log2 - 52) then _ else _) ≤ _
    rw [← hunit]
    split
    · omega
    · split
      · exact Nat.le_trans hparity hnext
      · exact hnext

/-- Digits whose value has 64 bits are summed up completely, and none
are dropped. The value grows with every digit, so no sum on the way is
too large if the last one is not. -/
theorem significand_of_lt {ds : List Nat} {n : Nat}
    (h : ds.foldl (fun n d => 10 * n + d) n < significandBound) :
    significand n ds = (ds.foldl (fun n d => 10 * n + d) n, []) := by
  have hmono (ds : List Nat) (n : Nat) : n ≤ ds.foldl (fun n d => 10 * n + d) n := by
    induction ds generalizing n with
    | nil => exact Nat.le_refl n
    | cons d ds ih =>
      calc n ≤ 10 * n + d := by omega
        _ ≤ ds.foldl (fun n d => 10 * n + d) (10 * n + d) := ih _
  induction ds generalizing n with
  | nil => rfl
  | cons d ds ih =>
    have hlt : 10 * n + d < significandBound := Nat.lt_of_le_of_lt (hmono ds _) h
    rw [significand, if_pos hlt]
    exact ih h

/-- Every integer of 64 bits is in the range of double precision. It is
rounded twice on its way, once on its own and once after the scaling by
a power of ten that is one. -/
theorem isFinite_of_lt {p : NumberParts} (hfraction : p.fraction = []) (hexponent : p.exponent = 0)
    (h : p.whole.foldl (fun n d => 10 * n + d) 0 < UInt64.size) : p.isFinite = true := by
  obtain ⟨n, hn⟩ : ∃ n, n = p.whole.foldl (fun n d => 10 * n + d) 0 := ⟨_, rfl⟩
  have hwhole : significand 0 p.whole = (n, []) := by
    rw [hn]
    exact significand_of_lt h
  have hrange : roundTo53 (roundTo53 n * roundTo53 (Nat.pow 10 0)) < 1 <<< 1024 := by
    have hone : roundTo53 (Nat.pow 10 0) = 1 := by decide
    -- There is room for the two roundings.
    have hsize : 4 * UInt64.size ≤ 1 <<< 1024 := by decide
    rw [hone, Nat.mul_one]
    calc roundTo53 (roundTo53 n) ≤ 2 * roundTo53 n := roundTo53_le _
      _ ≤ 2 * (2 * n) := Nat.mul_le_mul_left 2 (roundTo53_le n)
      _ < 1 <<< 1024 := by omega
  have hscale : (0 : Int) + (((([] : List Nat).length : Nat) : Int) -
      (((([] : List Nat).length - ([] : List Nat).length : Nat)) : Int)) = 0 := rfl
  unfold NumberParts.isFinite
  simp only [hwhole, hfraction, significand, hexponent, hscale]
  unfold inDoubleRange
  split
  · rfl
  · rw [if_neg (by decide)]
    exact decide_eq_true hrange

/-- A number without a point and an exponent has no digits after the
point, and no exponent. -/
theorem fraction_of_plain {s : Bytes} (h : (NumberParts.ofLexeme s).plain = true) :
    (NumberParts.ofLexeme s).fraction = [] ∧ (NumberParts.ofLexeme s).exponent = 0 := by
  unfold NumberParts.ofLexeme at h ⊢
  dsimp only at h ⊢
  split
  · exact ⟨rfl, rfl⟩
  · rename_i hdrop
    rw [hdrop] at h
    dsimp only at h
    split at h <;> cases h

/-- A number is kept if it is in the range. It does not matter whether
it is kept as an integer, which has to be in the range too by
`isFinite_of_lt`. -/
theorem isSome_number? (n : Numeral) : n.number?.isSome = true ↔ n.InRange := by
  have hplain := @fraction_of_plain n.bytes
  unfold Numeral.number? Numeral.InRange
  generalize NumberParts.ofLexeme n.bytes = p at hplain ⊢
  have hhalf : UInt64.size / 2 < UInt64.size := by decide
  unfold Number.ofParts?
  dsimp only
  split
  · rename_i h
    simp only [Bool.and_eq_true, Bool.not_eq_true', decide_eq_true_eq] at h
    obtain ⟨hfraction, hexponent⟩ := hplain h.1.1
    exact iff_of_true rfl (isFinite_of_lt hfraction hexponent h.2)
  · split
    · rename_i h
      simp only [Bool.and_eq_true, decide_eq_true_eq] at h
      obtain ⟨hfraction, hexponent⟩ := hplain h.1.1.1
      exact iff_of_true rfl (isFinite_of_lt hfraction hexponent (by omega))
    · split
      · rename_i h
        exact iff_of_true rfl h
      · rename_i h
        exact iff_of_false (by simp) h

end NpuAttribution.Json
