import Mathlib.Algebra.GroupWithZero.Nat
import NpuAttribution.Wire.Row
import NpuAttribution.Wire.Writer

/-!
# `NpuAttribution.Proofs.Wire.Values`: what is written is read

The parts that messages are made of: numbers (`isVarint_writeVarint`), the keys of fields
(`isKey_writeKey`) and texts (`fromUTF8?_toUTF8`). A number is written as 64 bits, so it has
to be below 2^64, and so has the length of a content. The tenth group of a number holds a
single bit, which the bound of `readGroups_writeGroups` leaves to it.
-/

set_option autoImplicit false

namespace NpuAttribution.Wire

/-! ## Numbers -/

/-- A number with room for all its groups is read back. The last group
is a single bit, so with ten groups the numbers are those of 64 bits.
The induction is on the room, and each step takes the lowest seven
bits off the number. -/
theorem readGroups_writeGroups {room n : Nat} (h : n < 2 * 128 ^ room) :
    readGroups (room + 1) (writeGroups (room + 1) n) = some (n, []) := by
  induction room generalizing n with
  | zero =>
    have hbyte : (UInt8.ofNat n).toNat = n := by
      rw [UInt8.toNat_ofNat']
      omega
    have hsmall : n < 128 := by omega
    have hbit : ¬ 1 < n := by omega
    simp only [writeGroups, if_pos hsmall, readGroups, hbyte]
    simp [hbit]
  | succ room ih =>
    by_cases hsmall : n < 128
    · have hbyte : (UInt8.ofNat n).toNat = n := by
        rw [UInt8.toNat_ofNat']
        omega
      rw [writeGroups, if_pos hsmall]
      simp only [readGroups, hbyte, if_pos hsmall]
      simp
    · have hbyte : (UInt8.ofNat (n % 128 + 128)).toNat = n % 128 + 128 := by
        rw [UInt8.toNat_ofNat']
        omega
      have hlarge : ¬ n % 128 + 128 < 128 := by omega
      have hrest : n / 128 < 2 * 128 ^ room := by
        rw [Nat.pow_succ] at h
        omega
      rw [writeGroups, if_neg hsmall, readGroups, hbyte, if_neg hlarge, ih hrest]
      show some (n % 128 + 128 - 128 + 128 * (n / 128), ([] : Bytes)) = some (n, [])
      -- Reader and writer split the number at the same place.
      have hsum : n % 128 + 128 - 128 + 128 * (n / 128) = n := by omega
      rw [hsum]

/-- A number below 2^64 is read back, whatever follows it. Ten groups
have room for it, and reading stops at the first group that is not
marked to go on. -/
theorem isVarint_writeVarint {n : Nat} (h : n < UInt64.size) : IsVarint n (writeVarint n) := by
  have hroom : n < 2 * 128 ^ 9 := h
  exact readGroups_writeGroups hroom

/-- Negative numbers are written as 64 bits, of which the lower half is
read. The upper half repeats the sign, so nothing is lost by leaving it out. -/
theorem ofNat_toUInt64 (i : Int32) : Int32.ofNat i.toInt64.toUInt64.toNat = i := by
  have hbits : i.toInt64.toUInt64.toBitVec = i.toBitVec.signExtend 64 := rfl
  -- Bit by bit: below the sign the two agree, and only these bits are compared.
  have hlow : (i.toBitVec.signExtend 64).setWidth 32 = i.toBitVec := by
    apply BitVec.eq_of_getLsbD_eq
    intro j hj
    have hj' : j < 64 := by omega
    rw [BitVec.getLsbD_setWidth, BitVec.getLsbD_signExtend]
    simp [hj, hj']
  apply Int32.toBitVec_inj.mp
  show BitVec.ofNat 32 i.toInt64.toUInt64.toNat = i.toBitVec
  rw [← UInt64.toNat_toBitVec, hbits, BitVec.ofNat_toNat, hlow]

/-! ## Keys and contents -/

/-- Every wire type has its own code, so the type of a key can be
told from its bytes. -/
theorem WireType.ofCode?_code (t : WireType) : WireType.ofCode? t.code = some t := by
  cases t <;> rfl

/-- The code of a wire type has three bits, which is what a key has room for. -/
theorem WireType.code_lt (t : WireType) : t.code < 8 := by
  cases t <;> decide

/-- The key of a field is read back. The number of the field must be one
that a key can hold, because larger ones would not fit into 32 bits
together with the wire type. -/
theorem isKey_writeKey {number : Nat} (h : isFieldNumber number) (t : WireType) :
    IsKey ⟨number, t⟩ (writeKey ⟨number, t⟩) := by
  have ht := t.code_lt
  have hpos : 0 < number ∧ 8 * (number + 1) ≤ keyBound := by
    simpa [isFieldNumber] using h
  have hbound : 8 * number + t.code < keyBound := by omega
  have hsize : keyBound ≤ UInt64.size := by decide
  refine ⟨8 * number + t.code, isVarint_writeVarint (by omega), ?_⟩
  -- The lowest three bits are the wire type, and the others are the number.
  have hmod : (8 * number + t.code) % 8 = t.code := by omega
  have hdiv : (8 * number + t.code) / 8 = number := by omega
  have hrange : 8 * number + t.code < keyBound ∧ 8 ≤ 8 * number + t.code := by omega
  unfold Key.ofCode?
  rw [if_pos hrange, hmod, hdiv, WireType.ofCode?_code]
  rfl

/-! ## Texts -/

/-- The bytes of an array from a place on, as the loop of the
standard library collects them. What has been collected is kept in
the opposite order. -/
theorem toList_loop (bytes : ByteArray) (i : Nat) (r : List UInt8) :
    ByteArray.toList.loop bytes i r = r.reverse ++ bytes.data.toList.drop i := by
  induction i, r using ByteArray.toList.loop.induct bytes with
  | case1 i r hi ih =>
    have hlt : i < bytes.data.toList.length := hi
    rw [ByteArray.toList.loop, if_pos hi, ih, List.reverse_cons, List.append_assoc,
      List.drop_eq_getElem_cons hlt]
    simp [ByteArray.get!, hi]
  | case2 i r hi =>
    rw [ByteArray.toList.loop, if_neg hi, List.drop_eq_nil_of_le (Nat.not_lt.mp hi),
      List.append_nil]

/-- The bytes of a text are read back as the text, since they are
well-formed UTF-8 to begin with. -/
theorem fromUTF8?_toUTF8 (text : String) :
    String.fromUTF8? ⟨text.toUTF8.toList.toArray⟩ = some text := by
  have hbytes : text.toUTF8.toList = text.toByteArray.data.toList := by
    show ByteArray.toList.loop text.toByteArray 0 [] = text.toByteArray.data.toList
    rw [toList_loop, List.drop_zero]
    rfl
  rw [hbytes]
  show String.fromUTF8? text.toByteArray = some text
  unfold String.fromUTF8?
  rw [dif_pos text.isValidUTF8]
  rfl

end NpuAttribution.Wire
