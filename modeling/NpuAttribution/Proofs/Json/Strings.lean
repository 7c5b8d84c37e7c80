import NpuAttribution.Json.Meaning

/-!
# `NpuAttribution.Proofs.Json.Strings`: reading a string that has been taken apart

A string is read byte by byte. Its parts are characters and escapes, and each part takes the
reader from the plain place in a string back to it, with what the part stands for added to the
text (`readTextFrom_parts`). Only the first half of a surrogate pair leaves the reader
elsewhere, where it accepts a second half and nothing else. So the text of a string is read if
no surrogate is alone, and then it is the text that the parts stand for (`readText_parts`).
-/

set_option autoImplicit false

namespace NpuAttribution.Json

/-! ### Results -/

section

variable {α β : Type}

/-- A computation in two parts has a result if both parts have one. What
the fault is otherwise is left open, since readers of values differ in it. -/
theorem toOption_bind (x : Except Fault α) (f : α → Except Fault β) :
    (x >>= f).toOption = x.toOption.bind fun a => (f a).toOption := by
  cases x <;> rfl

/-- What is made of a result is made of the option. In this form readers
are composed: they return a value with the rest of the text. -/
theorem toOption_map {x : Except Fault (α × Bytes)} {a? : Option α} {rest : Bytes}
    (h : x.toOption = a?.map (·, rest)) (f : α → β) :
    (x >>= fun r => pure (f r.1, r.2)).toOption = (a?.map f).map (·, rest) := by
  rw [toOption_bind, h]
  cases a? <;> rfl

/-- A computation has a result if the option of its results has it. -/
theorem eq_ok_iff {x : Except Fault α} {a : α} : x = .ok a ↔ x.toOption = some a := by
  cases x with
  | error f => simp [Except.toOption]
  | ok b => simp [Except.toOption]

/-- A computation with the results of an option ends like the option,
with some fault if there is no result. -/
theorem cases_of_toOption {x : Except Fault (α × Bytes)} {a? : Option α} {rest : Bytes}
    (h : x.toOption = a?.map (·, rest)) :
    (∃ a, a? = some a ∧ x = .ok (a, rest)) ∨ ∃ f, a? = none ∧ x = .error f := by
  cases x with
  | error f => exact .inr ⟨f, Option.map_eq_none_iff.mp h.symm, rfl⟩
  | ok r =>
    obtain ⟨a, ha, rfl⟩ := Option.map_eq_some_iff.mp h.symm
    exact .inl ⟨a, ha, rfl⟩

end

/-! ### Bytes -/

/-- Whether a byte belongs to a character that stands for itself. -/
def isPlainByte (b : UInt8) : Prop := b ≠ 0x22 ∧ b ≠ 0x5C ∧ isControl b = false

/-- A byte of no ASCII character is plain. The quotation mark, the
backslash and the control characters are all ASCII. -/
theorem isPlainByte_of_le {b : UInt8} (h : 128 ≤ b.toNat) : isPlainByte b := by
  refine ⟨?_, ?_, ?_⟩
  · rintro rfl
    exact absurd h (by decide)
  · rintro rfl
    exact absurd h (by decide)
  · have hcontrol : ¬ b < 0x20 := by
      rw [UInt8.lt_iff_toNat_lt]
      show ¬ b.toNat < 32
      omega
    exact decide_eq_false hcontrol

/-- The bytes of a plain character are plain. So the reader, which
goes byte by byte, never takes a part of a character for a quotation
mark or an escape. -/
theorem isPlainByte_of_mem {c : PlainChar} {b : UInt8}
    (h : b ∈ String.utf8EncodeChar c.char) : isPlainByte b := by
  have hplain : 0x20 ≤ c.char.toNat ∧ c.char.toNat ≠ 0x22 ∧ c.char.toNat ≠ 0x5C := by
    simpa [isPlain, and_assoc] using c.plain
  have hval : c.char.val.toNat = c.char.toNat := rfl
  simp only [String.utf8EncodeChar, hval] at h
  -- A character of several bytes has none below 128, and ASCII characters are one byte.
  split at h
  · rename_i hascii
    have hb : b = .ofNat c.char.toNat := List.mem_singleton.mp h
    have hnat : b.toNat = c.char.toNat := by
      rw [hb, UInt8.toNat_ofNat']
      omega
    refine ⟨?_, ?_, ?_⟩
    · rintro rfl
      exact hplain.2.1 hnat.symm
    · rintro rfl
      exact hplain.2.2 hnat.symm
    · have hcontrol : ¬ b < 0x20 := by
        rw [UInt8.lt_iff_toNat_lt, hnat]
        show ¬ c.char.toNat < 32
        omega
      exact decide_eq_false hcontrol
  · refine isPlainByte_of_le ?_
    split at h
    · simp only [List.mem_cons, List.not_mem_nil, or_false] at h
      rcases h with rfl | rfl <;> rw [UInt8.toNat_ofNat'] <;> omega
    · split at h
      · simp only [List.mem_cons, List.not_mem_nil, or_false] at h
        rcases h with rfl | rfl | rfl <;> rw [UInt8.toNat_ofNat'] <;> omega
      · simp only [List.mem_cons, List.not_mem_nil, or_false] at h
        rcases h with rfl | rfl | rfl | rfl <;> rw [UInt8.toNat_ofNat'] <;> omega

/-- A character has a byte at least, and so there is a first one. -/
theorem exists_utf8EncodeChar (c : Char) : ∃ b bs, String.utf8EncodeChar c = b :: bs := by
  cases h : String.utf8EncodeChar c with
  | nil => exact absurd h String.utf8EncodeChar_ne_nil
  | cons b bs => exact ⟨b, bs, rfl⟩

/-- A hexadecimal digit is read, in upper case or in lower case. -/
theorem hexValue?_byte (d : HexDigit) : hexValue? d.byte = some d.value.val := by
  obtain ⟨value, upper⟩ := d
  revert value upper
  decide

/-- The four digits of a code unit are read, and the first of them counts most. -/
theorem hexValue4?_digits (u : CodeUnit) :
    hexValue4? [u.first.byte, u.second.byte, u.third.byte, u.fourth.byte] = some u.value := by
  simp only [hexValue4?, List.mapM_cons, List.mapM_nil, hexValue?_byte]
  simp [CodeUnit.value]

/-- The letters of escapes are read, and none of them is the `u` of a code
unit. All of them stand for ASCII characters, so what is read is one byte. -/
theorem escapedByte?_letter (e : Escape) :
    ∃ b, escapedByte? e.letter = some b ∧ String.utf8EncodeChar e.char = [b] ∧ e.letter ≠ 0x75 := by
  cases e <;> exact ⟨_, rfl, rfl, by decide⟩

/-! ### Reading -/

/-- Plain bytes are taken as they are. What has been taken is collected
in the opposite order. -/
theorem readTextFrom_plain {bs : Bytes} (h : ∀ b ∈ bs, isPlainByte b) (acc rest : Bytes) :
    readTextFrom .plain acc (bs ++ rest) = readTextFrom .plain (bs.reverse ++ acc) rest := by
  induction bs generalizing acc with
  | nil => rfl
  | cons b bs ih =>
    obtain ⟨hquote, hbackslash, hcontrol⟩ := h b List.mem_cons_self
    have hstep : textStep .plain b = .ok (.more [b] .plain) := by
      simp [textStep, hquote, hbackslash, hcontrol]
    rw [List.cons_append, readTextFrom, hstep]
    show readTextFrom .plain (b :: acc) (bs ++ rest) = _
    rw [ih (fun c hc => h c (List.mem_cons_of_mem b hc)), List.reverse_cons, List.append_assoc]
    rfl

/-- The digits of a code unit are read in one go. What happens after
the last of them is said by `finishUnit`, which knows if there was a
first half of a pair. -/
theorem readTextFrom_hex {high : Option Nat} {u : CodeUnit} {out : List UInt8} {place : TextPlace}
    (h : finishUnit high u.value = .ok (.more out place)) (acc rest : Bytes) :
    readTextFrom (.hex high []) acc (u.bytes ++ rest) =
      readTextFrom place (out.reverse ++ acc) rest := by
  simp [CodeUnit.bytes, readTextFrom, textStep, hexValue4?_digits, h]

/-- A code unit that must not stand where it does ends the reading,
though its digits are digits. -/
theorem readTextFrom_hex_error {high : Option Nat} {u : CodeUnit} {f : Fault}
    (h : finishUnit high u.value = .error f) (acc rest : Bytes) :
    (readTextFrom (.hex high []) acc (u.bytes ++ rest)).toOption = none := by
  simp [CodeUnit.bytes, readTextFrom, textStep, hexValue4?_digits, h, Except.toOption]

/-- Where a second half of a surrogate pair must stand, nothing else
is read. Plain characters, other escapes and the end of the string are
all refused there. -/
theorem readTextFrom_lowEscape {high : Nat} {parts : List TextPart} (acc rest : Bytes)
    (h : ∀ low others, parts ≠ .unit low :: others) :
    (readTextFrom (.lowEscape high) acc
      (parts.flatMap TextPart.bytes ++ 0x22 :: rest)).toOption = none := by
  cases parts with
  | nil => rfl
  | cons p others =>
    cases p with
    | plain c =>
      obtain ⟨b, bs, hb⟩ := exists_utf8EncodeChar c.char
      have hne : b ≠ 0x5C := (isPlainByte_of_mem (by rw [hb]; exact List.mem_cons_self)).2.1
      rw [List.flatMap_cons, TextPart.bytes, hb]
      simp [readTextFrom, textStep, hne, Except.toOption]
    -- A backslash is what is expected, but then the letter is wrong.
    | escape e =>
      obtain ⟨-, -, -, hne⟩ := escapedByte?_letter e
      rw [List.flatMap_cons, TextPart.bytes]
      simp [readTextFrom, textStep, hne, Except.toOption]
    | unit low => exact absurd rfl (h low others)

/-- No code unit is both halves of a surrogate pair, since the two
ranges are apart. -/
theorem not_isLowSurrogate {n : Nat} (h : isHighSurrogate n = true) : isLowSurrogate n = false := by
  simp only [isHighSurrogate, isLowSurrogate, Bool.and_eq_true, decide_eq_true_eq,
    Bool.and_eq_false_iff, decide_eq_false_iff_not] at h ⊢
  omega

/-- What has been read once the rest of a string has been read after a
character. Here the collected bytes are turned around, and all cases of
`readTextFrom_parts` end with it. -/
theorem map_cons_text (c : Char) (cs? : Option (List Char)) (acc rest : Bytes) :
    (cs?.map fun cs => (((String.utf8EncodeChar c).reverse ++ acc).reverse ++
        cs.flatMap String.utf8EncodeChar, rest)) =
      (cs?.map (c :: ·)).map fun cs => (acc.reverse ++ cs.flatMap String.utf8EncodeChar, rest) := by
  cases cs? with
  | none => rfl
  | some cs => simp

/-- A string is read up to its closing quotation mark, and what is
read are the characters that its parts stand for. The cases are
those of `charsOf?`, and in each of them the reader is followed to
where it is plain again. -/
theorem readTextFrom_parts (parts : List TextPart) (acc rest : Bytes) :
    (readTextFrom .plain acc (parts.flatMap TextPart.bytes ++ 0x22 :: rest)).toOption =
      (charsOf? parts).map fun cs => (acc.reverse ++ cs.flatMap String.utf8EncodeChar, rest) := by
  -- What follows the two bytes in front of the digits is read from the digits on.
  have hunit (u : CodeUnit) (others : List TextPart) (acc : Bytes) :
      readTextFrom .plain acc ((.unit u :: others).flatMap TextPart.bytes ++ 0x22 :: rest) =
        readTextFrom (.hex none []) acc
          (u.bytes ++ (others.flatMap TextPart.bytes ++ 0x22 :: rest)) := by
    rw [List.flatMap_cons, List.append_assoc]
    rfl
  have hlow (u low : CodeUnit) (others : List TextPart) (acc : Bytes) :
      readTextFrom (.lowEscape u.value) acc
          ((.unit low :: others).flatMap TextPart.bytes ++ 0x22 :: rest) =
        readTextFrom (.hex (some u.value) []) acc
          (low.bytes ++ (others.flatMap TextPart.bytes ++ 0x22 :: rest)) := by
    rw [List.flatMap_cons, List.append_assoc]
    rfl
  -- A first half of a pair is kept back, and the second half must follow.
  have hhigh (u : CodeUnit) (h : isHighSurrogate u.value = true) :
      finishUnit none u.value = .ok (.more [] (.lowEscape u.value)) := by
    simp [finishUnit, h, not_isLowSurrogate h]
  -- Cases four to six have a first half of a pair, and only in case four a second one
  -- follows.
  fun_induction charsOf? parts generalizing acc with
  | case1 => simp [readTextFrom, textStep, Except.toOption]
  | case2 c parts ih =>
    rw [List.flatMap_cons, List.append_assoc, TextPart.bytes,
      readTextFrom_plain (fun b hb => isPlainByte_of_mem hb), ih, map_cons_text]
  | case3 e parts ih =>
    obtain ⟨b, hescaped, hchar, -⟩ := escapedByte?_letter e
    have hstep : readTextFrom .plain acc
        ((.escape e :: parts).flatMap TextPart.bytes ++ 0x22 :: rest) =
        readTextFrom .plain ((String.utf8EncodeChar e.char).reverse ++ acc)
          (parts.flatMap TextPart.bytes ++ 0x22 :: rest) := by
      rw [hchar]
      simp [TextPart.bytes, readTextFrom, textStep, hescaped]
    rw [hstep, ih, map_cons_text]
  | case4 u h low parts hl ih =>
    have hfinish : finishUnit (some u.value) low.value =
        .ok (.more (codePointBytes (joinSurrogates u.value low.value)) .plain) := by
      simp [finishUnit, hl]
    rw [hunit, readTextFrom_hex (hhigh u h), hlow, readTextFrom_hex hfinish]
    show (readTextFrom .plain ((String.utf8EncodeChar _).reverse ++ acc) _).toOption = _
    rw [ih, map_cons_text]
  | case5 u h low parts hl =>
    have hfinish : finishUnit (some u.value) low.value = .error .malformed := by
      simp [finishUnit, hl]
    rw [hunit, readTextFrom_hex (hhigh u h), hlow, readTextFrom_hex_error hfinish]
    rfl
  | case6 u parts h hother =>
    rw [hunit, readTextFrom_hex (hhigh u h), readTextFrom_lowEscape _ _ hother]
    rfl
  | case7 u parts _ h =>
    have hfinish : finishUnit none u.value = .error .malformed := by simp [finishUnit, h]
    rw [hunit, readTextFrom_hex_error hfinish]
    rfl
  | case8 u parts hnothigh hnotlow ih =>
    have hfinish : finishUnit none u.value = .ok (.more (codePointBytes u.value) .plain) := by
      simp [finishUnit, hnothigh, hnotlow]
    rw [hunit, readTextFrom_hex hfinish]
    show (readTextFrom .plain ((String.utf8EncodeChar _).reverse ++ acc) _).toOption = _
    rw [ih, map_cons_text]

/-- The bytes of characters are the text of these characters. -/
theorem fromUTF8?_flatMap (cs : List Char) :
    String.fromUTF8? ⟨(cs.flatMap String.utf8EncodeChar).toArray⟩ = some (String.ofList cs) := by
  have hbytes : (⟨(cs.flatMap String.utf8EncodeChar).toArray⟩ : ByteArray)
      = (String.ofList cs).toByteArray :=
    ByteArray.ext List.data_toByteArray.symm
  rw [hbytes, String.fromUTF8?, dif_pos (String.ofList cs).isValidUTF8]
  rfl

/-- A string whose opening quotation mark has been read is read as the
text that it stands for. There is no text if a surrogate is alone, and
then the reader refuses the string. -/
theorem readText_parts (parts : List TextPart) (rest : Bytes) :
    (readText (parts.flatMap TextPart.bytes ++ 0x22 :: rest)).toOption =
      (textOf? parts).map (·, rest) := by
  have hfrom : (readTextFrom .plain [] (parts.flatMap TextPart.bytes ++ 0x22 :: rest)).toOption =
      ((charsOf? parts).map fun cs => cs.flatMap String.utf8EncodeChar).map (·, rest) := by
    rw [readTextFrom_parts, Option.map_map]
    rfl
  rw [readText, textOf?]
  rcases cases_of_toOption hfrom with ⟨text, htext, hread⟩ | ⟨f, htext, hread⟩
  · obtain ⟨cs, hcs, rfl⟩ := Option.map_eq_some_iff.mp htext
    simp only [hread, hcs, fromUTF8?_flatMap]
    rfl
  · rw [hread, Option.map_eq_none_iff.mp htext]
    rfl

/-- A string stands for a text if no surrogate is alone. `Paired` looks at
neighbours only, which is how the grammar of texts states this condition. -/
theorem isSome_textOf? (parts : List TextPart) : (textOf? parts).isSome = Paired false parts := by
  rw [textOf?, Option.isSome_map]
  fun_induction charsOf? parts with
  | case1 => rfl
  | case2 c parts ih => simpa [Paired, TextPart.isLow, TextPart.isHigh] using ih
  | case3 e parts ih => simpa [Paired, TextPart.isLow, TextPart.isHigh] using ih
  | case4 u h low parts hl ih =>
    -- The second half of a pair does not begin another pair.
    have hnothigh : isHighSurrogate low.value = false := by
      cases hhigh : isHighSurrogate low.value with
      | false => rfl
      | true => exact absurd hl (by simp [not_isLowSurrogate hhigh])
    simpa [Paired, TextPart.isLow, TextPart.isHigh, h, hl, hnothigh, not_isLowSurrogate h] using ih
  | case5 u h low parts hl =>
    -- A first half that is followed by something else than a second half is alone.
    simp [Paired, TextPart.isLow, TextPart.isHigh, h, hl]
  | case6 u parts h hother =>
    cases parts with
    | nil => simp [Paired, TextPart.isLow, TextPart.isHigh, h]
    | cons p others =>
      cases p with
      | plain c => simp [Paired, TextPart.isLow, TextPart.isHigh, h]
      | escape e => simp [Paired, TextPart.isLow, TextPart.isHigh, h]
      | unit low => exact (hother low others rfl).elim
  | case7 u parts _ h => simp [Paired, TextPart.isLow, h]
  | case8 u parts hnothigh hnotlow ih =>
    simpa [Paired, TextPart.isLow, TextPart.isHigh, hnothigh, hnotlow] using ih

end NpuAttribution.Json
