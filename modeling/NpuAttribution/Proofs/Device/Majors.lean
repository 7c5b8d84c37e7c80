import Mathlib.Data.List.Forall2
import NpuAttribution.Device.Majors
import NpuAttribution.Proofs.Text.Blank
import NpuAttribution.Proofs.Text.Split

/-!
# `NpuAttribution.Proofs.Device.Majors`: what is read from the content of a registry

Three things are said here without reading anything: what the lines of a content are (`IsLines`),
what text a line encodes (`Encodes`), and what a line of the driver looks like (`DriverLine`).
`reads_driverLines` puts the reading of a content between them. It fails if one of the lines that
are read is no text, wherever the lines of the driver are, and else gives one major for each line
of the driver.

A line is looked at twice, once for its shape and once for its first word. What makes the two
agree is that a driver's line begins with digits that a blank follows, so the digits are the
first word (`DriverLine.firstWord_body`), and that three digits are never too many
(`DriverLine.major_le`).
-/

set_option autoImplicit false

namespace NpuAttribution.Device.Majors

open NpuAttribution.Text

/-! ### What is said about contents and lines -/

/-- A content consists of these lines, each with a line feed at its end.
The last one may do without, if it is not empty. -/
inductive IsLines : List UInt8 → List (List UInt8) → Prop
  | nil : IsLines [] []
  | last {line : List UInt8} (hne : line ≠ []) (hfeed : 10 ∉ line) : IsLines line [line]
  | cons {line rest : List UInt8} {ls : List (List UInt8)} (hfeed : 10 ∉ line)
    (hrest : IsLines rest ls) : IsLines (line ++ 10 :: rest) (line :: ls)

/-- A line is valid UTF-8 and encodes the text. -/
def Encodes (line : List UInt8) (text : String) : Prop := text.toUTF8 = ⟨line.toArray⟩

/-- A line of the driver: one to three digits, one blank and a name of
the driver. There may be carriage returns at the end. -/
structure DriverLine where
  digits : List (Fin 10)
  blank : Char
  name : String
  returns : Nat
  one_le_digits : 1 ≤ digits.length
  digits_le_three : digits.length ≤ 3
  isBlank_blank : isBlank blank = true
  name_eq : name = "devdrv-cdev" ∨ name = "vdevdrv-cdev"

namespace DriverLine

/-- The line without the carriage returns. -/
def body (l : DriverLine) : List Char := l.digits.map digitChar ++ l.blank :: l.name.toList

/-- The line as it is written. -/
def text (l : DriverLine) : List Char := l.body ++ List.replicate l.returns '\r'

/-- The major on the line. -/
def major (l : DriverLine) : Nat := decimalValue l.digits

end DriverLine

/-- The major that a text names, if it is a line of the driver. -/
def Names (text : String) (major? : Option Nat) : Prop :=
  ∀ n, major? = some n ↔ ∃ l : DriverLine, l.text = text.toList ∧ l.major = n

/-- What the reading of some lines comes to:

- `invalid`: one of the lines is no text, and the reading fails;
- `majors`: all lines are texts, and the majors that they name are read
  in their order. -/
inductive ReadsLines (ls : List (List UInt8)) : Except RegistryFault (List Nat) → Prop
  | invalid {line : List UInt8} (hline : line ∈ ls) (hnone : ∀ text, ¬ Encodes line text) :
    ReadsLines ls (.error .notUtf8)
  | majors {texts : List String} {majors : List (Option Nat)}
    (htexts : List.Forall₂ Encodes ls texts) (hmajors : List.Forall₂ Names texts majors) :
    ReadsLines ls (.ok majors.reduceOption)

/-- The driver's lines are read:

- `exists_lines`: every content consists of lines;
- `reads`: of these the first ones are read, and no others;
- `le`: what is read has three digits at most;
- `same`: contents with the same first lines are read alike;
- `rest`: so it does not matter what follows the first lines, and be it
  that it is no text. -/
structure ReadsDriverLines : Prop where
  exists_lines : ∀ bytes : List UInt8, ∃ ls, IsLines bytes ls
  reads : ∀ {bytes : List UInt8} {ls : List (List UInt8)}, IsLines bytes ls →
    ReadsLines (ls.take 512) (read bytes)
  le : ∀ {bytes : List UInt8} {ids : List Nat}, read bytes = .ok ids → ∀ id ∈ ids, id ≤ 999
  same : ∀ {bytes bytes' : List UInt8} {ls ls' : List (List UInt8)}, IsLines bytes ls →
    IsLines bytes' ls' → ls.take 512 = ls'.take 512 → read bytes = read bytes'
  rest : ∀ {ls : List (List UInt8)} (rest rest' : List UInt8), ls.length = 512 →
    (∀ line ∈ ls, 10 ∉ line) →
      read (ls.flatMap (· ++ [10]) ++ rest) = read (ls.flatMap (· ++ [10]) ++ rest')

/-! ### Lines -/

variable {bytes line rest : List UInt8} {ls : List (List UInt8)}

/-- The first line ends at the first line feed, and the others follow. -/
theorem lines_cons (hfeed : 10 ∉ line) (rest : List UInt8) :
    lines (line ++ 10 :: rest) = line :: lines rest := by
  have hsplit : (line ++ 10 :: rest).splitOn 10 = line :: rest.splitOn 10 := by
    rw [List.splitOn_append_cons_self, List.splitOn_eq_singleton hfeed]
    rfl
  -- There is always a piece after the line feed, so the last piece is one of the rest.
  obtain ⟨piece, pieces, hrest⟩ := List.exists_cons_of_ne_nil (List.splitOn_ne_nil 10 rest)
  unfold lines
  rw [hsplit, hrest]
  dsimp only
  rw [List.getLast?_cons_cons, List.dropLast_cons_cons]
  split <;> rfl

/-- What has no line feed is a single line, if it is anything. -/
theorem lines_last (hne : line ≠ []) (hfeed : 10 ∉ line) : lines line = [line] := by
  unfold lines
  rw [List.splitOn_eq_singleton hfeed]
  exact if_neg fun h => hne (Option.some.inj h)

/-- A content has but one row of lines, and this is the one that is read. -/
theorem IsLines.lines_eq (h : IsLines bytes ls) : lines bytes = ls := by
  induction h with
  | nil => rfl
  | last hne hfeed => exact lines_last hne hfeed
  | cons hfeed _ ih => rw [lines_cons hfeed, ih]

/-- Every content consists of lines. Each line takes at least its line
feed, so the induction is on the number of bytes. -/
theorem isLines_lines (bytes : List UInt8) : IsLines bytes (lines bytes) := by
  induction hlength : bytes.length using Nat.strongRecOn generalizing bytes with
  | _ n ih =>
    rcases splitOn_cases 10 bytes with ⟨hfeed, -⟩ | ⟨line, rest, rfl, hfeed, -⟩
    · by_cases hne : bytes = []
      · subst hne
        exact .nil
      · rw [lines_last hne hfeed]
        exact .last hne hfeed
    · have hlt : rest.length < n := by
        rw [← hlength, List.length_append, List.length_cons]
        omega
      rw [lines_cons hfeed]
      exact .cons hfeed (ih _ hlt rest rfl)

/-- Lines with their line feeds stand at the front of a content,
whatever follows them. -/
theorem isLines_append (hfeed : ∀ line ∈ ls, 10 ∉ line) (rest : List UInt8) :
    IsLines (ls.flatMap (· ++ [10]) ++ rest) (ls ++ lines rest) := by
  induction ls with
  | nil => exact isLines_lines rest
  | cons line ls ih =>
    have hline := IsLines.cons (hfeed line List.mem_cons_self)
      (ih fun line h => hfeed line (List.mem_cons_of_mem _ h))
    simpa using hline

/-! ### Texts -/

/-- The text of a line is the one that the line encodes. There is none
if the bytes are not well-formed UTF-8. -/
theorem lineText?_eq_some_iff {cs : List Char} :
    lineText? line = some cs ↔ Encodes line (String.ofList cs) := by
  show (String.fromUTF8? ⟨line.toArray⟩).map (·.toList) = some cs ↔
    (String.ofList cs).toUTF8 = ⟨line.toArray⟩
  rw [Option.map_eq_some_iff]
  constructor
  · rintro ⟨text, htext, rfl⟩
    rw [String.ofList_toList]
    unfold String.fromUTF8? at htext
    split at htext
    · cases htext
      rfl
    · cases htext
  · intro h
    refine ⟨String.ofList cs, ?_, String.toList_ofList⟩
    rw [← h]
    exact dif_pos (String.ofList cs).isValidUTF8

/-- Either all lines of a row are texts, or one of them is none and
there is no row of texts. The induction is on the lines. -/
theorem mapM_lineText?_cases (ls : List (List UInt8)) :
    (∃ texts : List String, List.Forall₂ Encodes ls texts ∧
      ls.mapM lineText? = some (texts.map (·.toList))) ∨
        (∃ line ∈ ls, ∀ text, ¬ Encodes line text) ∧ ls.mapM lineText? = none := by
  induction ls with
  | nil => exact .inl ⟨[], .nil, rfl⟩
  | cons line ls ih =>
    rw [List.mapM_cons]
    cases hline : lineText? line with
    | none =>
      refine .inr ⟨⟨line, List.mem_cons_self, ?_⟩, rfl⟩
      intro text htext
      rw [← text.ofList_toList, ← lineText?_eq_some_iff, hline] at htext
      cases htext
    | some cs =>
      rcases ih with ⟨texts, htexts, hmap⟩ | ⟨⟨other, hother, hnone⟩, hmap⟩
      · refine .inl ⟨String.ofList cs :: texts,
          .cons (lineText?_eq_some_iff.mp hline) htexts, ?_⟩
        rw [hmap, List.map_cons, String.toList_ofList]
        rfl
      · refine .inr ⟨⟨other, List.mem_cons_of_mem _ hother, hnone⟩, ?_⟩
        rw [hmap]
        rfl

/-! ### Lines of the driver -/

namespace DriverLine

variable (l : DriverLine)

/-- Three digits are enough, so no major of the driver exceeds 999. -/
theorem major_le : l.major ≤ 999 := by
  have hlt : l.major < 10 ^ l.digits.length := decimalValue_lt l.digits
  have hpow : 10 ^ l.digits.length ≤ 10 ^ 3 := Nat.pow_le_pow_right (by decide) l.digits_le_three
  exact Nat.le_of_lt_succ (Nat.lt_of_lt_of_le hlt hpow)

/-- There is a digit on the line. -/
theorem digits_ne_nil : l.digits ≠ [] := List.ne_nil_of_length_pos l.one_le_digits

/-- Just the digits of the line are the digits in front, because the
blank ends them. -/
theorem span_body : l.body.takeWhile Char.isDigit = l.digits.map digitChar ∧
    l.body.dropWhile Char.isDigit = l.blank :: l.name.toList := by
  have hdigits : ∀ c ∈ l.digits.map digitChar, c.isDigit = true := by
    intro c hc
    obtain ⟨d, -, rfl⟩ := List.mem_map.mp hc
    exact isDigit_iff.mpr ⟨d, rfl⟩
  have hstop : ¬ l.blank.isDigit = true := by
    rw [isDigit_iff]
    rintro ⟨d, hd⟩
    have hblank := l.isBlank_blank
    rw [hd, isBlank_digitChar] at hblank
    cases hblank
  unfold body
  constructor
  · rw [List.takeWhile_append_of_pos hdigits, List.takeWhile_cons_of_neg hstop, List.append_nil]
  · rw [List.dropWhile_append_of_pos hdigits, List.dropWhile_cons_of_neg hstop]

/-- The line has the shape of a driver's line. The shape is tested on
the line without its carriage returns. -/
theorem isDriverLine_body : isDriverLine l.body = true := by
  have hname : driverNames.contains l.name = true := by
    rcases l.name_eq with h | h <;> rw [h] <;> decide
  simp only [isDriverLine, l.span_body, List.length_map, String.ofList_toList, l.one_le_digits,
    l.digits_le_three, l.isBlank_blank, hname, decide_true, Bool.and_true]

/-- The digits of the line are its first word. The shape has been
tested by digits, and the word is looked for by blanks, but both end
at the same place. -/
theorem firstWord_body : firstWord l.body = l.digits.map digitChar := by
  have hword : ∀ c ∈ l.digits.map digitChar, (!isBlank c) = true := by
    intro c hc
    obtain ⟨d, -, rfl⟩ := List.mem_map.mp hc
    rw [isBlank_digitChar d]
    rfl
  have hend : ¬ (!isBlank l.blank) = true := by
    rw [l.isBlank_blank]
    exact Bool.false_ne_true
  -- There are no blanks in front, because there is a digit.
  have hfront : l.body.dropWhile isBlank = l.body := by
    obtain ⟨d, ds, hdigits⟩ := List.exists_cons_of_ne_nil l.digits_ne_nil
    unfold body
    rw [hdigits]
    exact List.dropWhile_cons_of_neg (by rw [isBlank_digitChar d]; exact Bool.false_ne_true)
  unfold firstWord
  rw [hfront, body, List.takeWhile_append_of_pos hword,
    List.takeWhile_cons_of_neg (p := fun c => !isBlank c) hend, List.append_nil]

/-- The first word of the line is read as the major. It has few enough
digits to be a number of 32 bits. -/
theorem unsigned?_firstWord : unsigned? UInt32.size (firstWord l.body) = some l.major := by
  rw [l.firstWord_body, unsigned?_eq_some_iff]
  exact ⟨⟨[], l.digits, .inl rfl, l.digits_ne_nil, rfl, rfl⟩,
    Nat.lt_of_le_of_lt l.major_le (by decide)⟩

/-- The carriage returns at the end are taken away, and nothing else is:
a name of the driver ends with a letter. -/
theorem dropWhile_reverse_text :
    (l.text.reverse.dropWhile (· == '\r')).reverse = l.body := by
  have hlast : ∃ front, l.name.toList = front ++ ['v'] := by
    rcases l.name_eq with h | h
    · exact ⟨"devdrv-cde".toList, by rw [h]; rfl⟩
    · exact ⟨"vdevdrv-cde".toList, by rw [h]; rfl⟩
  obtain ⟨front, hname⟩ := hlast
  have hbody : l.body.reverse = 'v' :: (l.digits.map digitChar ++ l.blank :: front).reverse := by
    show (l.digits.map digitChar ++ l.blank :: l.name.toList).reverse = _
    rw [hname]
    simp
  have hreturns : ∀ c ∈ (List.replicate l.returns '\r').reverse, (c == '\r') = true := by
    intro c hc
    exact beq_iff_eq.mpr (List.eq_of_mem_replicate (List.mem_reverse.mp hc))
  show ((l.body ++ List.replicate l.returns '\r').reverse.dropWhile (· == '\r')).reverse = l.body
  rw [List.reverse_append, List.dropWhile_append_of_pos hreturns, hbody,
    List.dropWhile_cons_of_neg (by decide), ← hbody, List.reverse_reverse]

/-- The major on the line is read, with carriage returns or without. -/
theorem driverMajor?_text : driverMajor? l.text = some l.major := by
  simp only [driverMajor?, l.dropWhile_reverse_text, l.isDriverLine_body, l.unsigned?_firstWord,
    if_true]

end DriverLine

/-- What has the shape of a driver's line is one. The digits and the
blank are found where the test has found them. -/
theorem exists_driverLine {cs : List Char} (h : isDriverLine cs = true) (returns : Nat) :
    ∃ l : DriverLine, l.body = cs ∧ l.returns = returns := by
  unfold isDriverLine at h
  dsimp only at h
  split at h
  · rename_i blank name hdrop
    rw [Bool.and_eq_true, Bool.and_eq_true, Bool.and_eq_true, decide_eq_true_eq,
      decide_eq_true_eq] at h
    obtain ⟨⟨⟨hone, hthree⟩, hblank⟩, hname⟩ := h
    obtain ⟨ds, hds⟩ := exists_digits (List.all_eq_true.mp (List.all_takeWhile (l := cs)))
    rw [hds, List.length_map] at hone hthree
    have hnames : String.ofList name = "devdrv-cdev" ∨ String.ofList name = "vdevdrv-cdev" := by
      simpa [driverNames] using hname
    refine ⟨⟨ds, blank, String.ofList name, returns, hone, hthree, hblank, hnames⟩, ?_, rfl⟩
    show ds.map digitChar ++ blank :: (String.ofList name).toList = cs
    rw [String.toList_ofList, ← hds, ← hdrop, List.takeWhile_append_dropWhile]
  · cases h

/-- What a major is read from is a line of the driver. The carriage returns
that were taken away are counted, so that the line can be written again. -/
theorem exists_of_driverMajor? {cs : List Char} {n : Nat} (h : driverMajor? cs = some n) :
    ∃ l : DriverLine, l.text = cs ∧ l.major = n := by
  have hends : cs.reverse.takeWhile (· == '\r') =
      List.replicate (cs.reverse.takeWhile (· == '\r')).length '\r' := by
    refine List.eq_replicate_of_mem fun c hc => ?_
    exact eq_of_beq (List.all_eq_true.mp List.all_takeWhile c hc)
  unfold driverMajor? at h
  rw [Option.ite_none_right_eq_some] at h
  obtain ⟨hshape, hmajor⟩ := h
  obtain ⟨l, hbody, hreturns⟩ := exists_driverLine hshape (cs.reverse.takeWhile (· == '\r')).length
  rw [← hbody, l.unsigned?_firstWord] at hmajor
  refine ⟨l, ?_, Option.some.inj hmajor⟩
  show l.body ++ List.replicate l.returns '\r' = cs
  rw [hbody, hreturns, ← List.reverse_replicate, ← hends, ← List.reverse_append,
    List.takeWhile_append_dropWhile, List.reverse_reverse]

/-- Just the lines of the driver name a major. -/
theorem names_driverMajor? (text : String) : Names text (driverMajor? text.toList) := by
  intro n
  constructor
  · exact exists_of_driverMajor?
  · rintro ⟨l, htext, rfl⟩
    rw [← htext]
    exact l.driverMajor?_text

/-! ### Contents -/

/-- Reading comes to what the first lines come to. Either one of them is
no text, or the majors are those that the texts name, and all other
lines are passed over. -/
theorem reads_lines (h : IsLines bytes ls) : ReadsLines (ls.take maxLines) (read bytes) := by
  unfold read
  rw [h.lines_eq]
  rcases mapM_lineText?_cases (ls.take maxLines) with
    ⟨texts, htexts, hmap⟩ | ⟨⟨line, hline, hnone⟩, hmap⟩
  · rw [hmap]
    have hmajors : List.Forall₂ Names texts (texts.map fun text => driverMajor? text.toList) := by
      rw [List.forall₂_map_right_iff, List.forall₂_same]
      exact fun text _ => names_driverMajor? text
    have hlist : (texts.map (·.toList)).filterMap driverMajor? =
        (texts.map fun text => driverMajor? text.toList).reduceOption := by
      show _ = (texts.map fun text => driverMajor? text.toList).filterMap id
      rw [List.filterMap_map, List.filterMap_map]
      rfl
    show ReadsLines _ (.ok ((texts.map (·.toList)).filterMap driverMajor?))
    rw [hlist]
    exact .majors htexts hmajors
  · rw [hmap]
    exact .invalid hline hnone

/-- The majors of a row of texts are those of its driver's lines. The
induction is on the texts. -/
theorem exists_of_mem_reduceOption {texts : List String} {majors : List (Option Nat)}
    (h : List.Forall₂ Names texts majors) {n : Nat} (hn : n ∈ majors.reduceOption) :
    ∃ l : DriverLine, l.major = n := by
  induction h with
  | nil => cases hn
  | @cons text major? _ _ hnames _ ih =>
    cases major? with
    | none => exact ih hn
    | some m =>
      cases hn with
      | head =>
        obtain ⟨l, -, hl⟩ := (hnames n).mp rfl
        exact ⟨l, hl⟩
      | tail _ hn => exact ih hn

/-- What is read has three digits at most, since it stands on a line of
the driver. -/
theorem le_of_read {ids : List Nat} (h : read bytes = .ok ids) : ∀ id ∈ ids, id ≤ 999 := by
  intro id hid
  have hread := reads_lines (isLines_lines bytes)
  rw [h] at hread
  cases hread with
  | majors _ hmajors =>
    obtain ⟨l, rfl⟩ := exists_of_mem_reduceOption hmajors hid
    exact l.major_le

/-- Contents with the same first lines are read alike. -/
theorem read_congr {bytes' : List UInt8} {ls' : List (List UInt8)} (h : IsLines bytes ls)
    (h' : IsLines bytes' ls') (htake : ls.take maxLines = ls'.take maxLines) :
    read bytes = read bytes' := by
  unfold read
  rw [h.lines_eq, h'.lines_eq, htake]

/-- The driver's lines are read, and no others. All parts are about the
lines of the content, which are the ones that the reader finds by
`IsLines.lines_eq`: there is one way only to take bytes apart into lines. -/
theorem reads_driverLines : ReadsDriverLines where
  exists_lines bytes := ⟨lines bytes, isLines_lines bytes⟩
  reads := reads_lines
  le := le_of_read
  same := read_congr
  rest {ls} rest rest' hlength hfeed := by
    have htake (rest : List UInt8) : (ls ++ lines rest).take maxLines = ls :=
      List.take_left' hlength
    refine read_congr (isLines_append hfeed rest) (isLines_append hfeed rest') ?_
    rw [htake, htake]

-- The blank is a no-break space, and the last line does without a line feed.
example : read ("1 mem\n236\u00A0devdrv-cdev\r\r\n007 vdevdrv-cdev".toUTF8.toList) =
    .ok [236, 7] := by
  decide +kernel

end NpuAttribution.Device.Majors
