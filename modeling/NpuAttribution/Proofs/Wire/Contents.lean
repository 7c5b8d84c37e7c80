import NpuAttribution.Wire.Row

/-!
# `NpuAttribution.Proofs.Wire.Contents`: readers take contents from the front

Every reader of a part of a message is compared with what the part is by itself. There are
two directions. A part is read if it stands in front, whatever follows it: these lemmas are
named for the reader and end in `_append`. And a reader that succeeds has taken such a part
from the front: these begin with `exists_of_`.

For unknown fields the reader is `skipContent`, and a content is skipped as a whole. For
known fields it is `Shape.merge`. Whether a known content can be merged does not depend on
what follows it, and neither does the result.
-/

set_option autoImplicit false

namespace NpuAttribution.Wire

/-! ## Numbers and keys -/

/-- A number is read, whatever follows it. The reader stops at the
first group without the high bit, so it does not look at anything
behind the number. -/
theorem readGroups_append {room n : Nat} {s rest : Bytes}
    (h : readGroups room s = some (n, rest)) (t : Bytes) :
    readGroups room (s ++ t) = some (n, rest ++ t) := by
  induction room generalizing s n with
  | zero => simp [readGroups] at h
  | succ room ih =>
    cases s with
    | nil => simp [readGroups] at h
    | cons b s =>
      simp only [readGroups, List.cons_append] at h ⊢
      split at h
      · split at h
        · cases h
        · rename_i hb hroom
          cases h
          rw [if_pos hb, if_neg hroom]
      · rename_i hb
        rw [if_neg hb]
        split at h
        · rename_i m rest' hm
          cases h
          rw [ih hm]
        · cases h

/-- A number that is read is what stands in front. The groups in front are
a number by themselves, and there is at least one of them. By induction on
the room for groups, as the reader stops when there is none left. -/
theorem exists_of_readGroups {room n : Nat} {s rest : Bytes}
    (h : readGroups room s = some (n, rest)) :
    ∃ head, head ≠ [] ∧ readGroups room head = some (n, []) ∧ s = head ++ rest := by
  induction room generalizing s n with
  | zero => simp [readGroups] at h
  | succ room ih =>
    cases s with
    | nil => simp [readGroups] at h
    | cons b s =>
      simp only [readGroups] at h
      split at h
      · split at h
        · cases h
        · rename_i hb hroom
          cases h
          -- This group is the only one.
          refine ⟨[b], by simp, ?_, rfl⟩
          simp only [readGroups]
          rw [if_pos hb, if_neg hroom]
      · rename_i hb
        split at h
        · rename_i m rest' hm
          cases h
          obtain ⟨head, -, hhead, rfl⟩ := ih hm
          refine ⟨b :: head, by simp, ?_, rfl⟩
          simp only [readGroups]
          rw [if_neg hb, hhead]
        · cases h

/-- A number that is nothing but itself is read from in front of anything. -/
theorem readVarint_append {n : Nat} {head : Bytes} (h : IsVarint n head) (t : Bytes) :
    readVarint (head ++ t) = some (n, t) :=
  readGroups_append h t

/-- A number that is read stands in front and takes up a byte at least.
It need not be written in as few groups as possible. -/
theorem exists_of_readVarint {n : Nat} {s rest : Bytes} (h : readVarint s = some (n, rest)) :
    ∃ head, head ≠ [] ∧ IsVarint n head ∧ s = head ++ rest :=
  exists_of_readGroups h

/-- A key is read, whatever follows it, since a key is a number with a meaning. -/
theorem readKey_append {key : Key} {head : Bytes} (h : IsKey key head) (t : Bytes) :
    readKey (head ++ t) = some (key, t) := by
  obtain ⟨n, hn, hkey⟩ := h
  unfold readKey
  rw [readVarint_append hn]
  show (Key.ofCode? n).map (fun k => (k, t)) = some (key, t)
  rw [hkey]
  rfl

/-- A key that is read stands in front and takes up a byte at least. -/
theorem exists_of_readKey {key : Key} {s rest : Bytes} (h : readKey s = some (key, rest)) :
    ∃ head, head ≠ [] ∧ IsKey key head ∧ s = head ++ rest := by
  unfold readKey at h
  split at h
  · rename_i n s' hn
    obtain ⟨key', hkey, heq⟩ := Option.map_eq_some_iff.mp h
    cases heq
    obtain ⟨head, hne, hvarint, rfl⟩ := exists_of_readVarint hn
    exact ⟨head, hne, ⟨n, hvarint, hkey⟩, rfl⟩
  · cases h

/-- A key takes up a byte at least. So a message has no more fields than
bytes, and the readers never run out of rounds. -/
theorem IsKey.length_pos {key : Key} {head : Bytes} (h : IsKey key head) : 0 < head.length := by
  have hread := readKey_append h []
  cases head with
  | nil => cases hread
  | cons b s => exact Nat.succ_pos _

/-! ## Contents with a length -/

/-- So many bytes as there are in front are taken, whatever follows them. -/
theorem takeExactly_append (content t : Bytes) :
    takeExactly (content ++ t) content.length = some (content, t) := by
  induction content with
  | nil => cases t <;> rfl
  | cons b s ih =>
    simp only [List.cons_append, List.length_cons, takeExactly]
    rw [ih]

/-- The bytes that are taken stand in front, and there are as many
as were asked for. -/
theorem exists_of_takeExactly {s taken rest : Bytes} {n : Nat}
    (h : takeExactly s n = some (taken, rest)) : taken.length = n ∧ s = taken ++ rest := by
  induction n generalizing s taken with
  | zero =>
    rw [takeExactly.eq_1] at h
    cases h
    exact ⟨rfl, rfl⟩
  | succ n ih =>
    cases s with
    | nil => cases h
    | cons b s =>
      simp only [takeExactly] at h
      split at h
      · rename_i taken' rest' htaken
        cases h
        obtain ⟨hlength, rfl⟩ := ih htaken
        exact ⟨by simp [hlength], rfl⟩
      · cases h

/-- A content with its length in front is read, whatever follows it. -/
theorem readDelimited_append {length content : Bytes} (h : IsVarint content.length length)
    (t : Bytes) : readDelimited (length ++ (content ++ t)) = some (content, t) := by
  unfold readDelimited
  rw [readVarint_append h]
  exact takeExactly_append content t

/-- A content that is read has its length in front, in one of the
spellings that a number may have. -/
theorem exists_of_readDelimited {s content rest : Bytes}
    (h : readDelimited s = some (content, rest)) :
    ∃ length, IsVarint content.length length ∧ s = length ++ (content ++ rest) := by
  unfold readDelimited at h
  split at h
  · rename_i n s' hn
    obtain ⟨length, -, hlength, rfl⟩ := exists_of_readVarint hn
    obtain ⟨rfl, rfl⟩ := exists_of_takeExactly h
    exact ⟨length, hlength, rfl⟩
  · cases h

/-- What is read with a length in front is delimited: the length and the
content together are what is taken from the front. -/
theorem isDelimited_of_readDelimited {s content rest : Bytes}
    (h : readDelimited s = some (content, rest)) : ∃ c, IsDelimited c ∧ s = c ++ rest := by
  obtain ⟨length, hlength, rfl⟩ := exists_of_readDelimited h
  exact ⟨length ++ content, ⟨length, content, hlength, rfl⟩, by simp⟩

/-! ## Skipping -/

/-- The fields of a group are skipped up to its end, if those inside of
it are. There must be more rounds than bytes, and each field uses up one
round and a byte at least. -/
theorem skipGroup_append {levels number : Nat} {s : Bytes}
    (hskip : ∀ key c, IsContent levels key c → ∀ t, skipContent levels key (c ++ t) = some t)
    (h : IsGroup (IsContent levels) number s) {rounds : Nat} (hrounds : s.length < rounds)
    (t : Bytes) : skipGroup (skipContent levels) number rounds (s ++ t) = some t := by
  induction h generalizing rounds with
  | close hkey =>
    cases rounds with
    | zero => omega
    | succ rounds =>
      simp only [skipGroup]
      rw [readKey_append hkey]
      simp
  | field hkey hcontent hrest ih =>
    rename_i key head content rest
    cases rounds with
    | zero => omega
    | succ rounds =>
      have hpos := hkey.length_pos
      simp only [List.length_append] at hrounds
      -- The end of a group is no field, so it has no content.
      have hopen : key.wireType ≠ .groupEnd := by
        intro hend
        cases levels with
        | zero => exact hcontent
        | succ levels => simp [IsContent, hend] at hcontent
      simp only [skipGroup, List.append_assoc]
      rw [readKey_append hkey]
      simp only [if_neg hopen]
      rw [hskip key content hcontent]
      exact ih (by omega)

/-- The content of an unknown field is skipped, whatever follows it.
The cases are the wire types, each of which has its own way to find
the end of the content. -/
theorem skipContent_append (levels : Nat) (key : Key) (c : Bytes) (h : IsContent levels key c)
    (t : Bytes) : skipContent levels key (c ++ t) = some t := by
  -- The fields inside of a group are a level below it.
  induction levels generalizing key c t with
  | zero => exact h.elim
  | succ levels ih =>
    simp only [IsContent] at h
    simp only [skipContent]
    cases htype : key.wireType with
    | varint =>
      simp only [htype] at h
      obtain ⟨n, hn⟩ := h
      simp only [readVarint_append hn, Option.map_some]
    | fixed64 =>
      simp only [htype] at h
      have htake := takeExactly_append c t
      rw [h] at htake
      simp only [htake, Option.map_some]
    | fixed32 =>
      simp only [htype] at h
      have htake := takeExactly_append c t
      rw [h] at htake
      simp only [htake, Option.map_some]
    | delimited =>
      simp only [htype] at h
      obtain ⟨length, content, hlength, rfl⟩ := h
      simp only [List.append_assoc, readDelimited_append hlength, Option.map_some]
    -- The fields of a group are contents one level below, which the induction covers.
    | groupStart =>
      simp only [htype] at h
      refine skipGroup_append ih h ?_ t
      rw [List.length_append]
      omega
    | groupEnd =>
      simp only [htype] at h

/-- What is skipped as a group is one, if what is skipped inside of it
are contents. The group ends with the first end that has its number; an
end with another number is refused. -/
theorem exists_of_skipGroup {levels number rounds : Nat} {s rest : Bytes}
    (hskip : ∀ key s rest, skipContent levels key s = some rest →
      ∃ c, IsContent levels key c ∧ s = c ++ rest)
    (h : skipGroup (skipContent levels) number rounds s = some rest) :
    ∃ c, IsGroup (IsContent levels) number c ∧ s = c ++ rest := by
  induction rounds generalizing s with
  | zero => simp [skipGroup] at h
  | succ rounds ih =>
    simp only [skipGroup] at h
    split at h
    · rename_i key s' hkey
      obtain ⟨head, -, hhead, rfl⟩ := exists_of_readKey hkey
      split at h
      · rename_i hend
        split at h
        · rename_i hnumber
          cases h
          -- The end of the group is a key and nothing else.
          obtain ⟨number', wireType⟩ := key
          subst hend hnumber
          exact ⟨head, .close hhead, rfl⟩
        · cases h
      · split at h
        · rename_i s'' hcontent
          obtain ⟨c, hc, rfl⟩ := hskip _ _ _ hcontent
          obtain ⟨g, hg, rfl⟩ := ih h
          exact ⟨head ++ (c ++ g), .field hhead hc hg, by simp⟩
        · cases h
    · cases h

/-- What is skipped is the content of a field. This is the other
direction of `skipContent_append`, with the same cases: the wire type
tells how the end of the content is found. -/
theorem exists_of_skipContent (levels : Nat) (key : Key) (s rest : Bytes)
    (h : skipContent levels key s = some rest) : ∃ c, IsContent levels key c ∧ s = c ++ rest := by
  induction levels generalizing key s rest with
  | zero => simp [skipContent] at h
  | succ levels ih =>
    simp only [skipContent] at h
    simp only [IsContent]
    cases htype : key.wireType with
    | varint =>
      simp only [htype, Option.map_eq_some_iff, Prod.exists, exists_eq_right] at h
      obtain ⟨n, hn⟩ := h
      obtain ⟨head, -, hhead, rfl⟩ := exists_of_readVarint hn
      exact ⟨head, ⟨n, hhead⟩, rfl⟩
    | fixed64 =>
      simp only [htype, Option.map_eq_some_iff, Prod.exists, exists_eq_right] at h
      obtain ⟨taken, htaken⟩ := h
      exact ⟨taken, exists_of_takeExactly htaken⟩
    | fixed32 =>
      simp only [htype, Option.map_eq_some_iff, Prod.exists, exists_eq_right] at h
      obtain ⟨taken, htaken⟩ := h
      exact ⟨taken, exists_of_takeExactly htaken⟩
    | delimited =>
      simp only [htype, Option.map_eq_some_iff, Prod.exists, exists_eq_right] at h
      obtain ⟨content, hcontent⟩ := h
      exact isDelimited_of_readDelimited hcontent
    | groupStart =>
      simp only [htype] at h
      -- Inside of a group there is one level less, and the induction hypothesis is
      -- about that.
      exact exists_of_skipGroup ih h
    | groupEnd =>
      simp [htype] at h

/-! ## Known fields -/

/-- A delimited content is read by any reader of contents with a length. -/
theorem contentOf_append {c : Bytes} (h : IsDelimited c) :
    ∃ content, ∀ s, contentOf .delimited (c ++ s) = some (content, s) := by
  obtain ⟨length, content, hlength, rfl⟩ := h
  exact ⟨content, fun s => by
    rw [List.append_assoc]
    exact readDelimited_append hlength s⟩

/-- Only a delimited field has a content with a length in front. -/
theorem exists_of_contentOf {t : WireType} {s content rest : Bytes}
    (h : contentOf t s = some (content, rest)) :
    t = .delimited ∧ ∃ c, IsDelimited c ∧ s = c ++ rest := by
  unfold contentOf at h
  split at h
  · rename_i ht
    exact ⟨ht, isDelimited_of_readDelimited h⟩
  · cases h

/-- Only a varint field has a content that is a number. -/
theorem exists_of_numberOf {t : WireType} {n : Nat} {s rest : Bytes}
    (h : numberOf t s = some (n, rest)) :
    t = .varint ∧ ∃ c, (∃ n, IsVarint n c) ∧ s = c ++ rest := by
  unfold numberOf at h
  split at h
  · rename_i ht
    obtain ⟨head, -, hhead, rfl⟩ := exists_of_readVarint h
    exact ⟨ht, head, ⟨n, hhead⟩, rfl⟩
  · cases h

/-- A number is read as the content of a varint field, whatever follows it. -/
theorem numberOf_append {n : Nat} {c : Bytes} (h : IsVarint n c) (s : Bytes) :
    numberOf .varint (c ++ s) = some (n, s) :=
  readVarint_append h s

/-- A delimited content is a text or is refused, and what follows it has
no say in this. The result is given once for all that may follow. -/
theorem textOf_append {c : Bytes} (h : IsDelimited c) :
    ∃ r : Option String, ∀ s, textOf .delimited (c ++ s) = r.map fun text => (text, s) := by
  obtain ⟨content, hcontent⟩ := contentOf_append h
  exact ⟨String.fromUTF8? ⟨content.toArray⟩, fun s => by
    unfold textOf
    rw [hcontent]⟩

/-- Whether the content of a known field can be merged depends on
nothing that follows it, and neither does the result. The result may be
a refusal, as when a text is not UTF-8. -/
theorem Shape.merge_append {shape : Shape} {t : WireType} {c : Bytes} (h : shape.IsContent t c)
    (levels : Nat) (x : shape.Value) :
    ∃ r : Option shape.Value, ∀ s, shape.merge levels t x (c ++ s) = r.map fun y => (y, s) := by
  cases shape with
  | text =>
    obtain ⟨rfl, hc⟩ := h
    simp only [Shape.merge]
    exact textOf_append hc
  | bytes =>
    obtain ⟨rfl, hc⟩ := h
    obtain ⟨content, hcontent⟩ := contentOf_append hc
    exact ⟨some content, fun s => by simp only [Shape.merge, hcontent, Option.map_some]⟩
  | flag =>
    obtain ⟨rfl, n, hn⟩ := h
    exact ⟨some (n != 0), fun s => by
      simp only [Shape.merge, numberOf_append hn, Option.map_some]⟩
  | int32 =>
    obtain ⟨rfl, n, hn⟩ := h
    exact ⟨some (Int32.ofNat n), fun s => by
      simp only [Shape.merge, numberOf_append hn, Option.map_some]⟩
  | uint32 =>
    obtain ⟨rfl, n, hn⟩ := h
    exact ⟨some (UInt32.ofNat n), fun s => by
      simp only [Shape.merge, numberOf_append hn, Option.map_some]⟩
  | message layout =>
    obtain ⟨rfl, hc⟩ := h
    obtain ⟨content, hcontent⟩ := contentOf_append hc
    cases levels with
    -- There is no level left for a message inside of this one.
    | zero => exact ⟨none, fun s => by simp only [Shape.merge, Option.map_none]⟩
    | succ levels =>
      refine ⟨(readFields (layout.mergeField levels) (x.getD layout.defaults) content).map some,
        fun s => ?_⟩
      simp only [Shape.merge, hcontent, Option.map_map]
      rfl
  | messages layout =>
    obtain ⟨rfl, hc⟩ := h
    obtain ⟨content, hcontent⟩ := contentOf_append hc
    cases levels with
    | zero => exact ⟨none, fun s => by simp only [Shape.merge, Option.map_none]⟩
    | succ levels =>
      refine ⟨(readFields (layout.mergeField levels) layout.defaults content).map (x ++ [·]),
        fun s => ?_⟩
      simp only [Shape.merge, hcontent, Option.map_map]
      rfl
  | textMap =>
    obtain ⟨length, content, hlength, rfl⟩ := h
    cases levels with
    | zero => exact ⟨none, fun s => by simp only [Shape.merge, Option.map_none]⟩
    | succ levels =>
      refine ⟨(readEntry levels content).map fun e => SortedMap.insert x e.1 e.2, fun s => ?_⟩
      simp only [Shape.merge, List.append_assoc, readDelimited_append hlength, Option.map_map]
      rfl

/-- What is merged is the content of the field. So a message that can be
read is a row of fields, whatever may be wrong with the values in them.
The shapes differ in what they make of the content, but there are only
two ways to find its end: a number, or a length in front. -/
theorem Shape.exists_of_merge {shape : Shape} {levels : Nat} {t : WireType} {x y : shape.Value}
    {s rest : Bytes} (h : shape.merge levels t x s = some (y, rest)) :
    ∃ c, shape.IsContent t c ∧ s = c ++ rest := by
  cases shape with
  | text =>
    simp only [Shape.merge, textOf] at h
    split at h
    · rename_i content s' hcontent
      obtain ⟨text, -, heq⟩ := Option.map_eq_some_iff.mp h
      cases heq
      obtain ⟨ht, c, hc, hs⟩ := exists_of_contentOf hcontent
      exact ⟨c, ⟨ht, hc⟩, hs⟩
    · cases h
  | bytes =>
    simp only [Shape.merge] at h
    obtain ⟨ht, c, hc, hs⟩ := exists_of_contentOf h
    exact ⟨c, ⟨ht, hc⟩, hs⟩
  -- A flag and an integer are numbers of which only part is kept.
  | flag =>
    simp only [Shape.merge] at h
    obtain ⟨⟨n, s'⟩, hn, heq⟩ := Option.map_eq_some_iff.mp h
    cases heq
    obtain ⟨ht, c, hc, hs⟩ := exists_of_numberOf hn
    exact ⟨c, ⟨ht, hc⟩, hs⟩
  | int32 =>
    simp only [Shape.merge] at h
    obtain ⟨⟨n, s'⟩, hn, heq⟩ := Option.map_eq_some_iff.mp h
    cases heq
    obtain ⟨ht, c, hc, hs⟩ := exists_of_numberOf hn
    exact ⟨c, ⟨ht, hc⟩, hs⟩
  | uint32 =>
    simp only [Shape.merge] at h
    obtain ⟨⟨n, s'⟩, hn, heq⟩ := Option.map_eq_some_iff.mp h
    cases heq
    obtain ⟨ht, c, hc, hs⟩ := exists_of_numberOf hn
    exact ⟨c, ⟨ht, hc⟩, hs⟩
  | message layout =>
    simp only [Shape.merge] at h
    split at h
    · rename_i levels content s' hcontent
      obtain ⟨v, -, heq⟩ := Option.map_eq_some_iff.mp h
      cases heq
      obtain ⟨ht, c, hc, hs⟩ := exists_of_contentOf hcontent
      exact ⟨c, ⟨ht, hc⟩, hs⟩
    · cases h
  | messages layout =>
    simp only [Shape.merge] at h
    split at h
    · rename_i levels content s' hcontent
      obtain ⟨v, -, heq⟩ := Option.map_eq_some_iff.mp h
      cases heq
      obtain ⟨ht, c, hc, hs⟩ := exists_of_contentOf hcontent
      exact ⟨c, ⟨ht, hc⟩, hs⟩
    · cases h
  -- The entry of a map has a length in front, whatever the key says.
  | textMap =>
    simp only [Shape.merge] at h
    split at h
    · rename_i levels content s' hcontent
      obtain ⟨v, -, heq⟩ := Option.map_eq_some_iff.mp h
      cases heq
      exact isDelimited_of_readDelimited hcontent
    · cases h

end NpuAttribution.Wire
