import NpuAttribution.Device.Registry
import NpuAttribution.Proofs.Text.Numeral

/-!
# `NpuAttribution.Proofs.Device.Registry`: the registry is read once

The first time that somebody asks for majors, the registry file is read as it is at this
moment. Everybody is answered from the list that this reading gives, whatever becomes of the
file, and if the reading fails then this list is empty for ever. `reads_once` says all that
is seen of a registry in any sequence of actions. There is no second warning, because only
the first question can cause one.

A major is given as a number of 64 bits with a sign, and the majors of the list have 32 bits
and no sign. `isMember_eq` says that the comparison does not confuse them, since no major on a
line of the registry exceeds 32 bits (`lt_of_mem_read`).
-/

set_option autoImplicit false

namespace NpuAttribution.Device

namespace Majors

/-- Every major that has been read has 32 bits. -/
theorem lt_of_mem_read {bytes : List UInt8} {ids : List Nat} (h : read bytes = .ok ids) :
    ∀ id ∈ ids, id < UInt32.size := by
  unfold read at h
  split at h
  · cases h
    intro id hid
    obtain ⟨line, -, hline⟩ := List.mem_filterMap.mp hid
    simp only [driverMajor?] at hline
    split at hline
    · exact Text.lt_of_unsigned? hline
    · cases hline
  · cases h

/-- The list that a reading leaves: an empty one, if it has failed. -/
def listOf : Except RegistryFault (List Nat) → List Nat
  | .ok ids => ids
  | .error _ => []

/-- Every major of the list that a reading leaves has 32 bits, be the
reading a success or not. -/
theorem lt_of_mem_listOf (file : RegistryFile) :
    ∀ id ∈ listOf (readFile file), id < UInt32.size := by
  intro id hid
  cases file with
  | absent | directory => cases hid
  | content bytes =>
    cases h : read bytes with
    | ok ids =>
      have hlist : listOf (readFile (.content bytes)) = ids := by
        show listOf (read bytes) = ids
        rw [h]
        rfl
      rw [hlist] at hid
      exact lt_of_mem_read h id hid
    | error fault =>
      have hlist : listOf (readFile (.content bytes)) = [] := by
        show listOf (read bytes) = []
        rw [h]
        rfl
      rw [hlist] at hid
      cases hid

/-- What the journal is told about a reading: one warning, if it has failed. -/
def linesOf (path : String) : Except RegistryFault (List Nat) → List Line
  | .ok _ => []
  | .error fault => [unreadable path fault]

/-- The first question causes a reading, and its answer is remembered. -/
theorem ids_unread (file : RegistryFile) (path : String) :
    (unread path).ids file =
      (listOf (readFile file), known (listOf (readFile file)), linesOf path (readFile file)) := by
  unfold ids
  cases readFile file <;> rfl

/-- A major is a member if it is one as a number of 32 bits. The two
comparisons could only differ for a major on the list that does not fit,
and there is none. -/
theorem isMember_eq {majors : List Nat} (h : ∀ id ∈ majors, id < UInt32.size) (major : Int) :
    isMember majors major = decide (0 ≤ major ∧ major < UInt32.size ∧ major.toNat ∈ majors) := by
  rw [Bool.eq_iff_iff, decide_eq_true_iff]
  unfold isMember
  rw [List.any_eq_true]
  constructor
  · rintro ⟨id, hid, heq⟩
    have hmajor : (id : Int) = major := eq_of_beq heq
    have hlt := h id hid
    subst hmajor
    exact ⟨by omega, by omega, by simpa using hid⟩
  · rintro ⟨hnonneg, -, hmem⟩
    exact ⟨major.toNat, hmem, beq_iff_eq.mpr (Int.toNat_of_nonneg hnonneg)⟩

end Majors

namespace Registry

open Majors (listOf linesOf readFile)

/-- Whether somebody asks for majors. -/
def Action.Asks : Action → Prop
  | .place _ => False
  | .ids => True
  | .contains _ => True

/-- The answer that follows from a list of majors. -/
def Action.answerFrom (majors : List Nat) : Action → Option Answer
  | .place _ => none
  | .ids => some (.ids majors)
  | .contains major => some <| .contains <| decide <|
      0 ≤ major.toInt ∧ major.toInt < UInt32.size ∧ major.toInt.toNat ∈ majors

/-- What is found at the path after a sequence of actions. -/
def fileAfter (file : RegistryFile) (as : List Action) : RegistryFile :=
  as.foldl (fun file a => match a with
    | .place file => file
    | _ => file) file

/-- What is seen of a registry in a sequence of actions:

- `unasked`: nobody asks for majors, and nothing is seen at all;
- `asked`: `a` is the first action to ask. The file is read as it is
  then. All answers, also the later ones, follow from this reading. The
  journal is told of it once, and of nothing else. -/
inductive ReadsOnce (path : String) (file : RegistryFile) (as : List Action) : Prop
  | unasked (hnone : ∀ a ∈ as, ¬ a.Asks)
    (hseen : (new path file).watch as = as.map fun _ => .nothing)
  | asked (before : List Action) (a : Action) (after : List Action)
    (hsplit : as = before ++ a :: after) (hbefore : ∀ b ∈ before, ¬ b.Asks) (hfirst : a.Asks)
    (reading : Except RegistryFault (List Nat))
    (hreading : reading = readFile (fileAfter file before))
    (hseen : (new path file).watch as =
      (before.map fun _ => .nothing) ++ ⟨a.answerFrom (listOf reading), linesOf path reading⟩ ::
        after.map fun b => ⟨b.answerFrom (listOf reading), []⟩)

variable {path : String} {file : RegistryFile} {majors : List Nat}

/-- Once the majors are known, all answers follow from them, and nothing
is told. The induction is on the actions, and what is found at the path
may change on the way. -/
theorem watch_known (h : ∀ id ∈ majors, id < UInt32.size) (as : List Action) :
    watch ⟨file, .known majors⟩ as = as.map fun a => ⟨a.answerFrom majors, []⟩ := by
  induction as generalizing file with
  | nil => rfl
  | cons a as ih =>
    rw [List.map_cons]
    cases a with
    | place file' =>
      show .nothing :: watch ⟨file', .known majors⟩ as = _
      rw [ih]
      rfl
    | ids =>
      show ⟨some (.ids majors), []⟩ :: watch ⟨file, .known majors⟩ as = _
      rw [ih]
      rfl
    | contains major =>
      show ⟨some (.contains (Majors.isMember majors major.toInt)), []⟩ ::
        watch ⟨file, .known majors⟩ as = _
      rw [ih, Majors.isMember_eq h]
      rfl

/-- Whoever asks first has the file read, be it for all majors or
for one of them. -/
theorem step_new_of_asks {a : Action} (ha : a.Asks) :
    (new path file).step a = (⟨file, .known (listOf (readFile file))⟩,
      ⟨a.answerFrom (listOf (readFile file)), linesOf path (readFile file)⟩) := by
  cases a with
  | place file' => exact ha.elim
  | ids =>
    simp only [step, new, Majors.ids_unread]
    rfl
  | contains major =>
    simp only [step, new, Majors.contains, Majors.ids_unread,
      Majors.isMember_eq (Majors.lt_of_mem_listOf file)]
    rfl

/-- The question that comes first is answered from the file, and all
others are answered from what is known then. -/
theorem ReadsOnce.of_asks {a : Action} (ha : a.Asks) (as : List Action) :
    ReadsOnce path file (a :: as) := by
  refine .asked [] a as rfl (fun b hb => by cases hb) ha (readFile file) rfl ?_
  show ((new path file).step a).2 :: watch ((new path file).step a).1 as = _
  rw [step_new_of_asks ha, watch_known (Majors.lt_of_mem_listOf file)]
  rfl

/-- While nobody asks, the registry is as new with whatever is found at
the path. So an action in front that does not ask is one more that
nothing is seen of. -/
theorem ReadsOnce.place {file' : RegistryFile} {as : List Action} (h : ReadsOnce path file' as) :
    ReadsOnce path file (.place file' :: as) := by
  have hwatch : (new path file).watch (.place file' :: as) =
      .nothing :: (new path file').watch as := rfl
  cases h with
  | unasked hnone hseen =>
    refine .unasked ?_ (by rw [hwatch, hseen]; rfl)
    intro b hb
    cases hb with
    | head => exact id
    | tail _ hb => exact hnone b hb
  | asked before a after hsplit hbefore hfirst reading hreading hseen =>
    refine .asked (.place file' :: before) a after (by rw [hsplit]; rfl) ?_ hfirst reading
      hreading (by rw [hwatch, hseen]; rfl)
    intro b hb
    cases hb with
    | head => exact id
    | tail _ hb => exact hbefore b hb

/-- The registry is read once, when somebody asks for the first time,
and all answers from then on are those of this reading, whatever becomes
of the file. By induction on the actions up to the one that asks. -/
theorem reads_once (path : String) (file : RegistryFile) (as : List Action) :
    ReadsOnce path file as := by
  induction as generalizing file with
  | nil => exact .unasked (fun a ha => by cases ha) rfl
  | cons a as ih =>
    cases a with
    | place file' => exact (ih file').place
    | ids => exact .of_asks (a := .ids) trivial as
    | contains major => exact .of_asks (a := .contains major) trivial as

-- The file comes too late, and the second question is not told of it.
example : (new "devices" .absent).watch
      [.ids, .place (.content "236 devdrv-cdev\n".toUTF8.toList), .contains 236] =
    [⟨some (.ids []), [Majors.unreadable "devices" .missing]⟩, .nothing,
      ⟨some (.contains false), []⟩] := by
  decide +kernel

end Registry

end NpuAttribution.Device
