import Mathlib.Data.List.Induction
import NpuAttribution.Poll.Timetable

/-!
# `NpuAttribution.Proofs.Poll.Timetable`: timetables by numbers of workers

Timetables are made from lists, and here they are turned into functions of the worker. The
one fact about admissions that is needed later is `admitted_le_iff`: a worker is admitted by
some time if and only if fewer than 64 of the workers before it report after that time. It
gives both directions of being on time. Whoever gets a permit does so when few others are
left, so not too early, and whoever waits does so because of 64 others, so not too long.
-/

set_option autoImplicit false

namespace NpuAttribution.Poll

/-! ## Admissions -/

/-- In a descending list the number of elements beyond a bound is found
by looking at a single place: the element there is beyond it exactly if
more elements are. Behind the end of the list there is the start, which
is never beyond. -/
theorem getD_le_iff_countP {l : List Nat} (h : l.Pairwise (· ≥ ·)) {start t : Nat}
    (hstart : start ≤ t) (n : Nat) :
    (l[n]?).getD start ≤ t ↔ (l.countP fun r => t < r) ≤ n := by
  induction l generalizing n with
  | nil => simp [hstart]
  | cons a l ih =>
    obtain ⟨ha, hl⟩ := List.pairwise_cons.mp h
    rw [List.countP_cons]
    by_cases hat : t < a
    -- The first element is beyond the bound, and counts.
    · rw [if_pos (by simpa using hat)]
      cases n with
      | zero =>
        rw [List.getElem?_cons_zero, Option.getD_some]
        omega
      | succ n =>
        rw [List.getElem?_cons_succ, ih hl]
        omega
    · -- The first element is not beyond the bound, so none is.
      have hnone : (l.countP fun r => t < r) = 0 := by
        refine List.countP_eq_zero.mpr fun r hr => ?_
        have hle := ha r hr
        simp only [decide_eq_true_eq]
        omega
      rw [if_neg (by simpa using hat), hnone]
      cases n with
      | zero =>
        rw [List.getElem?_cons_zero, Option.getD_some]
        omega
      | succ n =>
        rw [List.getElem?_cons_succ, ih hl, hnone]
        omega

/-- A worker is admitted by a time if fewer than 64 of those before it
report later. `admission` looks for the 64th of their reports from the
end, and this says what it finds. -/
theorem admission_le_iff {start t : Nat} (hstart : start ≤ t) (earlier : List Nat) :
    admission start earlier ≤ t ↔ (earlier.countP fun r => t < r) < maxInspections := by
  have hsorted := List.pairwise_insertionSort (· ≥ ·) earlier
  have hperm := List.perm_insertionSort (· ≥ ·) earlier
  unfold admission
  rw [getD_le_iff_countP hsorted hstart, hperm.countP_eq]
  have hpos : 0 < maxInspections := by decide
  omega

/-- Nobody is admitted before the dispatch. -/
theorem le_admission {start : Nat} {earlier : List Nat} (h : ∀ r ∈ earlier, start ≤ r) :
    start ≤ admission start earlier := by
  unfold admission
  cases hget : (earlier.insertionSort (· ≥ ·))[maxInspections - 1]? with
  | none => exact Nat.le_refl start
  | some r => exact h r ((List.mem_insertionSort _).mp (List.mem_of_getElem? hget))

/-! ## Reports -/

/-- One more worker at the end of the listing reports after its own
inspection, and changes nothing for those before it. -/
theorem reportTimes_append (start : Nat) (delays : List Nat) (delay : Nat) :
    reportTimes start (delays ++ [delay])
      = reportTimes start delays ++ [admission start (reportTimes start delays) + delay] := by
  unfold reportTimes
  rw [List.foldl_append]
  rfl

/-- There is a report of every worker. -/
theorem length_reportTimes (start : Nat) (delays : List Nat) :
    (reportTimes start delays).length = delays.length := by
  induction delays using List.reverseRecOn with
  | nil => rfl
  | append_singleton delays delay ih =>
    rw [reportTimes_append, List.length_append, List.length_append, ih]
    rfl

/-- Nobody reports before the dispatch, as nobody is admitted before it. -/
theorem le_of_mem_reportTimes {start : Nat} {delays : List Nat} :
    ∀ r ∈ reportTimes start delays, start ≤ r := by
  induction delays using List.reverseRecOn with
  | nil => nofun
  | append_singleton delays delay ih =>
    intro r hr
    rw [reportTimes_append, List.mem_append, List.mem_singleton] at hr
    rcases hr with hold | rfl
    · exact ih r hold
    · exact Nat.le_trans (le_admission ih) (Nat.le_add_right _ _)

/-- What a worker does depends on nothing that comes after it in the
listing, so its report can be computed from those before it. -/
theorem getElem?_reportTimes (start : Nat) (delays : List Nat) (i : Nat) :
    (reportTimes start delays)[i]?
      = (delays[i]?).map fun delay =>
          admission start ((reportTimes start delays).take i) + delay := by
  induction delays using List.reverseRecOn with
  | nil => rfl
  | append_singleton delays delay ih =>
    have hlength := length_reportTimes start delays
    rw [reportTimes_append]
    rcases Nat.lt_trichotomy i delays.length with hlt | rfl | hgt
    · rw [List.getElem?_append_left (by omega), List.getElem?_append_left hlt, ih,
        List.take_append_of_le_length (by omega)]
    · rw [List.getElem?_append_right (by omega), List.getElem?_append_right (by omega), hlength,
        Nat.sub_self, List.take_append_of_le_length (by omega), ← hlength, List.take_length]
      rfl
    · rw [List.getElem?_eq_none (by simp; omega), List.getElem?_eq_none (by simp; omega)]
      rfl

namespace Timetable

variable (x : Timetable)

/-- When a worker is admitted. -/
def admitted (i : Nat) : Nat := admission x.start (x.reports.take i)

/-- When a worker reports. -/
def report (i : Nat) : Nat := x.admitted i + x.delays.getD i 0

/-- There is a report of every worker. -/
@[simp] theorem length_reports : x.reports.length = x.delays.length :=
  length_reportTimes x.start x.delays

/-- The reports in the order of the workers. -/
theorem reports_eq : x.reports = (List.range x.delays.length).map x.report := by
  apply List.ext_getElem?
  intro i
  have hget := getElem?_reportTimes x.start x.delays i
  unfold reports
  rw [hget, List.getElem?_map]
  by_cases hi : i < x.delays.length
  · rw [List.getElem?_range hi, List.getElem?_eq_getElem hi]
    simp [report, admitted, reports, hi]
  · rw [List.getElem?_eq_none (by omega), List.getElem?_eq_none (by simp; omega)]
    rfl

/-- Nobody is admitted before the dispatch. -/
theorem start_le_admitted (i : Nat) : x.start ≤ x.admitted i :=
  le_admission fun r hr => le_of_mem_reportTimes r (List.mem_of_mem_take hr)

/-- Nobody reports before being admitted. -/
theorem admitted_le_report (i : Nat) : x.admitted i ≤ x.report i := Nat.le_add_right _ _

/-- So many workers report at times of some kind. -/
theorem countP_reports (p : Nat → Bool) :
    x.reports.countP p = (List.range x.delays.length).countP fun i => p (x.report i) := by
  rw [reports_eq, List.countP_map]
  rfl

/-- A worker is admitted by a time if fewer than 64 of those before it
report later. Those that wait and those that get a permit are both on
time because of this. -/
theorem admitted_le_iff {i t : Nat} (hi : i ≤ x.delays.length) (ht : x.start ≤ t) :
    x.admitted i ≤ t
      ↔ ((List.range i).countP fun j => t < x.report j) < maxInspections := by
  have htake : x.reports.take i = (List.range i).map x.report := by
    rw [reports_eq, ← List.map_take, List.take_range, Nat.min_eq_left hi]
  unfold admitted
  rw [admission_le_iff ht, htake, List.countP_map]
  rfl

/-! ## The end of the cycle -/

/-- What holds of all reports holds of the report of every worker. -/
theorem forall_mem_reports (P : Nat → Prop) :
    (∀ r ∈ x.reports, P r) ↔ ∀ i < x.delays.length, P (x.report i) := by
  rw [reports_eq]
  simp only [List.mem_map, List.mem_range, forall_exists_index, and_imp, forall_apply_eq_imp_iff₂]

/-- Nobody is late if all report before the deadline. A report at the
deadline is late. -/
theorem late_eq_zero_iff : x.late = 0 ↔ ∀ r ∈ x.reports, r < x.deadline := by
  unfold late
  rw [List.countP_eq_zero]
  simp only [decide_eq_true_eq, Nat.not_le]

/-- With no time at all everybody is late, even those that report at once. -/
theorem late_of_limit_eq_zero (h : x.limit = 0) : x.late = x.delays.length := by
  have hall : ∀ r ∈ x.reports, decide (x.deadline ≤ r) = true := by
    intro r hr
    unfold deadline
    rw [h]
    exact decide_eq_true (le_of_mem_reportTimes r hr)
  unfold late
  rw [List.countP_eq_length.mpr hall, length_reports]

/-- The last report has come when all have, and not before the start
if there are none. -/
theorem lastReport_le_iff (t : Nat) :
    x.lastReport ≤ t ↔ x.start ≤ t ∧ ∀ r ∈ x.reports, r ≤ t := by
  have hfold (l : List Nat) (start : Nat) :
      l.foldl max start ≤ t ↔ start ≤ t ∧ ∀ r ∈ l, r ≤ t := by
    induction l generalizing start with
    | nil => simp
    | cons r l ih =>
      rw [List.foldl_cons, ih, Nat.max_le, List.forall_mem_cons, and_assoc]
  exact hfold x.reports x.start

/-- The cycle has ended when all workers have reported, and the deadline
is over if one of them was late. -/
theorem ending_le_iff (t : Nat) :
    x.ending ≤ t ↔ x.lastReport ≤ t ∧ (x.late ≠ 0 → x.deadline ≤ t) := by
  unfold ending
  split
  · rename_i hlate
    simp [hlate]
  · rename_i hlate
    simp [hlate]

/-- No cycle ends before it has begun. -/
theorem start_le_ending : x.start ≤ x.ending := by
  have hlast := ((x.ending_le_iff x.ending).mp (Nat.le_refl _)).1
  have hstart := ((x.lastReport_le_iff x.lastReport).mp (Nat.le_refl _)).1
  exact Nat.le_trans hstart hlast

end Timetable

end NpuAttribution.Poll
