import Mathlib.Data.List.TakeWhile
import NpuAttribution.Proofs.Poll.CycleTurn

/-!
# `NpuAttribution.Proofs.Poll.Clock`: the thread and the clock

Time stands still while tasks have the thread, and there are only so many turns before none is
ready (`Paused.drainFor`). Then everybody waits for something: a worker that inspects for its
report, a worker in the queue for a permit, the collector for a report or for the deadline.
None of this happens before the next timer, so time can go on up to there
(`Idle.advance`).

The workers in the queue have no timers. They wait because 64 others hold all permits, and
these all inspect and report at the next timer or later. So nobody's time to be admitted
comes before that.
-/

set_option autoImplicit false

namespace NpuAttribution.Poll

/-! ## Time stands still -/

namespace Schedule

variable {s : Schedule} {k i : Nat}

/-- Dispatching workers takes no time. -/
theorem now_dispatch (count : Nat) : (s.dispatch k count).now = s.now := by
  unfold dispatch
  induction count with
  | zero => rfl
  | succ count ih =>
    rw [List.range_succ, List.foldl_append, List.foldl_cons, List.foldl_nil, now_wake, now_act]
    exact ih

/-- Listing the containers takes no time in a schedule, where only
inspections have a delay. The limit of a cycle is counted from the end
of its listing, so nothing is left out of a cycle's time by this. -/
theorem now_list : (s.list k).now = s.now := by
  unfold list record
  simp only
  split
  · split
    · simp [setTimer, now_dispatch]
    · simp [now_dispatch]
  · simp

/-- Giving the thread to others takes no time. -/
theorem now_yieldTurn : (s.yieldTurn k).now = s.now := by
  unfold yieldTurn
  split
  · split <;> simp
  · simp
  · rfl

/-- The turn of a cycle takes no time, however many operations there are
in it. The induction is on the operations that are left. -/
theorem now_turnOfCycle (allowance : Nat) : (turnOfCycle k allowance s).now = s.now := by
  induction allowance generalizing s with
  | zero => exact now_yieldTurn
  | succ allowance ih =>
    unfold turnOfCycle
    split
    · rfl
    · split
      · split
        · simp [ih]
        · split
          · rfl
          · simp [ih]
      · simp only
        split
        · simp
        · simp [ih]
      · split
        · simp [ih]
        · simp
      · rfl

/-- A cycle that has the thread takes no time. -/
theorem now_runCycle : (s.runCycle k).now = s.now := by
  unfold runCycle
  split
  · rw [now_turnOfCycle, now_list]
  · rw [now_turnOfCycle]

/-- A worker that reports takes no time. -/
theorem now_leave : (s.leave k i).now = s.now := by
  unfold leave
  simp only
  split <;> simp

/-- Ending an inspection takes no time. -/
theorem now_conclude (w : Worker) (found : Found) : (s.conclude k i w found).now = s.now := by
  unfold conclude
  simp [now_leave]

/-- Beginning an inspection takes no time, it only sets a timer. -/
theorem now_begin (w : Worker) : (s.begin k i w).now = s.now := by
  unfold begin counted record pend setTimer
  simp only
  split
  · simp [now_conclude]
  · simp

/-- A worker that has the thread takes no time. -/
theorem now_runWorker : (s.runWorker k i).now = s.now := by
  unfold runWorker
  split
  · rfl
  · split
    · simp only
      split
      · simp [now_begin]
      · simp
    · exact now_begin _
    · split
      · exact now_conclude _ _
      · rfl
    · rfl

/-- Time stands still while a task has the thread. So between two jumps
of the clock everything happens at the same time. -/
theorem now_run (t : Task) : (s.run t).now = s.now := by
  cases t with
  | cycle k => exact now_runCycle
  | worker k i => exact now_runWorker

end Schedule

/-! ## Turns -/

/-- Whoever is ready when a cycle has the thread remains in front. The
turn may only add tasks at the end, for instance the cycle itself. -/
theorem Schedule.prefix_ready_turnOfCycle {s : Schedule} {k : Nat} (allowance : Nat) :
    s.ready <+: (turnOfCycle k allowance s).ready := by
  have hact {s : Schedule} {e : Event} : s.ready <+: (s.act e).ready :=
    (ready_act (s := s) (e := e)).symm ▸ List.prefix_refl s.ready
  induction allowance generalizing s with
  | zero =>
    unfold turnOfCycle yieldTurn
    split
    · split
      · rename_i i _
        exact prefix_ready_wake (s := { s with endings := s.endings.erase (k, i) ++ [(k, i)] })
      · exact hact
    · exact prefix_ready_wake
    · exact List.prefix_refl _
  | succ allowance ih =>
    -- After an operation the turn goes on with an allowance that is less by one.
    have hgoes {s' : Schedule} (hready : s'.ready = s.ready) :
        s.ready <+: (turnOfCycle k allowance s').ready :=
      hready ▸ ih
    unfold turnOfCycle
    split
    · exact List.prefix_refl _
    · split
      · split
        · exact hgoes ready_act
        · split
          · exact List.prefix_refl _
          · exact hgoes ready_act
      · simp only
        split
        · exact hact
        · exact hgoes ready_act
      · split
        · exact hgoes ready_act
        · exact hact
      · exact List.prefix_refl _

section

variable {x : Timetable} {o : State} {k : Nat} {awake awake' : Prop} {p m : Nat} {s : Schedule}
  {c : Cycle} {ready : List Task}

/-- A cycle takes its turn. Workers that are ready remain so, and whether
the cycle is awake is said by the turn and not by the list of tasks. -/
theorem OnTime.takeCycle (h : OnTime x o k none awake p m s c) {j : Nat}
    (hready : s.ready = .cycle j :: ready) (hawake : awake → awake') :
    OnTime x o k none awake' p m { s with ready } c := by
  refine h.carry ?_ ⟨rfl, rfl, fun _ => id, fun i hi => ?_⟩ rfl rfl rfl hawake
  · exact h.thread.congr rfl rfl rfl rfl fun t ht =>
      h.thread.ready t (hready ▸ List.mem_cons_of_mem _ ht)
  · rw [hready, List.mem_cons] at hi
    exact hi.resolve_left nofun

/-- In the turn of any cycle the one that has the thread to itself keeps
to the timetable. If it is the turn of another cycle then that one is
over, and its turn is an empty one. -/
theorem Paused.runCycle (h : Paused x o k s c) {j : Nat} (hready : s.ready = .cycle j :: ready) :
    ∃ c', Paused x o k ({ s with ready }.runCycle j) c' ∧
      ({ s with ready }.runCycle j).weight c' < s.weight c := by
  obtain ⟨p, m, hontime, hline⟩ := h
  have hpaid := Schedule.weight_pop hready c
  -- The workers that have not asked would be before the cycle.
  have hm : x.delays.length ≤ m := by
    by_contra hm
    unfold Timetable.InLine at hline
    rw [hready, show x.delays.length - m = x.delays.length - (m + 1) + 1 by omega,
      List.range'_succ, List.map_cons, List.cons_prefix_cons] at hline
    exact absurd hline.1 nofun
  by_cases hj : j = k
  · subst hj
    have hphase : ({ s with ready } : Schedule).phase? j = some c.phase := by
      unfold Schedule.phase?
      rw [show ({ s with ready } : Schedule).cycle? j = some c from hontime.thread.cycle]
      rfl
    obtain ⟨c', hdone, hweight⟩ := (hontime.takeCycle hready fun _ => trivial).turnOfCycle
      turnAllowance
    rw [if_neg (by decide)] at hweight
    have hrun : ({ s with ready } : Schedule).runCycle j
        = Schedule.turnOfCycle j turnAllowance { s with ready } := by
      have hprogress := hontime.course.progress
      unfold Schedule.runCycle
      rw [hphase]
      cases hp : c.phase with
      | listing =>
        rw [hp] at hprogress
        exact hprogress.elim
      | dispatching | collecting | delivering | joining | done => rfl
    rw [hrun]
    exact ⟨c', ⟨p, m, hdone, Timetable.inLine_of_le hm _⟩, by omega⟩
  · -- Another cycle is over and has nothing to do.
    have hother := hontime.thread.ready (.cycle j) (hready ▸ List.mem_cons_self)
    obtain ⟨d, hd, hdone⟩ := hother.resolve_left hj
    have hcycle : ({ s with ready } : Schedule).cycle? j = some d :=
      (hontime.thread.others j hj).trans hd
    have hrun : ({ s with ready } : Schedule).runCycle j = { s with ready } := by
      unfold Schedule.runCycle Schedule.phase?
      rw [hcycle]
      simp only [Option.map_some, hdone]
      unfold turnAllowance Schedule.turnOfCycle
      simp only [hcycle, hdone]
    rw [hrun]
    refine ⟨c, ⟨p, m, hontime.takeCycle hready fun hturn => ?_, Timetable.inLine_of_le hm _⟩,
      by omega⟩
    rw [hready, List.mem_cons, Task.cycle.injEq] at hturn
    exact hturn.resolve_left fun heq => hj heq.symm

/-- In every turn the cycle keeps to the timetable, and every turn is
paid for. A turn is that of a worker or that of a cycle. -/
theorem Paused.run (h : Paused x o k s c) {t : Task} (hready : s.ready = t :: ready) :
    ∃ c', Paused x o k ({ s with ready }.run t) c' ∧
      ({ s with ready }.run t).weight c' < s.weight c := by
  cases t with
  | cycle j => exact h.runCycle hready
  | worker j i =>
    obtain ⟨p, m, hontime, hline⟩ := id h
    have hj : j = k := hontime.thread.ready (.worker j i) (hready ▸ List.mem_cons_self)
    subst hj
    exact h.runWorker hready

/-- After so many turns nobody is ready. The weight bounds the
number of turns, since each of them makes it smaller, and the
induction is on this number. -/
theorem Paused.drainFor (h : Paused x o k s c) {turns : Nat} (hturns : s.weight c ≤ turns) :
    ∃ c', Paused x o k (Schedule.drainFor turns s) c' ∧
      (Schedule.drainFor turns s).ready = [] ∧ (Schedule.drainFor turns s).now = s.now ∧
      (Schedule.drainFor turns s).weight c' ≤ s.weight c := by
  -- Every turn makes the weight smaller, so it is enough for all of them.
  induction turns generalizing s c with
  | zero =>
    have hnone : s.ready.length = 0 := by
      unfold Schedule.weight at hturns
      omega
    exact ⟨c, h, List.length_eq_zero_iff.mp hnone, rfl, Nat.le_refl _⟩
  | succ turns ih =>
    unfold Schedule.drainFor
    cases hready : s.ready with
    | nil => exact ⟨c, h, hready, rfl, Nat.le_refl _⟩
    | cons t ready =>
      obtain ⟨c', hrun, hweight⟩ := h.run hready
      obtain ⟨c'', hdrained, hnone, hnow, hrest⟩ := ih hrun (by omega)
      exact ⟨c'', hdrained, hnone, hnow.trans (Schedule.now_run t),
        Nat.le_trans hrest (Nat.le_of_lt hweight)⟩

/-! ## Nobody is ready -/

/-- Whoever holds a permit has not reported. -/
theorem Stage.hasReported_of_permits {stage : Stage} (h : 0 < stage.permits) :
    stage.hasReported = false := by
  cases stage with
  | ended | joined => exact absurd h (Nat.lt_irrefl 0)
  | dispatched | waiting | admitted | inspecting | concluded | released => rfl

/-- Nobody has anything to do at the moment. -/
structure Idle (x : Timetable) (o : State) (k p : Nat) (s : Schedule) (c : Cycle) : Prop where
  onTime : OnTime x o k none (.cycle k ∈ s.ready) p x.delays.length s c
  ready : s.ready = []

/-- If nobody is ready then all workers have asked for a permit, because
those that have not are in line. -/
theorem Paused.idle (h : Paused x o k s c) (hready : s.ready = []) : ∃ p, Idle x o k p s c := by
  obtain ⟨p, m, hontime, hline⟩ := h
  unfold Timetable.InLine at hline
  rw [hready, List.prefix_nil, List.map_eq_nil_iff, List.range'_eq_nil_iff] at hline
  have hordered := hontime.roster.ordered
  obtain rfl : m = x.delays.length := by omega
  exact ⟨p, hontime, hready⟩

/-- There are turns enough for every cycle that has been started,
this one included. -/
theorem Started.le_turns (h : Started o k s c) :
    turnsPerCycle * (k + 2) ≤ turnsPerCycle * (s.state.cycles.length + 1) := by
  have hlt : k < s.state.cycles.length := (List.getElem?_eq_some_iff.mp h.cycle).1
  exact Nat.mul_le_mul_left _ (by omega)

/-- The tasks have the thread in turns until nobody is ready, and it is
still the same time. -/
theorem Paused.drain (h : Paused x o k s c) (henough : s.weight c ≤ turnsPerCycle * (k + 2)) :
    ∃ p c', Idle x o k p s.drain c' ∧ s.drain.now = s.now ∧
      s.drain.weight c' ≤ s.weight c := by
  obtain ⟨p, m, hontime, -⟩ := id h
  obtain ⟨c', hdrained, hready, hnow, hweight⟩ :=
    h.drainFor (Nat.le_trans henough hontime.thread.le_turns)
  obtain ⟨p', hidle⟩ := hdrained.idle hready
  exact ⟨p', c', hidle, hnow, hweight⟩

namespace Idle

variable {t : Nat} {i : Nat} {stage : Stage}

/-- A worker that has not reported waits for a permit, or it inspects
and has a timer. In any other stage it would be ready. -/
theorem waits (h : Idle x o k p s c) (hs : c.stage? i = some stage)
    (hunreported : stage.hasReported = false) :
    stage = .waiting ∨
      stage = .inspecting ∧ s.now < x.report i ∧ ⟨x.report i, .worker k i⟩ ∈ s.timers := by
  have hpunctual := h.onTime.roster.punctual i stage hs
  have hready (u : Task) : u ∉ s.ready := by
    rw [h.ready]
    exact List.not_mem_nil
  cases stage with
  | waiting => exact .inl rfl
  | dispatched =>
    have hi := (h.onTime.roster.dispatched i).mp hs
    omega
  | admitted => exact absurd (hpunctual.2.resolve_left nofun) (hready _)
  | inspecting =>
    rcases hpunctual with hacts | hturn | hlater
    · exact absurd hacts.2 nofun
    · exact absurd hturn.2 (hready _)
    · exact .inr ⟨rfl, hlater⟩
  | concluded | released => exact absurd hpunctual.2 nofun
  | ended | joined => cases hunreported

/-- A worker that waits for a permit is not to be admitted before the
next timer. All permits are held by workers in front of it, and these
report at the next timer or later. -/
theorem le_admitted (h : Idle x o k p s c) (ht : ∀ u ∈ s.timers, t ≤ u.due)
    (hs : c.stage? i = some .waiting) : t ≤ x.admitted i := by
  have hkept := h.onTime.thread.permitsKept
  have hqueued := (hkept.queued i).mpr hs
  have hpi : p ≤ i := by
    rw [h.onTime.roster.queue, List.mem_range'_1] at hqueued
    exact hqueued.1
  have htotal := hkept.total
  have hscarce := hkept.scarce (List.ne_nil_of_mem hqueued)
  by_contra hearly
  -- All permits are held by workers before this one that inspect until later.
  have hholders := Cycle.total_le_countP (c := c) (i := i)
    (f := fun j => decide (x.admitted i < x.report j)) fun j stage hj hpos => by
      rcases h.waits hj (Stage.hasReported_of_permits hpos) with rfl | ⟨rfl, -, htimer⟩
      · exact absurd hpos (by simp [Stage.permits])
      · have hlater : t ≤ x.report j := ht _ htimer
        refine ⟨?_, decide_eq_true (by omega)⟩
        by_contra hij
        have hjn := h.onTime.roster.lt_of_stage hj
        have hinqueue : j ∈ c.queue := by
          rw [h.onTime.roster.queue, List.mem_range'_1]
          omega
        rw [hkept.queued, hj] at hinqueue
        cases hinqueue
  have hfew := (Timetable.admitted_le_iff x (i := i)
    (Nat.le_of_lt (h.onTime.roster.lt_of_stage hs)) (x.start_le_admitted i)).mp (Nat.le_refl _)
  omega

/-- Nobody reports before the next timer, be it for want of a permit or
of time. -/
theorem le_report (h : Idle x o k p s c) (ht : ∀ u ∈ s.timers, t ≤ u.due)
    (hs : c.stage? i = some stage) (hunreported : stage.hasReported = false) :
    t ≤ x.report i := by
  rcases h.waits hs hunreported with rfl | ⟨-, -, htimer⟩
  · exact Nat.le_trans (h.le_admitted ht hs) (x.admitted_le_report i)
  · exact ht _ htimer

/-- The reports that are outstanding are those of the workers that report
late, if no time is left until the deadline but to the next timer. -/
theorem outstanding_eq_late (h : Idle x o k p s c) (hreports : c.reports = [])
    (hnow : s.now < x.deadline) (ht : ∀ u ∈ s.timers, x.deadline ≤ u.due) :
    c.outstanding = x.late := by
  unfold Cycle.outstanding Cycle.guards Timetable.late
  rw [hreports, List.length_nil, Nat.zero_add, Timetable.countP_reports,
    Cycle.countP_workers c fun stage => !stage.hasReported, h.onTime.roster.length_workers]
  refine List.countP_congr fun i hi => ?_
  obtain ⟨stage, hs⟩ := h.onTime.roster.exists_stage (List.mem_range.mp hi)
  rw [hs, Option.any_some, decide_eq_true_eq, Bool.not_eq_true']
  constructor
  · exact h.le_report ht hs
  · intro hlate
    by_contra hreported
    have hpast := h.onTime.roster.report_le hs (by simpa using hreported)
    omega

end Idle

/-! ## Time goes on -/

/-- Tasks are woken one after the other. Those that were ready stay
ready, and nothing else of the schedule changes. -/
theorem Schedule.exists_wakeAll (l : List (Timed Task)) (s : Schedule) :
    ∃ ready, l.foldl (fun s t => s.wake t.what) s = { s with ready } ∧
      (∀ u, u ∈ ready ↔ u ∈ s.ready ∨ ∃ t ∈ l, t.what = u) ∧
      ready.length ≤ s.ready.length + l.length := by
  induction l generalizing s with
  | nil => exact ⟨s.ready, rfl, by simp, Nat.le_refl _⟩
  | cons t l ih =>
    obtain ⟨ready, hready, hmem, hlength⟩ := ih (s.wake t.what)
    have hwake := s.length_ready_wake_le (t := t.what)
    have heq : ({ s.wake t.what with ready } : Schedule) = { s with ready } := by
      unfold wake
      split <;> rfl
    refine ⟨ready, hready.trans heq, fun u => ?_, ?_⟩
    · rw [hmem, mem_ready_wake, List.exists_mem_cons_iff, eq_comm (a := u)]
      exact or_assoc.trans or_left_comm
    · rw [List.length_cons]
      omega

/-- Timers that are left when time has passed are due later. This
needs that they are in order, since the search ends at the first one
that is not over. -/
theorem Timed.lt_of_mem_dropWhile {α : Type} {l : List (Timed α)} {t : Nat} {u : Timed α}
    (hsorted : l.Pairwise fun u v => u.due ≤ v.due)
    (hu : u ∈ l.dropWhile fun v => v.due ≤ t) : t < u.due := by
  induction l with
  | nil => cases hu
  | cons v l ih =>
    obtain ⟨hv, hl⟩ := List.pairwise_cons.mp hsorted
    by_cases hvt : v.due ≤ t
    · rw [List.dropWhile_cons_of_pos (by simpa using hvt)] at hu
      exact ih hl hu
    · rw [List.dropWhile_cons_of_neg (by simpa using hvt)] at hu
      rcases List.mem_cons.mp hu with rfl | hold
      · omega
      · have hle := hv u hold
        omega

/-- Time passes up to some time, and nothing that is to happen before is
passed:

- `state`, `now`: this is all that happens;
- `woken`: whoever has a timer for this time is ready;
- `left`: the others have their timers still;
- `paid`: each timer that is over gives somebody a turn. -/
structure Schedule.Passes (s : Schedule) (t : Nat) (s' : Schedule) : Prop where
  frame : ∃ ready timers, s' = { s with now := t, ready, timers }
  woken : ∀ u ∈ s.timers, u.due ≤ t → u.what ∈ s'.ready
  ready : ∀ u ∈ s'.ready, u ∈ s.ready ∨ ∃ v ∈ s.timers, v.what = u
  left : ∀ u, u ∈ s'.timers ↔ u ∈ s.timers ∧ t < u.due
  sorted : s'.timers.Sublist s.timers
  paid : s'.ready.length + s'.timers.length ≤ s.ready.length + s.timers.length

/-- Letting time pass is such a passage. The timers are split at the first
one that is due later, and whoever has one of those before is woken. As
they are in order, those before the split are the ones that are due. -/
theorem Schedule.passes_advance (hsorted : s.timers.Pairwise fun u v => u.due ≤ v.due) (t : Nat) :
    s.Passes t (s.advance t) := by
  obtain ⟨ready, heq, hmem, hlength⟩ := exists_wakeAll
    (s.timers.takeWhile fun u => u.due ≤ t)
    { s with now := t, timers := s.timers.dropWhile fun u => u.due ≤ t }
  have hsplit : (s.timers.takeWhile fun u => decide (u.due ≤ t))
      ++ (s.timers.dropWhile fun u => decide (u.due ≤ t)) = s.timers :=
    List.takeWhile_append_dropWhile
  have hsublist := List.dropWhile_sublist (l := s.timers) fun u => decide (u.due ≤ t)
  -- A timer is on one of the two sides of the split.
  have hcases {u : Timed Task} (hu : u ∈ s.timers) :
      u ∈ (s.timers.takeWhile fun u => decide (u.due ≤ t)) ∨
        u ∈ (s.timers.dropWhile fun u => decide (u.due ≤ t)) := by
    rw [← hsplit] at hu
    exact List.mem_append.mp hu
  have hadvance : s.advance t
      = { s with now := t, timers := s.timers.dropWhile fun u => u.due ≤ t, ready } := heq
  rw [hadvance]
  constructor
  case frame => exact ⟨_, _, rfl⟩
  case woken =>
    intro u hu hdue
    rcases hcases hu with hfired | hleft
    · exact (hmem u.what).mpr (.inr ⟨u, hfired, rfl⟩)
    · have hlater := Timed.lt_of_mem_dropWhile hsorted hleft
      omega
  case ready =>
    intro u hu
    refine ((hmem u).mp hu).imp_right ?_
    rintro ⟨v, hv, hvu⟩
    exact ⟨v, (List.takeWhile_sublist _).subset hv, hvu⟩
  case left =>
    intro u
    constructor
    · exact fun hu => ⟨hsublist.subset hu, Timed.lt_of_mem_dropWhile hsorted hu⟩
    · rintro ⟨hu, hlater⟩
      rcases hcases hu with hfired | hleft
      · have hdue := List.mem_takeWhile_imp hfired
        rw [decide_eq_true_eq] at hdue
        omega
      · exact hleft
  case sorted => exact hsublist
  case paid =>
    have htotal := congrArg List.length hsplit
    rw [List.length_append] at htotal
    show ready.length + (s.timers.dropWhile fun u => decide (u.due ≤ t)).length ≤ _
    have hlength : ready.length
        ≤ s.ready.length + (s.timers.takeWhile fun u => decide (u.due ≤ t)).length := hlength
    omega

namespace Idle

variable {s' : Schedule} {t : Nat}

/-- The cycle has the thread to itself at a later time, as it did
before: letting time pass changes nothing in the state of the monitor. -/
theorem thread_passes (h : Idle x o k p s c) (hnow : s.now ≤ t) (hpasses : s.Passes t s') :
    Thread x o k s' c := by
  have hthread := h.onTime.thread
  obtain ⟨ready, timers, hs'⟩ := hpasses.frame
  have hstate : s'.state = s.state := by rw [hs']
  have htime : s'.now = t := by rw [hs']
  refine ⟨hthread.toStarted.congr hstate, ?_, hthread.sorted.sublist hpasses.sorted, ?_, ?_, ?_, ?_⟩
  · have hstarted := hthread.started
    omega
  · intro u hu
    have hlater := ((hpasses.left u).mp hu).2
    omega
  · rw [hs']
    exact hthread.deadline
  · intro u hu
    rcases hpasses.ready u hu with hold | ⟨v, hv, rfl⟩
    · exact hthread.ready u hold
    · exact hthread.timers v hv
  · exact fun u hu => hthread.timers u (hpasses.sorted.subset hu)

/-- The workers keep to the timetable at a later time. A worker that is
to report now has its timer for now, and is woken. -/
theorem roster_passes (h : Idle x o k p s c) (hnow : s.now ≤ t)
    (ht : ∀ u ∈ s.timers, t ≤ u.due) (hpasses : s.Passes t s') :
    Roster x k none p x.delays.length s' c := by
  have hroster := h.onTime.roster
  obtain ⟨ready, timers, hs'⟩ := hpasses.frame
  have htime : s'.now = t := by rw [hs']
  have hbackend : s'.backend = s.backend := by rw [hs']
  have hinspections : s'.inspections = s.inspections := by rw [hs']
  refine ⟨?_, fun i stage hs => ?_, hroster.ordered, hroster.queue, hroster.dispatched, ?_, ?_⟩
  · rw [hbackend]
    exact hroster.delays
  · cases hreported : stage.hasReported with
    | true =>
      have hpast := hroster.report_le hs hreported
      cases stage with
      | ended | joined =>
        show x.report i ≤ s'.now
        omega
      | dispatched | waiting | admitted | inspecting | concluded | released => cases hreported
    | false =>
      rcases h.waits hs hreported with rfl | ⟨rfl, -, htimer⟩
      -- It still waits, and its time has not come before the next timer.
      · show s'.now ≤ x.admitted i
        rw [htime]
        exact h.le_admitted ht hs
      · -- The worker is woken if it is to report now, and keeps its timer otherwise.
        have hle : t ≤ x.report i := ht _ htimer
        by_cases hdue : x.report i ≤ t
        · exact .inr (.inl ⟨by omega, hpasses.woken _ htimer hdue⟩)
        · exact .inr (.inr ⟨by omega, (hpasses.left _).mpr ⟨htimer, by simpa using hdue⟩⟩)
  · rw [hinspections]
    exact hroster.inspections
  · rw [hinspections]
    exact hroster.recorded

/-- The collection keeps to the timetable at a later time. The
collector waits for its deadline or for reports, and whoever is to
have a turn is not forgotten. -/
theorem course_passes (h : Idle x o k p s c) (hnow : s.now ≤ t)
    (ht : ∀ u ∈ s.timers, t ≤ u.due) (hpasses : s.Passes t s') :
    Course x k (.cycle k ∈ s'.ready) s' c := by
  have hcourse := h.onTime.course
  obtain ⟨ready, timers, hs'⟩ := hpasses.frame
  have htime : s'.now = t := by rw [hs']
  have hstate : s'.state = s.state := by rw [hs']
  have hendings : s'.endings = s.endings := by rw [hs']
  have hasleep (hturn : Task.cycle k ∈ s.ready) : False := by
    rw [h.ready] at hturn
    cases hturn
  refine ⟨hcourse.limit, ?_, hendings ▸ hcourse.endings, hendings ▸ hcourse.nodup, ?_⟩
  · rw [hstate]
    exact hcourse.slot
  have hprogress := hcourse.progress
  cases hp : c.phase with
  | listing | dispatching =>
    rw [hp] at hprogress
    exact hprogress.elim
  | collecting pending gathered =>
    rw [hp] at hprogress
    rcases hprogress with ⟨hearly, htimer, hreports⟩ | ⟨-, hturn, -⟩
    · have hempty : c.reports = [] := by
        by_contra hne
        exact hasleep (hreports hne)
      have hle : t ≤ x.deadline := ht _ htimer
      -- The collector is woken at the deadline, and then the others are late.
      by_cases hdue : x.deadline ≤ t
      · refine .inr ⟨by omega, hpasses.woken _ htimer hdue, ?_⟩
        exact h.outstanding_eq_late hempty hearly fun u hu => Nat.le_trans hdue (ht u hu)
      · refine .inl ⟨by omega, (hpasses.left _).mpr ⟨htimer, by simpa using hdue⟩, fun hne => ?_⟩
        exact absurd hempty hne
    · exact (hasleep hturn).elim
  | delivering snapshot =>
    rw [hp] at hprogress
    exact (hasleep hprogress.1).elim
  | joining =>
    rw [hp] at hprogress
    obtain ⟨hwaits, hsettled⟩ := hprogress
    refine ⟨.inr ?_, hsettled.1, fun hlate => ?_⟩
    · rw [hendings]
      exact hwaits.resolve_left hasleep
    · have hpast := hsettled.2 hlate
      omega
  | done =>
    rw [hp] at hprogress
    refine ⟨hprogress.1, fun hlate => ?_⟩
    have hpast := hprogress.2 hlate
    omega

/-- Time goes on to the next timer at most, and the cycle keeps to the
timetable. -/
theorem advance (h : Idle x o k p s c) (hnow : s.now ≤ t) (ht : ∀ u ∈ s.timers, t ≤ u.due) :
    Paused x o k (s.advance t) c :=
  have hpasses := s.passes_advance h.onTime.thread.sorted t
  ⟨p, x.delays.length, ⟨h.thread_passes hnow hpasses, h.roster_passes hnow ht hpasses,
    h.course_passes hnow ht hpasses⟩, Timetable.inLine_of_le (Nat.le_refl _) _⟩

end Idle

end

end NpuAttribution.Poll
