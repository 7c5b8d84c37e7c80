import NpuAttribution.Proofs.Poll.Dispatch
import NpuAttribution.Proofs.Poll.ErrorAccounts

/-!
# `NpuAttribution.Proofs.Poll.Deadline`: a cycle keeps to its deadline

The main statement compares a schedule with a timetable. A cycle is started when there is
nothing else to do, and the owner waits for it: what has become of it at any time is what the
timetable foretells (`cycle_keeps_deadline`). The snapshot is delivered if all workers report
before the deadline, and otherwise it is reported at the deadline how many are late.

## How the argument goes

Time passes only when nobody is ready, and then goes on to the next timer at most. So what
happens is a row of instants, and in each of them tasks take turns.

- `OnTime` holds between any two things that are done in a turn. It says of every worker, and of
  the collector, that its time has not been missed and that it has not acted too early. The turn
  of a worker keeps it (`Paused.runWorker`), and so does that of the cycle (`OnTime.turnOfCycle`).
- Each turn makes a weight smaller, so an instant comes to its end (`Paused.drainFor`). Then
  nobody's time comes before the next timer, and time can go on up to there (`Idle.advance`).
- The first turn of the cycle brings it about (`Schedule.Resting.drain_start`), and while the
  owner waits it is kept by induction on the weight (`Idle.awaitFor`).

Whenever nobody is ready, the place that the collection has got to can be read off
(`Idle.phase_cases`): it waits for reports, or for workers that are late, or it has come to its
end. The rest is a matter of counting, with what is known of every run of the monitor.
-/

set_option autoImplicit false

namespace NpuAttribution.Poll

/-- What has become of a cycle up to a time, if it keeps to the
timetable:

- `reported`: the workers that are to report by then have reported, and
  no others;
- `delivered`, `complete`: the snapshot is delivered if all of them
  report before the deadline, and is made of the reports of all of them;
- `timeouts`: otherwise it is reported at the deadline that the time was
  over, and how many of them are late;
- `ended`: the cycle ends with its last worker, and if a worker is late
  then not before the deadline. -/
structure Timetable.Foretells (x : Timetable) (time : Nat) (s : State) (es : List Event) (k : Nat)
    (c : Cycle) : Prop where
  reported : ∀ i < x.delays.length,
    ((c.stage? i).any (·.hasReported) = true ↔ x.report i ≤ time)
  delivered : s.observe k Cycle.delivered es
    = if (∀ r ∈ x.reports, r < x.deadline) ∧ x.lastReport ≤ time then
        [Cycle.gatherAll (s.observe k Cycle.received es)]
      else []
  complete : s.observe k Cycle.delivered es ≠ [] →
    (s.observe k Cycle.received es).length = x.delays.length
  timeouts : s.observe k Cycle.timeouts es
    = if x.late ≠ 0 ∧ x.deadline ≤ time then [.timeout x.limit x.late x.delays.length] else []
  ended : c.phase = .done ↔ x.ending ≤ time

/-! ## What can be read off -/

section

variable {x : Timetable} {o : State} {k p time : Nat} {s : Schedule} {c : Cycle}

namespace Idle

/-- The collector waits for reports before the deadline, or the cycle
waits for workers that are late, or it has come to its end. In all other
phases it would be ready. -/
theorem phase_cases (h : Idle x o k p s c) :
    (∃ pending gathered, c.phase = .collecting pending gathered ∧ 0 < c.guards ∧
      ⟨x.deadline, .cycle k⟩ ∈ s.timers) ∨
    (c.phase = .joining ∧ 0 < c.guards ∧ x.Settled s c) ∨
    (c.phase = .done ∧ c.guards = 0 ∧ x.Settled s c) := by
  obtain ⟨limit, steps, hrun⟩ := h.onTime.thread.run
  have hasleep (hturn : Task.cycle k ∈ s.ready) : False := by
    rw [h.ready] at hturn
    cases hturn
  have hprogress := h.onTime.course.progress
  cases hp : c.phase with
  | listing | dispatching =>
    rw [hp] at hprogress
    exact hprogress.elim
  | collecting pending gathered =>
    rw [hp] at hprogress
    rcases hprogress with ⟨-, htimer, hreports⟩ | ⟨-, hturn, -⟩
    · have hempty : c.reports = [] := by
        by_contra hne
        exact hasleep (hreports hne)
      -- The collector does not wait for nothing.
      have hpending := Cycle.pending_eq hrun hp
      have hne := ((Cycle.ledger hrun).pending pending gathered hp).1
      rw [hempty, List.length_nil] at hpending
      exact .inl ⟨pending, gathered, rfl, by omega, htimer⟩
    · exact (hasleep hturn).elim
  | delivering snapshot =>
    rw [hp] at hprogress
    exact (hasleep hprogress.1).elim
  | joining =>
    rw [hp] at hprogress
    exact .inr (.inl ⟨rfl, (hprogress.1.resolve_left hasleep).2, hprogress.2⟩)
  | done =>
    rw [hp] at hprogress
    refine .inr (.inr ⟨rfl, ?_, hprogress⟩)
    unfold Cycle.guards
    rw [List.countP_eq_zero]
    intro w hw
    rw [Cycle.joined_of_done hrun hp w hw]
    simp [Stage.hasReported]

/-- The collection has come to what the timetable says when it is over. -/
theorem settled (h : Idle x o k p s c) (hover : c.phase.isOver = true) : x.Settled s c := by
  rcases h.phase_cases with ⟨_, _, hp, -⟩ | ⟨-, -, hsettled⟩ | ⟨-, -, hsettled⟩
  · rw [hp] at hover
    cases hover
  · exact hsettled
  · exact hsettled

/-- Nothing is to happen any more up to a time. -/
def Quiet (time : Nat) (s : Schedule) (c : Cycle) : Prop :=
  s.now ≤ time ∧ (c.phase = .done ∨ ∀ u ∈ s.timers, time < u.due)

/-- The workers that have reported are those that are to report by
then. Those that have not are not to report before the next timer, and
this comes later. -/
theorem hasReported_iff (h : Idle x o k p s c) (hquiet : Quiet time s c) {i : Nat} {stage : Stage}
    (hs : c.stage? i = some stage) : stage.hasReported = true ↔ x.report i ≤ time := by
  obtain ⟨hnow, hlater⟩ := hquiet
  constructor
  · intro hreported
    have hpast := h.onTime.roster.report_le hs hreported
    omega
  · intro hle
    by_contra hunreported
    obtain ⟨w, hw, rfl⟩ := Cycle.stage?_eq_some_iff.mp hs
    have hguards := Cycle.guards_pos hw (by simpa using hunreported)
    rcases hlater with hdone | htimers
    · rcases h.phase_cases with ⟨_, _, hp, -⟩ | ⟨hp, -⟩ | ⟨-, hnone, -⟩
      · rw [hdone] at hp
        cases hp
      · rw [hdone] at hp
        cases hp
      · omega
    · have hreport := h.le_report htimers hs (by simpa using hunreported)
      omega

/-- All workers have reported when the last one is to have. -/
theorem guards_eq_zero_iff (h : Idle x o k p s c) (hquiet : Quiet time s c) :
    c.guards = 0 ↔ x.lastReport ≤ time := by
  have hstarted := h.onTime.thread.started
  have hnow := hquiet.1
  rw [x.lastReport_le_iff, x.forall_mem_reports (· ≤ time)]
  constructor
  · intro hguards
    refine ⟨by omega, fun i hi => ?_⟩
    obtain ⟨stage, hs⟩ := h.onTime.roster.exists_stage hi
    refine (h.hasReported_iff hquiet hs).mp ?_
    by_contra hunreported
    obtain ⟨w, hw, rfl⟩ := Cycle.stage?_eq_some_iff.mp hs
    have hpos := Cycle.guards_pos hw (by simpa using hunreported)
    omega
  · rintro ⟨-, hall⟩
    unfold Cycle.guards
    rw [List.countP_eq_zero]
    intro w hw
    obtain ⟨i, hi⟩ := List.mem_iff_getElem?.mp hw
    have hs : c.stage? i = some w.stage := Cycle.stage?_eq_some_iff.mpr ⟨w, hi, rfl⟩
    have hreported := (h.hasReported_iff hquiet hs).mpr
      (hall i (h.onTime.roster.lt_of_stage hs))
    simp [hreported]

/-- The cycle has come to its end when it is to have. It ends with its
last worker, but not before the deadline if somebody is late. -/
theorem done_iff (h : Idle x o k p s c) (hquiet : Quiet time s c) :
    c.phase = .done ↔ x.ending ≤ time := by
  have hguards := h.guards_eq_zero_iff hquiet
  rw [x.ending_le_iff]
  rcases h.phase_cases with ⟨_, _, hp, hpos, -⟩ | ⟨hp, hpos, -⟩ | ⟨hp, hnone, hsettled⟩
  · rw [hp]
    exact iff_of_false nofun fun hend => by omega
  · rw [hp]
    exact iff_of_false nofun fun hend => by omega
  · refine iff_of_true hp ⟨hguards.mp hnone, fun hlate => ?_⟩
    exact Nat.le_trans (hsettled.2 hlate) hquiet.1

/-- While the collection goes on there is still somebody to report, and
it is not too late. -/
theorem time_lt (h : Idle x o k p s c) (hquiet : Quiet time s c) (hover : c.phase.isOver = false) :
    time < x.lastReport ∧ time < x.deadline := by
  have hguards := h.guards_eq_zero_iff hquiet
  rcases h.phase_cases with ⟨pending, gathered, hp, hpos, htimer⟩ | ⟨hp, -⟩ | ⟨hp, -⟩
  · refine ⟨by omega, hquiet.2.resolve_left ?_ _ htimer⟩
    rw [hp]
    nofun
  · rw [hp] at hover
    cases hover
  · rw [hp] at hover
    cases hover

/-- What has become of the collection is what the timetable foretells.
What is known of every run says how the collection may have ended, and
the timetable says which of the ways it is. -/
theorem foretells (h : Idle x o k p s c) (hquiet : Quiet time s c) (hn : x.delays.length ≠ 0)
    {es : List Event} (hes : o.run? es = some s.state) : x.Foretells time o es k c := by
  obtain ⟨limit, hrun, hobserve⟩ := State.run?_stepsOf hes h.onTime.thread.new h.onTime.thread.cycle
  have hlimit : x.limit = limit := h.onTime.course.limit.symm.trans (Cycle.limit_of_run? hrun)
  have hworkers := h.onTime.roster.length_workers
  have hcapacity : c.workers.length = c.capacity := by
    refine Cycle.length_workers_eq_capacity hrun ?_ h.onTime.course.progress.left_eq_nil
    rw [Ne, ← List.length_eq_zero_iff, hworkers]
    exact hn
  have hadds := Cycle.outstanding_add hrun hcapacity
  have hcollected := Cycle.collected hrun
  have hintime := x.late_eq_zero_iff
  suffices hends :
      (o.observe k Cycle.delivered es
        = if (∀ r ∈ x.reports, r < x.deadline) ∧ x.lastReport ≤ time then
            [Cycle.gatherAll (o.observe k Cycle.received es)]
          else []) ∧
      (o.observe k Cycle.delivered es ≠ [] →
        (o.observe k Cycle.received es).length = x.delays.length) ∧
      o.observe k Cycle.timeouts es
        = if x.late ≠ 0 ∧ x.deadline ≤ time then [.timeout x.limit x.late x.delays.length]
          else [] by
    refine ⟨fun i hi => ?_, hends.1, hends.2.1, hends.2.2, h.done_iff hquiet⟩
    obtain ⟨stage, hs⟩ := h.onTime.roster.exists_stage hi
    rw [hs, Option.any_some]
    exact h.hasReported_iff hquiet hs
  rw [hobserve, hobserve, hobserve]
  cases hover : c.phase.isOver with
  | true =>
    obtain ⟨hlate, htime⟩ := h.settled hover
    cases hcollected.ended hover with
    | delivered handed silent all =>
      have hlast : x.lastReport ≤ time := by
        refine (h.guards_eq_zero_iff hquiet).mp ?_
        unfold Cycle.outstanding at hadds
        omega
      rw [if_pos ⟨hintime.mp (by omega), hlast⟩, if_neg (by omega)]
      exact ⟨handed, fun _ => by omega, silent⟩
    -- The workers that have not reported are those that are late.
    | timedOut pending hpos count kept said =>
      have hpending : x.late = pending := by omega
      have hpast := htime (by omega)
      have hnow := hquiet.1
      have hnot : ¬((∀ r ∈ x.reports, r < x.deadline) ∧ x.lastReport ≤ time) :=
        fun hall => hpos (hpending ▸ hintime.mpr hall.1)
      rw [if_neg hnot, if_pos ⟨by omega, by omega⟩, kept, said, hpending, hlimit, ← hworkers,
        hcapacity]
      exact ⟨rfl, fun hne => absurd rfl hne, rfl⟩
    | unlisted none => omega
  | false =>
    obtain ⟨hkept, hsilent⟩ := hcollected.before hover
    obtain ⟨hlast, hearly⟩ := h.time_lt hquiet hover
    rw [hkept, hsilent, if_neg fun hall => by omega, if_neg (by omega)]
    exact ⟨rfl, fun hne => absurd rfl hne, rfl⟩

end Idle

/-! ## Waiting for the end -/

/-- The owner has waited for a cycle up to a time. The thread was idle
by then, and nothing has happened since. -/
def Awaited (x : Timetable) (o : State) (k time : Nat) (s : Schedule) : Prop :=
  ∃ d p c, Idle x o k p d c ∧ Idle.Quiet time d c ∧ s.state = d.state ∧
    s.now = min x.ending (time + 1)

/-- The owner does not wait beyond the next timer, nor beyond its own time. -/
theorem Schedule.nextTime_spec (hsorted : s.timers.Pairwise fun u v => u.due ≤ v.due)
    (latest : Nat) :
    s.nextTime latest ≤ latest ∧ (∀ u ∈ s.timers, s.nextTime latest ≤ u.due) ∧
      (s.nextTime latest = latest ∨ ∃ u ∈ s.timers, u.due = s.nextTime latest) := by
  unfold nextTime
  cases htimers : s.timers with
  | nil => exact ⟨Nat.le_refl _, nofun, .inl rfl⟩
  | cons t timers =>
    rw [htimers] at hsorted
    refine ⟨Nat.min_le_right _ _, fun u hu => ?_, ?_⟩
    · rcases List.mem_cons.mp hu with rfl | hold
      · exact Nat.min_le_left _ _
      · have hle := (List.pairwise_cons.mp hsorted).1 u hold
        exact Nat.le_trans (Nat.min_le_left _ _) hle
    · rcases Nat.le_total t.due latest with hle | hle
      · exact .inr ⟨t, List.mem_cons_self, (Nat.min_eq_left hle).symm⟩
      · exact .inl (Nat.min_eq_right hle)

/-- Whether the owner has to wait on is seen from the phase of the cycle. -/
theorem Schedule.isDone_eq (h : s.cycle? k = some c) :
    s.isDone k = decide (c.phase = .done) := by
  unfold isDone
  rw [h]

/-- Nothing more is to be waited for when the cycle has come to its end. -/
theorem Idle.awaited_of_done (h : Idle x o k p s c) (hnow : s.now ≤ time)
    (hearly : s.now ≤ x.ending) (hdone : c.phase = .done) : Awaited x o k time s := by
  have hend := (h.done_iff ⟨Nat.le_refl s.now, .inl hdone⟩).mp hdone
  exact ⟨s, p, c, h, ⟨hnow, .inl hdone⟩, rfl, by omega⟩

/-- If the cycle has not come to its end, then the owner has waited long
enough when time has passed, or somebody is to have the thread first. In
the second case the weight is smaller. -/
theorem Idle.jump (h : Idle x o k p s c) (hnow : s.now ≤ time) (hearly : s.now ≤ x.ending)
    (hdone : c.phase ≠ .done) {t : Nat} (ht : t = s.nextTime (time + 1)) :
    (t = time + 1 ∧ (s.advance t).now = t ∧ Awaited x o k time (s.advance t)) ∨
    (t ≤ time ∧ (s.advance t).now = t ∧ t ≤ x.ending ∧ Paused x o k (s.advance t) c ∧
      (s.advance t).weight c < s.weight c) := by
  have hsorted := h.onTime.thread.sorted
  obtain ⟨hle, hnext, hcases⟩ := s.nextTime_spec hsorted (time + 1)
  rw [← ht] at hle hnext hcases
  have hpasses := s.passes_advance hsorted t
  obtain ⟨ready, timers, hframe⟩ := hpasses.frame
  have htime : (s.advance t).now = t := by rw [hframe]
  -- Either no timer comes before the owner's own time, or the first one does.
  by_cases hlast : t = time + 1
  · left
    have hquiet : Idle.Quiet time s c := ⟨hnow, .inr fun u hu => by
      have hlater := hnext u hu
      omega⟩
    have hend := mt (h.done_iff hquiet).mpr hdone
    exact ⟨hlast, htime, s, p, c, h, hquiet, by rw [hframe], by omega⟩
  · right
    obtain ⟨u, hu, hdue⟩ := hcases.resolve_left hlast
    have hpast : s.now ≤ t := hdue ▸ h.onTime.thread.future u hu
    refine ⟨by omega, htime, ?_, h.advance hpast hnext, ?_⟩
    · by_cases hsame : s.now = t
      · omega
      · have hquiet : Idle.Quiet (t - 1) s c := ⟨by omega, .inr fun v hv => by
          have hlater := hnext v hv
          omega⟩
        have hend := mt (h.done_iff hquiet).mpr hdone
        omega
    · -- The timer that is over is not among those that are left.
      have hless : (s.advance t).timers.length < s.timers.length := by
        refine Nat.lt_of_le_of_ne hpasses.sorted.length_le fun heq => ?_
        have hleft := hpasses.sorted.eq_of_length heq
        have hlater := ((hpasses.left u).mp (hleft ▸ hu)).2
        omega
      have hpaid := hpasses.paid
      unfold Schedule.weight
      omega

/-- Time passes and tasks have the thread in turns until the end of the
cycle or of the time for which the owner waits. The induction is on the
jumps of the clock that are left. -/
theorem Idle.awaitFor (h : Idle x o k p s c) {jumps : Nat} (hweight : s.weight c ≤ jumps)
    (henough : s.weight c ≤ turnsPerCycle * (k + 2)) (hnow : s.now ≤ time)
    (hearly : s.now ≤ x.ending) :
    Awaited x o k time (if s.isDone k then s
      else Schedule.awaitFor k (time + 1) jumps (s.advance (s.nextTime (time + 1)))) := by
  -- Time that passes gives somebody a turn, and makes the weight smaller.
  induction jumps generalizing s c p with
  | zero =>
    rw [Schedule.isDone_eq h.onTime.thread.cycle]
    by_cases hdone : c.phase = .done
    · rw [if_pos (by simpa using hdone)]
      exact h.awaited_of_done hnow hearly hdone
    · rw [if_neg (by simpa using hdone)]
      rcases h.jump hnow hearly hdone rfl with ⟨-, -, hawaited⟩ | ⟨-, -, -, -, hless⟩
      · exact hawaited
      · omega
  | succ jumps ih =>
    rw [Schedule.isDone_eq h.onTime.thread.cycle]
    by_cases hdone : c.phase = .done
    · rw [if_pos (by simpa using hdone)]
      exact h.awaited_of_done hnow hearly hdone
    · rw [if_neg (by simpa using hdone)]
      unfold Schedule.awaitFor
      rcases h.jump hnow hearly hdone rfl with
        ⟨hlast, htime, hawaited⟩ | ⟨hle, htime, hend, hpaused, hless⟩
      · rw [if_pos (by rw [htime, hlast]; simp)]
        exact hawaited
      · obtain ⟨p', m', hontime, -⟩ := id hpaused
        obtain ⟨p'', c', hidle, hstill, hrest⟩ := hpaused.drain (by omega)
        have hnot : ¬((s.advance (s.nextTime (time + 1))).isDone k
            || decide (time + 1 ≤ (s.advance (s.nextTime (time + 1))).now)) = true := by
          rw [Schedule.isDone_eq hontime.thread.cycle, htime]
          simp [hdone]
          omega
        rw [if_neg hnot]
        exact ih hidle (by omega) (by omega) (by omega) (by omega)

/-- Only the state and the clock count. -/
theorem Awaited.congr (h : Awaited x o k time s) {s' : Schedule} (hstate : s'.state = s.state)
    (hnow : s'.now = s.now) : Awaited x o k time s' := by
  obtain ⟨d, p, c, hidle, hquiet, hsame, hend⟩ := h
  exact ⟨d, p, c, hidle, hquiet, hstate.trans hsame, hnow.trans hend⟩

/-- What the owner may still do in its turn does not matter. -/
theorem Idle.setAllowance (h : Idle x o k p s c) (allowance : Nat) :
    Idle x o k p { s with allowance } c where
  onTime := h.onTime.carry (h.onTime.thread.congr rfl rfl rfl rfl h.onTime.thread.ready)
    ⟨rfl, rfl, fun _ => id, fun _ => id⟩ rfl rfl rfl id
  ready := h.ready

/-- Nobody has a turn when nobody is ready. -/
theorem Schedule.drain_eq_self (h : s.ready = []) : s.drain = s := by
  unfold drain
  cases turnsPerCycle * (s.state.cycles.length + 1) with
  | zero => rfl
  | succ turns =>
    unfold drainFor
    rw [h]

/-- The owner waits for a cycle that has not come to its end, and tasks
have the thread first. This is what waiting for a cycle begins with. -/
theorem Idle.await {s₀ : Schedule} (h : Idle x o k p s₀.drain c)
    (hweight : s₀.drain.weight c < turnsPerCycle * (k + 2)) (hstarted : k < s₀.state.cycles.length)
    (hstill : s₀.drain.now = s₀.now) (hnow : s₀.now ≤ time) (hearly : s₀.now ≤ x.ending)
    (hdone : s₀.isDone k = false) :
    Awaited x o k time (Schedule.awaitFor k (time + 1)
      (turnsPerCycle * (s₀.state.cycles.length + 1)) s₀) := by
  have hturns : turnsPerCycle * (k + 2) ≤ turnsPerCycle * (s₀.state.cycles.length + 1) :=
    Nat.mul_le_mul_left _ (by omega)
  obtain ⟨jumps, hjumps⟩ := Nat.exists_eq_succ_of_ne_zero
    (n := turnsPerCycle * (s₀.state.cycles.length + 1)) (by omega)
  have hnot : ¬(s₀.isDone k || decide (time + 1 ≤ s₀.now)) = true := by
    rw [hdone]
    simp
    omega
  rw [hjumps]
  unfold Schedule.awaitFor
  rw [if_neg hnot]
  exact h.awaitFor (by omega) (by omega) (by omega) (by omega)

end

/-! ## A cycle by itself -/

/-- Nothing is going on in a schedule, and a snapshot can be delivered:

- `ready`, `inspections`, `endings`, `done`: nobody has anything to do;
- `slot`: there is room for a snapshot;
- `sorted`, `future`: timers are in order, and none of them has been
  missed;
- `timers`, `few`: there may be timers that were set for the deadlines
  of earlier cycles;
- `deadlines`: there are no other deadlines than these. -/
structure Schedule.Resting (s : Schedule) : Prop where
  ready : s.ready = []
  inspections : s.inspections = []
  endings : s.endings = []
  done : ∀ c ∈ s.state.cycles, c.phase = .done
  slot : s.state.mailbox.slot = .free
  sorted : s.timers.Pairwise fun u v => u.due ≤ v.due
  future : ∀ u ∈ s.timers, s.now ≤ u.due
  timers : ∀ u ∈ s.timers, ∃ j < s.state.cycles.length, u.what = .cycle j
  few : s.timers.length ≤ s.state.cycles.length
  deadlines : ∀ u ∈ s.deadlines, u.what < s.state.cycles.length

/-- The timetable of a cycle that is started now. -/
def Schedule.timetable (s : Schedule) (containers : List ListedContainer) : Timetable where
  start := s.now
  limit := s.limit
  delays := containers.map fun c => (s.backend.inspect c).delay

namespace Schedule.Resting

/-- A schedule that has not done anything is at rest. -/
theorem new (backend : Backend) (majors : List Nat) (limit : Nat) :
    Resting { backend, majors, limit } where
  ready := rfl
  inspections := rfl
  endings := rfl
  done := nofun
  slot := rfl
  sorted := .nil
  future := nofun
  timers := nofun
  few := Nat.le_refl 0
  deadlines := nofun

variable {s : Schedule} {containers : List ListedContainer}

/-- A cycle that is started in a schedule at rest has the thread to
itself. The cycles before it are all over, and whatever timers there
are belong to them. -/
theorem alone (h : s.Resting) (containers : List ListedContainer) :
    Alone (s.timetable containers) s.state s.state.cycles.length
      (s.giveHandle.act (.start s.limit)) where
  started :=
    { new := Nat.le_refl _
      reached := ⟨[.start s.limit], rfl⟩
      cycle := by
        show (s.state.cycles ++ [{ limit := s.limit }])[s.state.cycles.length]? = _
        rw [List.getElem?_append_right (Nat.le_refl _), Nat.sub_self]
        rfl
      others := by
        intro j hj
        show (s.state.cycles ++ [{ limit := s.limit }])[j]? = s.state.cycles[j]?
        rcases Nat.lt_or_gt_of_ne hj with hlt | hgt
        · exact List.getElem?_append_left hlt
        · rw [List.getElem?_eq_none (by simp; omega), List.getElem?_eq_none (by omega)] }
  now := rfl
  ready := h.ready
  inspections := h.inspections
  endings := h.endings
  slot := h.slot
  sorted := h.sorted
  future := h.future
  timers u hu := by
    obtain ⟨j, hj, hwhat⟩ := h.timers u hu
    rw [hwhat]
    -- A timer that is left was set for the deadline of a cycle that is over.
    exact .inr ⟨_, List.getElem?_eq_getElem hj, h.done _ (List.getElem_mem hj)⟩
  deadlines u hu := Nat.ne_of_lt (h.deadlines u hu)

/-- The cycle that is started lists containers in the first turn, and
collects in the same. So the turns of the tasks begin with this one, and
there is one turn less after it. -/
theorem drain_start_eq (h : s.Resting) {turns : Nat}
    (hturns : turnsPerCycle * (s.state.cycles.length + 2) = turns + 1) :
    s.start.drain = Schedule.drainFor turns (turnOfCycle s.state.cycles.length turnAllowance
      ((s.giveHandle.act (.start s.limit)).list s.state.cycles.length)) := by
  have halone := h.alone []
  have hstart : s.start
      = { s.giveHandle.act (.start s.limit) with ready := [.cycle s.state.cycles.length] } := by
    unfold start wake
    rw [if_neg (by rw [halone.ready]; exact List.not_mem_nil), halone.ready]
    rfl
  have hlength : s.start.state.cycles.length = s.state.cycles.length + 1 := by
    rw [hstart]
    exact List.length_append
  -- The cycle is new, so its turn begins with the listing.
  have hphase : (s.giveHandle.act (.start s.limit)).phase? s.state.cycles.length
      = some .listing := by
    unfold phase?
    rw [halone.started.cycle]
    rfl
  have hfirst : ({ s.giveHandle.act (.start s.limit) with ready := [] } : Schedule)
      = s.giveHandle.act (.start s.limit) := by rw [← halone.ready]
  unfold drain
  rw [hlength, hturns, hstart]
  show drainFor turns
    (runCycle { s.giveHandle.act (.start s.limit) with ready := [] } s.state.cycles.length) = _
  rw [hfirst]
  unfold runCycle
  rw [hphase]

/-- The cycle begins to keep to the timetable, and nobody is ready after
the first turns. It has at most 1024 workers, so there are turns enough:
the weight bounds what is left to do, and the bound on turns is larger. -/
theorem drain_start (h : s.Resting) (hlisting : s.backend.listing.1 = .ok containers)
    (hinspect : Cycle.Inspectable containers) :
    ∃ p c, Idle (s.timetable containers) s.state s.state.cycles.length p s.start.drain c ∧
      s.start.drain.now = s.now ∧
      s.start.drain.weight c < turnsPerCycle * (s.state.cycles.length + 2) := by
  have hlisting : (s.giveHandle.act (.start s.limit)).backend.listing
      = (.ok containers, s.backend.listing.2) := by
    rw [backend_act, ← hlisting]
    rfl
  obtain ⟨c, hlisted, hline, hweight⟩ :=
    (h.alone containers).list hlisting hinspect (by rw [backend_act]; rfl)
  obtain ⟨c', hdone, hrest⟩ := hlisted.turnOfCycle turnAllowance
  rw [if_neg (by decide)] at hrest
  have hpaused : Paused (s.timetable containers) s.state s.state.cycles.length
      (turnOfCycle s.state.cycles.length turnAllowance
        ((s.giveHandle.act (.start s.limit)).list s.state.cycles.length)) c' :=
    ⟨0, 0, hdone, hline.trans (prefix_ready_turnOfCycle turnAllowance)⟩
  -- The turns that there are for one cycle are enough for 1024 workers.
  have hsize : (s.timetable containers).delays.length ≤ Listing.maxContainers := by
    rw [timetable, List.length_map]
    exact hinspect.2
  have hfew : s.giveHandle.timers.length ≤ s.state.cycles.length := h.few
  have hturns : turnsPerCycle * (s.state.cycles.length + 2)
      = 10000 * s.state.cycles.length + 20000 := by
    unfold turnsPerCycle
    omega
  have hmax : Listing.maxContainers = 1024 := rfl
  rw [timers_act] at hweight
  obtain ⟨turns, hcount⟩ : ∃ turns,
      turnsPerCycle * (s.state.cycles.length + 2) = turns + 1 := ⟨_, by omega⟩
  have henough : (turnOfCycle s.state.cycles.length turnAllowance
      ((s.giveHandle.act (.start s.limit)).list s.state.cycles.length)).weight c' ≤ turns := by
    omega
  obtain ⟨c'', hdrained, hready, hnow, hless⟩ := hpaused.drainFor henough
  obtain ⟨p, hidle⟩ := hdrained.idle hready
  rw [h.drain_start_eq hcount]
  refine ⟨p, c'', hidle, ?_, by omega⟩
  rw [hnow, now_turnOfCycle, now_list, now_act]
  rfl

/-- The owner starts a cycle and lets time pass. It may have used up its
own turn before, and then the tasks have the thread first; nothing
depends on that. -/
theorem elapse (h : s.Resting) (hlisting : s.backend.listing.1 = .ok containers)
    (hinspect : Cycle.Inspectable containers) (t : Nat) :
    Awaited (s.timetable containers) s.state s.state.cycles.length (s.now + t)
      (s.start.elapse s.state.cycles.length (t + 1)) := by
  obtain ⟨p, c, hidle, hnow, hweight⟩ := h.drain_start hlisting hinspect
  have hstarted : Started s.state s.state.cycles.length s.start
      { limit := (s.timetable containers).limit } :=
    (h.alone containers).started.congr state_wake
  have htime : s.start.now = s.now := by
    unfold start
    rw [now_wake, now_act]
    rfl
  have hearly : s.now ≤ (s.timetable containers).ending := (s.timetable containers).start_le_ending
  have hlt {d : Schedule} {c : Cycle} (hd : Started s.state s.state.cycles.length d c) :
      s.state.cycles.length < d.state.cycles.length :=
    (List.getElem?_eq_some_iff.mp hd.cycle).1
  have hsum : s.now + (t + 1) = s.now + t + 1 := rfl
  unfold Schedule.elapse beginOperation
  by_cases hallowance : s.start.allowance = 0
  · -- A new turn of the owner begins, so the tasks have the thread before that.
    have hsettled := hidle.setAllowance turnAllowance
    obtain ⟨s₁, hs₁⟩ : ∃ s₁, s₁ = { s.start.drain with allowance := turnAllowance } := ⟨_, rfl⟩
    have hsettle : s.start.settle = s₁ := hs₁.symm
    have hweight₁ : s₁.weight c = s.start.drain.weight c := by
      rw [hs₁]
      exact weight_congr rfl rfl c
    have hnow₁ : s₁.now = s.now := by
      rw [hs₁]
      exact hnow
    rw [← hs₁] at hsettled
    have hdrain := drain_eq_self hsettled.ready
    have hcycle := hsettled.onTime.thread.cycle
    simp only [if_pos hallowance, hsettle, hnow₁, hsum]
    by_cases hdone : c.phase = .done
    · rw [isDone_eq hcycle, if_pos (by simp [hdone])]
      exact (hsettled.awaited_of_done (by omega) (by omega) hdone).congr rfl rfl
    · have hgoes : s₁.isDone s.state.cycles.length = false := by
        rw [isDone_eq hcycle]
        exact decide_eq_false hdone
      have hlength := hlt hsettled.onTime.thread.toStarted
      rw [hgoes, if_neg (by simp)]
      rw [← hdrain] at hsettled
      exact (hsettled.await (by rw [hdrain]; omega) hlength (by rw [hdrain]) (by omega) (by omega)
        hgoes).congr rfl rfl
  -- The owner has some of its turn left, and begins to wait at once.
  · simp only [if_neg hallowance, htime, hsum]
    rw [if_neg (by rw [isDone_eq hstarted.cycle]; simp)]
    refine (hidle.await hweight (hlt hstarted) (by omega) (by omega) (by omega) ?_).congr rfl rfl
    rw [isDone_eq hstarted.cycle]
    simp

end Schedule.Resting

/-- The owner has a handle of the cycle that has just been started. -/
theorem Schedule.mem_handles_start (s : Schedule) : s.state.cycles.length ∈ s.start.handles := by
  have hmem : s.state.cycles.length ∈ s.giveHandle.handles :=
    List.mem_append_right _ (List.mem_singleton_self _)
  unfold start
  rwa [handles_wake, handles_act]

/-- Waiting by a handle lets time pass, and apart from that it has to do
with handles only. -/
theorem Schedule.exists_await {s : Schedule} {k : Nat} (h : k ∈ s.handles) (wait : Nat) :
    ∃ handles, s.await k wait = some { s.elapse k wait with handles } := by
  unfold await
  simp only [if_pos h]
  split
  · exact ⟨_, rfl⟩
  · exact ⟨(s.elapse k wait).handles, rfl⟩

/-- A cycle is started in a schedule at rest, and the owner waits for
it. At whatever time it looks, after so many milliseconds, what has
become of the cycle is what the timetable foretells, in whatever run the
schedule is seen. The owner has waited for that time or until the end of
the cycle. With no time at all every worker is late.

The timetable is computed from the delays alone, and this is where the
simulated clock and the events come together: `Resting.elapse` brings
the schedule to a point where nobody is ready, and `Idle.foretells`
reads off it what has happened. -/
theorem cycle_keeps_deadline {s : Schedule} (hrest : s.Resting)
    {containers : List ListedContainer} (hlisting : s.backend.listing.1 = .ok containers)
    (hinspect : Cycle.Inspectable containers) (t : Nat) :
    let x := s.timetable containers
    let k := s.state.cycles.length
    ∃ after c, s.start.await k (t + 1) = some after ∧ after.cycle? k = some c ∧
      (∃ es, s.state.run? es = some after.state) ∧
      (∀ es, s.state.run? es = some after.state → x.Foretells (s.now + t) s.state es k c) ∧
      after.now = min x.ending (s.now + t + 1) ∧
      (s.limit = 0 → x.late = containers.length) := by
  intro x k
  obtain ⟨d, p, c, hidle, hquiet, hstate, hnow⟩ := hrest.elapse hlisting hinspect t
  obtain ⟨handles, hafter⟩ := Schedule.exists_await s.mem_handles_start (t + 1)
  have hstarted : Started s.state k { s.start.elapse k (t + 1) with handles } c :=
    hidle.onTime.thread.toStarted.congr hstate
  have hlength : x.delays.length = containers.length := List.length_map ..
  refine ⟨_, c, hafter, hstarted.cycle, hstarted.reached, fun es hes => ?_, hnow, fun hzero => ?_⟩
  · have hsome : x.delays.length ≠ 0 := by
      rw [hlength]
      exact fun hnone => hinspect.1 (List.length_eq_zero_iff.mp hnone)
    refine hidle.foretells hquiet hsome ?_
    rw [← hstate]
    exact hes
  · rw [← hlength]
    exact x.late_of_limit_eq_zero hzero

/-- There is one container more than can be inspected at once, and each
inspection takes half of the time and is aborted then. -/
def tied : Schedule where
  backend :=
    { listing := (.ok (List.replicate 65 Cycle.containerA), .empty)
      inspect := fun _ => { delay := 5, found := .panicked "boom" } }
  majors := []
  limit := 10

/-- A report at the deadline is late, and the cycle ends there: the
worker that had to wait for a permit reports in the same millisecond in
which the time is over. -/
theorem cycle_keeps_deadline_tied :
    ∃ after c es, tied.start.await 0 11 = some after ∧ after.cycle? 0 = some c ∧
      State.run? {} es = some after.state ∧
      State.observe {} 0 Cycle.delivered es = [] ∧
      State.observe {} 0 Cycle.timeouts es = [.timeout 10 1 65] ∧ c.phase = .done := by
  have hinspect : Cycle.Inspectable (List.replicate 65 Cycle.containerA) := by
    refine ⟨by simp, ?_⟩
    rw [List.length_replicate]
    decide
  have hrest : tied.Resting := .new tied.backend [] 10
  obtain ⟨after, c, hafter, hc, ⟨es, hes⟩, hforetells, -, -⟩ :=
    cycle_keeps_deadline hrest rfl hinspect 10
  obtain ⟨-, hdelivered, -, htimeouts, hended⟩ := hforetells es hes
  have hlate : (tied.timetable (List.replicate 65 Cycle.containerA)).late = 1 := by
    decide +kernel
  have hend : (tied.timetable (List.replicate 65 Cycle.containerA)).ending = 10 := by
    decide +kernel
  refine ⟨after, c, es, hafter, hc, hes, hdelivered.trans (if_neg ?_), ?_,
    hended.mpr (Nat.le_of_eq hend)⟩
  · rintro ⟨hall, -⟩
    have hnone := (Timetable.late_eq_zero_iff _).mpr hall
    rw [hlate] at hnone
    cases hnone
  · rw [hlate, if_pos ⟨Nat.one_ne_zero, Nat.le_refl _⟩] at htimeouts
    exact htimeouts

end NpuAttribution.Poll
