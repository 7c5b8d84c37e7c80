import NpuAttribution.Proofs.Poll.WorkerTurn

/-!
# `NpuAttribution.Proofs.Poll.CycleTurn`: the turn of the cycle

In its turn a cycle looks at the time and receives reports, hands over its snapshot, and takes
note of the ends of its workers. It goes on until it has to wait or its turn is used up, and
keeps to the timetable (`OnTime.turnOfCycle`).

Two of these operations decide what becomes of the collection. The last report is received
before the deadline, so all workers have reported in time and nobody is late. And when the
time is over, the reports that are outstanding are those of the workers that are late.
-/

set_option autoImplicit false

namespace NpuAttribution.Poll

namespace OnTime

variable {x : Timetable} {o : State} {k : Nat} {awake awake' : Prop} {p m i : Nat}
  {s : Schedule} {c c' : Cycle}

/-- The cycle has got on in a move, and the workers have not. So the
workers keep to the timetable as before, and only the progress of the
collection has to be shown. -/
theorem move (h : OnTime x o k none awake p m s c) {mv : Move} {effect : Effect}
    (hm : c.move? mv = some (c', effect)) (hworkers : c'.workers = c.workers)
    (hqueue : c'.queue = c.queue) (hlimit : c'.limit = c.limit)
    (hover : c'.phase.isOver = false → c.phase.isOver = false)
    (hprogress : x.Progress k awake' s c' c'.phase) :
    OnTime x o k none awake' p m (s.act (.move k mv)) c' := by
  obtain ⟨hthread, hslot⟩ := h.thread.act_move hm
  have hcarries := Schedule.Carries.act (k := k) s (.move k mv)
  refine ⟨hthread, h.roster.carry hcarries Schedule.inspections_act hworkers hqueue, ?_⟩
  refine h.course.setPhase Schedule.endings_act hworkers hlimit (fun hnot => ?_) ?_
  · rw [hslot]
    exact h.course.slot (hover hnot)
  · exact hprogress.carry hcarries Schedule.endings_act id rfl rfl

/-! ## Collecting -/

/-- The collector finds its time over. It is then at the deadline or
behind it, and those who have not reported are late. -/
theorem expire (h : OnTime x o k none True p m s c) {pending : Nat} {gathered : Snapshot}
    (hp : c.phase = .collecting pending gathered) (hover : x.deadline ≤ s.now) :
    OnTime x o k none True p m (s.act (.move k .expire)) { c with phase := .joining } ∧
      (s.act (.move k .expire)).weight { c with phase := .joining } + 2 ≤ s.weight c := by
  have hmove : c.move? .expire
      = some ({ c with phase := .joining }, { error := some (c.timeoutError pending) }) := by
    simp [Cycle.move?, Cycle.expire?, hp]
  have hprogress := h.course.progress
  rw [hp] at hprogress
  refine ⟨h.move hmove rfl rfl rfl (fun hnot => by cases hnot) ⟨.inl trivial, ?_, fun _ => hover⟩,
    h.thread.weight_act_move hmove⟩
  rcases hprogress with ⟨hnow, -, -⟩ | ⟨-, -, hlate⟩
  · omega
  · exact hlate

/-- When every report has been received before the deadline, then nobody
is late. -/
theorem late_eq_zero (h : OnTime x o k none awake p m s c) (hguards : c.guards = 0)
    (hnow : s.now < x.deadline) : x.late = 0 := by
  rw [Timetable.late_eq_zero_iff, x.forall_mem_reports (· < x.deadline)]
  intro i hi
  obtain ⟨stage, hs⟩ := h.roster.exists_stage hi
  obtain ⟨w, hw, rfl⟩ := Cycle.stage?_eq_some_iff.mp hs
  have hpast : x.report i ≤ s.now := by
    refine h.roster.report_le hs ?_
    by_contra hunreported
    have hpos := Cycle.guards_pos hw (by simpa using hunreported)
    omega
  omega

/-- The collector receives a report before the deadline. If it was the
last one then nobody is late, and the snapshot is to be delivered;
otherwise it goes on to wait, with its timer still set. -/
theorem receive (h : OnTime x o k none True p m s c) {pending : Nat} {gathered : Snapshot}
    (hp : c.phase = .collecting pending gathered) (hnow : s.now < x.deadline)
    (hreports : c.reports ≠ []) :
    ∃ c', OnTime x o k none True p m (s.act (.move k .receive)) c' ∧
      (s.act (.move k .receive)).weight c' + 2 ≤ s.weight c := by
  obtain ⟨limit, steps, hrun⟩ := h.thread.run
  have hpending := Cycle.pending_eq hrun hp
  have hne := ((Cycle.ledger hrun).pending pending gathered hp).1
  -- The deadline is still to come, so the time limit is not zero.
  have hlimit : c.limit ≠ 0 := by
    have hstarted := h.thread.started
    rw [h.course.limit]
    unfold Timetable.deadline at hnow
    omega
  have hprogress := h.course.progress
  rw [hp] at hprogress
  have htimer : ⟨x.deadline, .cycle k⟩ ∈ s.timers := by
    rcases hprogress with ⟨-, htimer, -⟩ | ⟨heq, -, -⟩
    · exact htimer
    · omega
  obtain ⟨n, rfl⟩ := Nat.exists_eq_succ_of_ne_zero hne
  obtain ⟨r, reports, hr⟩ := List.exists_cons_of_ne_nil hreports
  rw [hr, List.length_cons] at hpending
  -- Whether it was the last one is told by the count of the collector.
  by_cases hn : n = 0
  · subst hn
    have hmove : c.move? .receive = some
        ({ c with phase := .delivering (Cycle.gather gathered r), reports }, {}) := by
      simp [Cycle.move?, Effect.without, Cycle.receive?, hp, hr, hlimit]
    refine ⟨_, h.move hmove rfl rfl rfl (fun _ => by rw [hp]; rfl) ⟨trivial, ?_, ?_⟩,
      h.thread.weight_act_move hmove⟩
    · show reports.length + c.guards = 0
      omega
    · exact h.late_eq_zero (by omega) hnow
  · have hmove : c.move? .receive = some
        ({ c with phase := .collecting n (Cycle.gather gathered r), reports }, {}) := by
      simp [Cycle.move?, Effect.without, Cycle.receive?, hp, hr, hlimit, hn]
    exact ⟨_, h.move hmove rfl rfl rfl (fun _ => by rw [hp]; rfl)
      (.inl ⟨hnow, htimer, fun _ => trivial⟩), h.thread.weight_act_move hmove⟩

/-! ## Delivering -/

/-- The cycle hands over its snapshot. There is room for it in the slot,
so it need not wait. -/
theorem deliver (h : OnTime x o k none True p m s c) {snapshot : Snapshot}
    (hp : c.phase = .delivering snapshot) :
    OnTime x o k none True p m (s.act (.deliver k)) { c with phase := .joining } ∧
      (s.act (.deliver k)).weight { c with phase := .joining } + 2 ≤ s.weight c := by
  have hprogress := h.course.progress
  rw [hp] at hprogress
  obtain ⟨-, houtstanding, hlate⟩ := hprogress
  have hstep := Schedule.step?_deliver h.thread.cycle hp (h.course.slot (by rw [hp]; rfl))
  have hc : s.state.cycles[k]? = some c := h.thread.cycle
  have hlt := (List.getElem?_eq_some_iff.mp hc).1
  have hcarries := Schedule.Carries.act (k := k) s (.deliver k)
  refine ⟨⟨?_, ?_, ?_⟩, ?_⟩
  · exact h.thread.act (h.thread.toStarted.act hstep (List.getElem?_set_self hlt) fun j hj =>
      List.getElem?_set_ne (Ne.symm hj))
  · exact h.roster.carry hcarries Schedule.inspections_act rfl rfl
  · exact h.course.setPhase Schedule.endings_act rfl rfl nofun
      ⟨.inl trivial, houtstanding.trans hlate.symm, fun hne => absurd hlate hne⟩
  · have hless : ({ c with phase := .joining } : Cycle).toGo + 1 = c.toGo := by
      unfold Cycle.toGo
      rw [hp]
      simp only [Phase.toGo, Cycle.total]
      omega
    unfold Schedule.weight
    rw [Schedule.ready_act, Schedule.timers_act]
    omega

/-! ## Waiting for the workers -/

/-- The ends that are to be taken note of are those of this cycle's
workers, so the next of them is the first. -/
theorem nextEnding_eq_none_iff (h : OnTime x o k none awake p m s c) :
    s.nextEnding? k = none ↔ s.endings = [] := by
  unfold Schedule.nextEnding?
  rw [Option.map_eq_none_iff, List.find?_eq_none, List.eq_nil_iff_forall_not_mem]
  refine forall_congr' fun e => ⟨fun hno he => ?_, fun hno he => absurd he hno⟩
  exact hno he (beq_iff_eq.mpr ((h.course.endings e).mp he).1)

/-- The next end that is to be taken note of is that of a worker that
has ended. -/
theorem ended_of_nextEnding (h : OnTime x o k none awake p m s c)
    (hi : s.nextEnding? k = some i) :
    (k, i) ∈ s.endings ∧ ∃ outcome, c.stage? i = some (.ended outcome) := by
  obtain ⟨e, he, rfl⟩ := Option.map_eq_some_iff.mp hi
  have hk : e.1 = k := beq_iff_eq.mp (List.find?_some (p := fun e : Nat × Nat => e.1 == k) he)
  have hmem : (k, e.2) ∈ s.endings := hk ▸ List.mem_of_find?_eq_some he
  exact ⟨hmem, ((h.course.endings _).mp hmem).2⟩

/-- The cycle takes note of the end of a worker. The end is not waiting
any more then, and the worker is joined. A worker that was in a panic is
reported now, which does not take any time. -/
theorem join (h : OnTime x o k none True p m s c) (hp : c.phase = .joining)
    (hi : s.nextEnding? k = some i) {s' : Schedule}
    (hs' : s' = { s with endings := s.endings.erase (k, i) }.act (.move k (.join i))) :
    OnTime x o k none True p m s' (c.setStage i .joined) ∧
      s'.weight (c.setStage i .joined) + 2 ≤ s.weight c := by
  obtain ⟨-, outcome, hs⟩ := h.ended_of_nextEnding hi
  obtain ⟨w, hw, hstage⟩ := Cycle.stage?_eq_some_iff.mp hs
  have hmove : c.move? (.join i) = some (c.setStage i .joined,
      { error := (Worker.failure? outcome).map (.workerPanicked w.task) }) := by
    simp [Cycle.move?, Cycle.join?, hp, hw, hstage]
  have hthread : Thread x o k { s with endings := s.endings.erase (k, i) } c :=
    h.thread.congr rfl rfl rfl rfl h.thread.ready
  obtain ⟨hjoined, -⟩ := hthread.act_move hmove
  have hweight := hthread.weight_act_move hmove
  rw [← hs'] at hjoined hweight
  have hcarries : s.Carries k s' := by
    rw [hs']
    exact ⟨Schedule.backend_act, Schedule.now_act, fun u hu => by rwa [Schedule.timers_act],
      fun j hj => by rwa [Schedule.ready_act]⟩
  have hendings : s'.endings = s.endings.erase (k, i) := by
    rw [hs']
    exact Schedule.endings_act
  have hinspections : s'.inspections = s.inspections := by
    rw [hs']
    exact Schedule.inspections_act
  have hended : x.Punctual k none s i .joined := h.roster.punctual i (.ended outcome) hs
  exact ⟨⟨hjoined, h.roster.setStage hs (by simp) (by simp) hcarries hinspections
    (hended.carry hcarries) (by simp) c.permits, h.course.join hp hs hcarries hendings trivial⟩,
    hweight⟩

/-- Without the ends of workers that it has not taken note of, the cycle
has come to its end or a worker has not reported. -/
theorem guards_pos_of_not_finish (h : OnTime x o k none awake p m s c) (hp : c.phase = .joining)
    (hnone : s.endings = []) (hfinish : c.finish? = none) : 0 < c.guards := by
  obtain ⟨w, hmem, hw⟩ : ∃ w ∈ c.workers, w.stage ≠ .joined := by
    by_contra hall
    push Not at hall
    rw [Cycle.finish?_eq_some_iff.mpr ⟨hp, hall, rfl⟩] at hfinish
    cases hfinish
  obtain ⟨i, hi⟩ := List.mem_iff_getElem?.mp hmem
  refine Cycle.guards_pos hi ?_
  cases hstage : w.stage with
  | joined => exact absurd hstage hw
  | ended outcome =>
    have hs : c.stage? i = some (.ended outcome) :=
      Cycle.stage?_eq_some_iff.mpr ⟨w, hi, hstage⟩
    have hend := (h.course.endings (k, i)).mpr ⟨rfl, outcome, hs⟩
    rw [hnone] at hend
    cases hend
  | dispatched | waiting | admitted | inspecting | concluded | released => rfl

/-- A cycle that has nothing to take note of ends or has to wait. It
waits for a worker that has not reported, and will be woken by it. -/
theorem finish (h : OnTime x o k none True p m s c) (hp : c.phase = .joining)
    (hnone : s.endings = []) (awake' : Prop) :
    ∃ c', OnTime x o k none awake' p m (s.act (.move k .finish)) c' ∧
      (s.act (.move k .finish)).weight c' ≤ s.weight c := by
  have hprogress := h.course.progress
  rw [hp] at hprogress
  cases hfinish : c.finish? with
  | some c' =>
    have hmove : c.move? .finish = some (c', {}) := by
      simp [Cycle.move?, Effect.without, hfinish]
    obtain ⟨-, -, rfl⟩ := Cycle.finish?_eq_some_iff.mp hfinish
    have hweight := h.thread.weight_act_move hmove
    exact ⟨_, h.move hmove rfl rfl rfl (fun hnot => by cases hnot) hprogress.2, by omega⟩
  | none =>
    have hmove : c.move? .finish = none := by
      simp [Cycle.move?, Effect.without, hfinish]
    have hguards := h.guards_pos_of_not_finish hp hnone hfinish
    rw [Schedule.act_move_of_none h.thread.cycle hmove]
    refine ⟨c, h.rouse ?_, Nat.le_refl _⟩
    rw [hp]
    exact ⟨.inr ⟨hnone, hguards⟩, hprogress.2⟩

/-! ## The whole turn -/

/-- A cycle whose turn is used up becomes ready again. In its last phase
it has looked at the next end without taking note of it, so this end
goes to the back of the others. -/
theorem yieldTurn (h : OnTime x o k none True p m s c) :
    ∃ c', OnTime x o k none (.cycle k ∈ (s.yieldTurn k).ready) p m (s.yieldTurn k) c' ∧
      (s.yieldTurn k).weight c' ≤ s.weight c + 1 := by
  have hphase : s.phase? k = some c.phase := by
    unfold Schedule.phase?
    rw [h.thread.cycle]
    rfl
  have hwakes : ∃ c', OnTime x o k none (.cycle k ∈ (s.wake (.cycle k)).ready) p m
      (s.wake (.cycle k)) c' ∧ (s.wake (.cycle k)).weight c' ≤ s.weight c + 1 :=
    ⟨c, h.wake, s.weight_wake_le _ c⟩
  unfold Schedule.yieldTurn
  rw [hphase]
  cases hp : c.phase with
  | joining =>
    simp only
    cases hi : s.nextEnding? k with
    | none =>
      obtain ⟨c', hfinished, hweight⟩ := h.finish hp (h.nextEnding_eq_none_iff.mp hi) _
      exact ⟨c', hfinished, Nat.le_succ_of_le hweight⟩
    | some i =>
      -- The ends that are left are the same in another order.
      obtain ⟨hmem, -⟩ := h.ended_of_nextEnding hi
      have hperm : (s.endings.erase (k, i) ++ [(k, i)]).Perm s.endings :=
        (List.perm_append_singleton _ _).trans (List.perm_cons_erase hmem).symm
      obtain ⟨s', hs'⟩ : ∃ s', s' = { s with
        endings := s.endings.erase (k, i) ++ [(k, i)] } := ⟨_, rfl⟩
      have hrotated : OnTime x o k none True p m s' c := by
        subst hs'
        refine ⟨h.thread.congr rfl rfl rfl rfl h.thread.ready,
          h.roster.carry ⟨rfl, rfl, fun _ => id, fun _ => id⟩ rfl rfl rfl, h.course.limit,
          h.course.slot, fun e => ?_, hperm.nodup_iff.mpr h.course.nodup, ?_⟩
        · rw [← h.course.endings e]
          exact hperm.mem_iff
        · exact h.course.progress.wakes ⟨rfl, rfl, fun _ => id, fun _ => id⟩ rfl trivial
      have hweight := s'.weight_wake_le (.cycle k) c
      have hsame : s'.weight c = s.weight c := by
        rw [hs']
        exact Schedule.weight_congr rfl rfl c
      simp only
      rw [← hs']
      exact ⟨c, hrotated.wake, by omega⟩
  | listing | dispatching | collecting | delivering | done => exact hwakes

/-- In its turn a cycle goes on as long as it can. Each operation pays
for what is left. The induction is on the operations that the turn has
left, and the cases are the phases. -/
theorem turnOfCycle (h : OnTime x o k none True p m s c) (allowance : Nat) :
    ∃ c', OnTime x o k none (.cycle k ∈ (Schedule.turnOfCycle k allowance s).ready) p m
        (Schedule.turnOfCycle k allowance s) c' ∧
      (Schedule.turnOfCycle k allowance s).weight c'
        ≤ s.weight c + if allowance = 0 then 1 else 0 := by
  induction allowance generalizing s c with
  | zero => exact h.yieldTurn
  | succ allowance ih =>
    have hgoes {s' : Schedule} {c' : Cycle} (h' : OnTime x o k none True p m s' c')
        (hweight : s'.weight c' + 2 ≤ s.weight c) :
        ∃ c'', OnTime x o k none (.cycle k ∈ (Schedule.turnOfCycle k allowance s').ready) p m
            (Schedule.turnOfCycle k allowance s') c'' ∧
          (Schedule.turnOfCycle k allowance s').weight c''
            ≤ s.weight c + if allowance + 1 = 0 then 1 else 0 := by
      obtain ⟨c'', hdone, hrest⟩ := ih h'
      refine ⟨c'', hdone, ?_⟩
      split at hrest <;> omega
    have hprogress := h.course.progress
    unfold Schedule.turnOfCycle
    rw [h.thread.cycle]
    simp only
    cases hp : c.phase with
    | collecting pending gathered =>
      rw [hp] at hprogress
      simp only
      rw [h.thread.isOverdue_eq]
      by_cases hover : x.deadline ≤ s.now
      · rw [if_pos (decide_eq_true hover)]
        obtain ⟨hexpired, hweight⟩ := h.expire hp hover
        exact hgoes hexpired hweight
      · rw [if_neg (by simpa using hover)]
        split
        · rename_i hempty
          -- The collector waits for the next report or for the deadline.
          refine ⟨c, h.rouse ?_, Nat.le_add_right _ _⟩
          rw [hp]
          rcases hprogress with ⟨hnow, htimer, -⟩ | ⟨hnow, -, -⟩
          · exact .inl ⟨hnow, htimer, fun hne => absurd (List.isEmpty_iff.mp hempty) hne⟩
          · omega
        · rename_i hempty
          obtain ⟨c', hreceived, hweight⟩ := h.receive hp (by omega)
            (by simpa [List.isEmpty_iff] using hempty)
          exact hgoes hreceived hweight
    | delivering snapshot =>
      obtain ⟨hdelivered, hweight⟩ := h.deliver hp
      have hphase : (s.act (.deliver k)).phase? k = some .joining := by
        unfold Schedule.phase?
        rw [hdelivered.thread.cycle]
        rfl
      simp only [hphase]
      exact hgoes hdelivered hweight
    | joining =>
      simp only
      cases hi : s.nextEnding? k with
      | some i =>
        obtain ⟨hjoined, hweight⟩ := h.join hp hi rfl
        exact hgoes hjoined hweight
      | none =>
        obtain ⟨c', hfinished, hweight⟩ := h.finish hp (h.nextEnding_eq_none_iff.mp hi) _
        exact ⟨c', hfinished, Nat.le_add_right_of_le hweight⟩
    | done =>
      rw [hp] at hprogress
      refine ⟨c, h.rouse ?_, Nat.le_add_right _ _⟩
      rw [hp]
      exact hprogress
    | listing | dispatching =>
      rw [hp] at hprogress
      exact hprogress.elim

end OnTime

end NpuAttribution.Poll
