import NpuAttribution.Proofs.Poll.Punctuality

/-!
# `NpuAttribution.Proofs.Poll.WorkerTurn`: the turn of a worker

A worker that gets the thread asks for a permit, begins, concludes, returns its permit and
reports, and goes on with the next of these as long as it takes no time. Each of them keeps
to the timetable, and so does the whole turn (`Paused.runWorker`).

Two of them are about somebody else. A worker that is admitted is admitted at its time, since
so few permits are held that nobody had to wait any longer. And a worker that reports wakes
the collector.
-/

set_option autoImplicit false

namespace NpuAttribution.Poll

/-- A worker has gone on in its turn and given the thread back. `m`
workers have asked for a permit by then. -/
def GivesBack (x : Timetable) (o : State) (k m : Nat) (s : Schedule) (c : Cycle)
    (s' : Schedule) : Prop :=
  ∃ p c', OnTime x o k none (.cycle k ∈ s'.ready) p m s' c' ∧ s.Onward c s' c'

/-- What has been done in the turn before is part of it. -/
theorem GivesBack.after {x : Timetable} {o : State} {k m : Nat} {s s' s'' : Schedule}
    {c c' : Cycle} (h : GivesBack x o k m s' c' s'') (honward : s.Onward c s' c') :
    GivesBack x o k m s c s'' := by
  obtain ⟨p, c'', hdone, honward'⟩ := h
  exact ⟨p, c'', hdone, honward.trans honward'⟩

namespace OnTime

variable {x : Timetable} {o : State} {k : Nat} {acting : Option Nat} {awake : Prop} {p m i : Nat}
  {s : Schedule} {c : Cycle}

/-! ## Asking for a permit -/

/-- A worker asks for a permit and gets one. It is the next of the
listing, as nobody waits while a permit is free, and its time has come,
as fewer than 64 of the workers before it hold one. -/
theorem grant (h : OnTime x o k (some m) awake p m s c) {permits : Nat}
    (hs : c.stage? m = some .dispatched) (hpermits : c.permits = permits + 1) :
    OnTime x o k (some m) awake (m + 1) (m + 1) (s.act (.move k (.ask m)))
        { c.setStage m .admitted with permits } ∧
      (s.act (.move k (.ask m))).weight { c.setStage m .admitted with permits } ≤ s.weight c := by
  have hmove : c.move? (.ask m) = some ({ c.setStage m .admitted with permits }, {}) := by
    simp [Cycle.move?, Effect.without, Cycle.ask?, hs, hpermits]
  have hkept := h.thread.permitsKept
  have hordered := h.roster.ordered
  have hm := (h.roster.dispatched m).mp hs
  -- Nobody waits while a permit is free, so all workers before this one have been admitted.
  have hpm : p = m := by
    by_contra hne
    have hqueue : c.queue ≠ [] := by
      rw [h.roster.queue, Ne, List.range'_eq_nil_iff]
      omega
    have hscarce := hkept.scarce hqueue
    omega
  subst hpm
  have hnow : x.admitted p = s.now := by
    have hearly : s.now ≤ x.admitted p := h.roster.punctual p .dispatched hs
    have htotal := hkept.total
    have hlate := h.roster.admitted_le h.thread.started rfl
      (fun j hj hlater => h.roster.exists_permit hkept hj hlater) (by omega)
    omega
  obtain ⟨hthread, hslot⟩ := h.thread.act_move hmove
  have hcarries := Schedule.Carries.act (k := k) s (.move k (.ask p))
  have hqueue : c.queue = List.range' (p + 1) (p + 1 - (p + 1)) := by
    rw [h.roster.queue, Nat.sub_self, Nat.sub_self]
    rfl
  refine ⟨⟨hthread, ?_, ?_⟩, ?_⟩
  · exact h.roster.promote (.inr ⟨rfl, rfl⟩) hm.2 hcarries Schedule.inspections_act
      (hnow.trans Schedule.now_act.symm) (.inl rfl) hqueue permits
  · exact h.course.setStage hs rfl rfl hcarries Schedule.endings_act hslot permits c.queue
  · have hweight := h.thread.weight_act_move hmove
    omega

/-- A worker asks for a permit and has to wait for it, behind those that
have asked before. -/
theorem enqueue (h : OnTime x o k (some m) awake p m s c) (hs : c.stage? m = some .dispatched)
    (hpermits : c.permits = 0) :
    OnTime x o k (some m) awake p (m + 1) (s.act (.move k (.ask m)))
        { c.setStage m .waiting with queue := c.queue ++ [m] } ∧
      (s.act (.move k (.ask m))).weight { c.setStage m .waiting with queue := c.queue ++ [m] }
        ≤ s.weight c := by
  have hmove : c.move? (.ask m)
      = some ({ c.setStage m .waiting with queue := c.queue ++ [m] }, {}) := by
    simp [Cycle.move?, Effect.without, Cycle.ask?, hs, hpermits]
  obtain ⟨hthread, hslot⟩ := h.thread.act_move hmove
  have hcarries := Schedule.Carries.act (k := k) s (.move k (.ask m))
  refine ⟨⟨hthread, h.roster.enqueue hs hcarries Schedule.inspections_act, ?_⟩, ?_⟩
  · exact h.course.setStage hs rfl rfl hcarries Schedule.endings_act hslot c.permits _
  · have hweight := h.thread.weight_act_move hmove
    omega

/-! ## The inspection -/

/-- A worker with a permit begins its inspection at its time, which is
the time of its admission. -/
theorem begin (h : OnTime x o k (some i) awake p m s c) (hs : c.stage? i = some .admitted)
    (trace : Trace) :
    OnTime x o k (some i) awake p m (s.counted k i trace) (c.setStage i .inspecting) ∧
      (s.counted k i trace).weight (c.setStage i .inspecting) + 2 ≤ s.weight c := by
  have hmove : c.move? (.begin i) = some (c.setStage i .inspecting, {}) := by
    simp [Cycle.move?, Effect.without, Cycle.begin?, hs]
  have hearly : x.Punctual k (some i) s i .inspecting := by
    have hnow := (h.roster.punctual i .admitted hs).1
    have hle := x.admitted_le_report i
    exact .inl ⟨by omega, rfl⟩
  have hbegun := h.setStage hs hmove ⟨by simp, rfl⟩ ⟨by simp, rfl⟩ hearly fun _ => rfl
  refine ⟨(hbegun.note trace.lines).tally _ _ _ _, ?_⟩
  exact h.thread.weight_act_move hmove

/-- An inspection takes time, and the worker gives the thread back until
it is over. It is on time meanwhile because its timer is set for the
time at which it is to report. -/
theorem pend (h : OnTime x o k (some i) awake p m s c) (hs : c.stage? i = some .inspecting)
    (hlater : s.now < x.report i) (found : Found) :
    OnTime x o k none awake p m (s.pend (x.report i) ⟨k, i, found⟩) c := by
  have htimer : ⟨x.report i, .worker k i⟩ ∈ (s.pend (x.report i) ⟨k, i, found⟩).timers :=
    Timed.mem_insert_iff.mpr (.inl rfl)
  have hcarries : s.Carries k (s.pend (x.report i) ⟨k, i, found⟩) :=
    ⟨rfl, rfl, fun _ hu => Timed.mem_insert_iff.mpr (.inr hu), fun _ => id⟩
  refine ⟨?_, ?_, h.course.carry hcarries rfl rfl id⟩
  · have hthread : Thread x o k (s.setTimer (x.report i) (.worker k i)) c :=
      h.thread.setTimer (Nat.le_of_lt hlater) rfl
    exact hthread.congr rfl rfl rfl rfl hthread.ready
  constructor
  case delays => exact h.roster.delays
  case punctual =>
    intro j stage hj
    -- Only this worker has something new to wait for.
    by_cases hij : j = i
    · subst hij
      rw [hs, Option.some.injEq] at hj
      subst hj
      exact .inr (.inr ⟨hlater, htimer⟩)
    · exact ((h.roster.punctual j stage hj).carry hcarries).rest (by simpa using Ne.symm hij)
  case ordered => exact h.roster.ordered
  case queue => exact h.roster.queue
  case dispatched => exact h.roster.dispatched
  case inspections =>
    intro u hu
    rcases Timed.mem_insert_iff.mp hu with rfl | hold
    · exact ⟨rfl, rfl⟩
    · exact h.roster.inspections u hold
  case recorded =>
    intro j _ hj
    by_cases hij : j = i
    · exact ⟨_, Timed.mem_insert_iff.mpr (.inl rfl), hij.symm⟩
    · obtain ⟨u, hu, hworker⟩ := h.roster.recorded j (by simpa using Ne.symm hij) hj
      exact ⟨u, Timed.mem_insert_iff.mpr (.inr hu), hworker⟩

/-- An inspection is over at its time, and its worker still has the thread. -/
theorem conclude (h : OnTime x o k (some i) awake p m s c) (hs : c.stage? i = some .inspecting)
    (hnow : x.report i = s.now) (outcome : Outcome) :
    OnTime x o k (some i) awake p m (s.act (.move k (.conclude i outcome)))
        (c.setStage i (.concluded outcome)) ∧
      s.Onward c (s.act (.move k (.conclude i outcome))) (c.setStage i (.concluded outcome)) := by
  have hmove : c.move? (.conclude i outcome)
      = some (c.setStage i (.concluded outcome), { error := outcome.error? }) := by
    simp [Cycle.move?, Cycle.conclude?, hs]
  have hweight := h.thread.weight_act_move hmove
  exact ⟨h.setStage hs hmove ⟨by simp, rfl⟩ ⟨by simp, rfl⟩ ⟨hnow, rfl⟩ (by simp),
    .of_ready_eq (by omega) Schedule.ready_act⟩

/-! ## The permit -/

/-- A worker returns its permit, and nobody waits for it. -/
theorem release (h : OnTime x o k (some i) awake p m s c) {outcome : Outcome}
    (hs : c.stage? i = some (.concluded outcome)) (hq : c.queue = []) :
    OnTime x o k (some i) awake p m (s.act (.move k (.release i)))
        { c.setStage i (.released (some outcome)) with permits := c.permits + 1 } ∧
      s.Onward c (s.act (.move k (.release i)))
        { c.setStage i (.released (some outcome)) with permits := c.permits + 1 } := by
  have hmove : c.move? (.release i)
      = some ({ c.setStage i (.released (some outcome)) with permits := c.permits + 1 }, {}) := by
    simp [Cycle.move?, Effect.without, Cycle.release?, hs, Cycle.putPermit, hq]
  have hpunctual : x.Punctual k (some i) s i (.released (some outcome)) :=
    h.roster.punctual i (.concluded outcome) hs
  have hweight := h.thread.weight_act_move hmove
  exact ⟨h.setStage hs hmove ⟨by simp, rfl⟩ ⟨by simp, rfl⟩ hpunctual (by simp),
    .of_ready_eq (by omega) Schedule.ready_act⟩

/-- When a permit comes back and somebody waits, the next worker of
the listing is to be admitted now. Not earlier, as it has waited so
far; and not later, as the permits that are held without this one
are fewer than 64. -/
theorem admitted_eq (h : OnTime x o k (some i) awake p m s c) {outcome : Outcome} {queue : List Nat}
    (hs : c.stage? i = some (.concluded outcome)) (hq : c.queue = p :: queue) :
    x.admitted p = s.now := by
  have hkept := h.thread.permitsKept
  have hreport : x.report i = s.now := (h.roster.punctual i (.concluded outcome) hs).1
  have hearly : s.now ≤ x.admitted p :=
    h.roster.punctual p .waiting (Cycle.waiting_of_queue hkept hq)
  -- Without the permit that comes back fewer than 64 are held.
  have htotal := hkept.total
  have hless := Cycle.total_setStage Stage.permits hs (.released (some outcome))
  simp only [Stage.permits] at hless
  have hlate := h.roster.admitted_le h.thread.started
    (d := c.setStage i (.released (some outcome))) (by simp) (fun j hj hlater => ?_) (by omega)
  · omega
  · obtain ⟨stage, hstage, hpos⟩ := h.roster.exists_permit hkept hj hlater
    have hne : i ≠ j := by
      rintro rfl
      omega
    exact ⟨stage, by rw [Cycle.stage?_setStage, if_neg hne, hstage], hpos⟩

/-- A worker passes its permit on to the one that has waited longest.
That one is the next of the listing, and its time has come. It is woken,
and has its turn later at the same time. -/
theorem passOn (h : OnTime x o k (some i) awake p m s c) {outcome : Outcome} {next : Nat}
    {queue : List Nat} (hs : c.stage? i = some (.concluded outcome))
    (hq : c.queue = next :: queue) :
    OnTime x o k (some i) awake (p + 1) m ((s.act (.move k (.release i))).wake (.worker k next))
        { (c.setStage i (.released (some outcome))).setStage next .admitted with queue } ∧
      s.Onward c ((s.act (.move k (.release i))).wake (.worker k next))
        { (c.setStage i (.released (some outcome))).setStage next .admitted with queue } := by
  have hmove : c.move? (.release i) = some
      ({ (c.setStage i (.released (some outcome))).setStage next .admitted with queue }, {}) := by
    simp [Cycle.move?, Effect.without, Cycle.release?, hs, Cycle.putPermit, hq]
  have hkept := h.thread.permitsKept
  have hordered := h.roster.ordered
  obtain ⟨rfl, hpm, hqueue⟩ := h.roster.queue_cons hq
  have hnow := h.admitted_eq hs hq
  obtain ⟨hthread, hslot⟩ := h.thread.act_move hmove
  have hcarries := (Schedule.Carries.act (k := k) s (.move k (.release i))).wake (.worker k p)
  have hreleased : x.Punctual k (some i) s i (.released (some outcome)) :=
    h.roster.punctual i (.concluded outcome) hs
  -- The worker with the permit gets on first, and then the other one is admitted.
  have hroster := h.roster.setStage hs (by simp) (by simp) hcarries (by simp)
    (hreleased.carry hcarries) (by simp) c.permits
  have hcourse : Course x k awake ((s.act (.move k (.release i))).wake (.worker k p))
      (c.setStage i (.released (some outcome))) :=
    h.course.setStage hs rfl rfl hcarries (by simp) (by rwa [Schedule.state_wake]) c.permits c.queue
  have hnext := Cycle.waiting_setStage hkept hs (by simp) hq (.released (some outcome))
  refine ⟨⟨hthread.wake rfl, ?_, ?_⟩, ?_, ?_⟩
  · exact hroster.promote (.inl ⟨hpm, rfl⟩) (by omega) (.refl _) rfl (by simpa using hnow)
      (.inr (by simp)) hqueue c.permits
  · exact hcourse.setStage hnext rfl rfl (.refl _) rfl rfl c.permits queue
  · have hweight := h.thread.weight_act_move hmove
    have hwake := Schedule.weight_wake_le (s.act (.move k (.release i))) (.worker k p)
      { (c.setStage i (.released (some outcome))).setStage p .admitted with queue }
    omega
  · have hprefix := Schedule.prefix_ready_wake (s := s.act (.move k (.release i)))
      (t := .worker k p)
    rwa [Schedule.ready_act] at hprefix

/-! ## The report -/

/-- A worker reports at its time and is no more. The collector can go
on: it is woken, and what is outstanding has not changed, only that the
report is on the channel now. -/
theorem report (h : OnTime x o k (some i) awake p m s c) {outcome : Option Outcome}
    (hs : c.stage? i = some (.released outcome)) {s' : Schedule}
    (hs' : s' = { s.act (.move k (.report i)) with
      endings := (s.act (.move k (.report i))).endings ++ [(k, i)] }) :
    GivesBack x o k m s c (s'.wake (.cycle k)) := by
  obtain ⟨w, hw, hstage⟩ := Cycle.stage?_eq_some_iff.mp hs
  obtain ⟨limit, steps, hrun⟩ := h.thread.run
  have hunreported := Cycle.guards_pos hw (by rw [hstage]; rfl)
  have hroom := Cycle.room_of_guards hrun (Cycle.ledger hrun) hunreported
  obtain ⟨c', hc'⟩ : ∃ c', c' = { c.setStage i (.ended outcome) with
      reports := c.reports ++ [w.message outcome] } := ⟨_, rfl⟩
  have hmove : c.move? (.report i) = some (c', {}) := by
    have hsend := Cycle.send_of_room (c := c.setStage i (.ended outcome)) hroom (w.message outcome)
    simp only [Cycle.move?, Effect.without, Cycle.report?, hw, hstage, hsend, hc']
    rfl
  have hreport : x.report i = s.now := (h.roster.punctual i _ hs).1
  obtain ⟨hthread, hslot⟩ := h.thread.act_move hmove
  have hcarries : s.Carries k (s'.wake (.cycle k)) := by
    rw [hs']
    refine Schedule.Carries.wake ⟨?_, ?_, fun u hu => ?_, fun j hj => ?_⟩ (.cycle k)
    · exact Schedule.backend_act
    · exact Schedule.now_act
    · simpa using hu
    · simpa using hj
  -- The worker has ended at its time and remains so.
  have hended : x.Punctual k (some i) (s'.wake (.cycle k)) i (.ended outcome) := by
    show x.report i ≤ (s'.wake (.cycle k)).now
    rw [hcarries.now]
    omega
  -- The report goes from the worker to the channel, and is outstanding in either
  -- place.
  have houtstanding : c'.outstanding = c.outstanding := by
    have hworkers := Cycle.length_workers_eq_capacity hrun (List.ne_nil_of_mem
      (List.mem_of_getElem? hw)) h.course.progress.left_eq_nil
    have hstep : c.step? (.move (.report i)) = some c' := by
      rw [Cycle.step?, hmove]
      rfl
    exact Cycle.outstanding_step hrun hstep hworkers (by simpa [hc'] using hworkers)
      (by rw [hc']; rfl) rfl
  refine ⟨p, c', ⟨?_, ?_, ?_⟩, ?_, ?_⟩
  · exact (hthread.congr (by rw [hs']) (by rw [hs']) (by rw [hs']) (by rw [hs'])
      (by rw [hs']; exact hthread.ready)).wake (.inl rfl)
  · have hstage' := Cycle.stage?_setStage_self c i (.ended outcome) hs
    have hroster := h.roster.setStage hs (by simp) (by simp) hcarries (by simp [hs']) hended
      (by simp) c.permits
    refine (hroster.rest (fun stage hstage => ?_) fun hstage => ?_).carry (.refl _) rfl
      (by rw [hc']) (by rw [hc'])
    · cases hstage'.symm.trans hstage
      exact hended
    · cases hstage'.symm.trans hstage
  · subst hc'
    refine h.course.report hs hcarries ?_ ?_ (by simp) houtstanding
    · simp [hs']
    · rw [Schedule.state_wake, hs']
      exact hslot
  · have hweight := h.thread.weight_act_move hmove
    have hwake := Schedule.weight_wake_le s' (.cycle k) c'
    have hsame : s'.weight c' = (s.act (.move k (.report i))).weight c' := by
      rw [hs']
      exact Schedule.weight_congr rfl rfl c'
    omega
  · have hprefix := Schedule.prefix_ready_wake (s := s') (t := .cycle k)
    have hsame : s'.ready = s.ready := by
      rw [hs']
      exact Schedule.ready_act
    rwa [hsame] at hprefix

/-! ## The whole turn -/

/-- A worker gives the thread back when it has nothing to do. -/
theorem rest (h : OnTime x o k (some i) awake p m s c)
    (hpunctual : ∀ stage, c.stage? i = some stage → x.Punctual k none s i stage)
    (hrecorded : c.stage? i = some .inspecting → ∃ u ∈ s.inspections, u.what.worker = i)
    (hawake : awake → .cycle k ∈ s.ready) : OnTime x o k none (.cycle k ∈ s.ready) p m s c where
  thread := h.thread
  roster := h.roster.rest hpunctual hrecorded
  course := h.course.carry (.refl s) rfl rfl hawake

/-- A worker whose inspection is over goes through with the rest at once. -/
theorem leave (h : OnTime x o k (some i) awake p m s c) {outcome : Outcome}
    (hs : c.stage? i = some (.concluded outcome)) : GivesBack x o k m s c (s.leave k i) := by
  unfold Schedule.leave
  simp only [h.thread.cycle, Option.bind_some]
  cases hq : c.queue with
  | nil =>
    obtain ⟨hreleased, honward⟩ := h.release hs hq
    exact (hreleased.report (Cycle.stage?_setStage_self c i _ hs) rfl).after honward
  | cons next queue =>
    obtain ⟨hreleased, honward⟩ := h.passOn hs hq
    -- The worker that gets the permit is another one.
    have hstage : ((c.setStage i (.released (some outcome))).setStage next .admitted).stage? i
        = some (.released (some outcome)) := by
      have hwaits := Cycle.waiting_of_queue h.thread.permitsKept hq
      have hne : next ≠ i := by
        rintro rfl
        rw [hs] at hwaits
        cases hwaits
      rw [Cycle.stage?_setStage, if_neg hne, Cycle.stage?_setStage_self c i _ hs]
    exact (hreleased.report hstage rfl).after honward

/-- A worker whose inspection is over is done with its container: it
concludes and leaves, all in the same turn. -/
theorem concludes (h : OnTime x o k (some i) awake p m s c) (hs : c.stage? i = some .inspecting)
    (hnow : x.report i = s.now) (w : Worker) (found : Found) :
    GivesBack x o k m s c (s.conclude k i w found) := by
  have hnoted := (h.tally s.requests s.inspected (s.inFlight - 1) s.maxInFlight).note
    (Outcome.ofFound s.majors w.container found).2
  obtain ⟨hconcluded, honward⟩ :=
    hnoted.conclude hs hnow (Outcome.ofFound s.majors w.container found).1
  exact (hconcluded.leave (Cycle.stage?_setStage_self c i _ hs)).after
    ⟨honward.weight, honward.ready⟩

/-- A worker with a permit begins its inspection, and is done with
it at once if this takes no time. Otherwise it gives the thread back
with a timer set. -/
theorem begins (h : OnTime x o k (some i) awake p m s c) (hs : c.stage? i = some .admitted)
    {w : Worker} (hw : (c.workers[i]?).map (·.container) = some w.container)
    (hawake : awake → .cycle k ∈ s.ready) : GivesBack x o k m s c (s.begin k i w) := by
  obtain ⟨v, hv, hcontainer⟩ := Option.map_eq_some_iff.mp hw
  have hreport := h.roster.report_eq hv
  rw [hcontainer, (h.roster.punctual i .admitted hs).1] at hreport
  obtain ⟨hbegun, hweight⟩ := h.begin hs (s.backend.inspect w.container).trace
  have hs' := Cycle.stage?_setStage_self c i .inspecting hs
  have hnow : (s.counted k i (s.backend.inspect w.container).trace).now = s.now := by
    simp [Schedule.counted, Schedule.record]
  have hready : (s.counted k i (s.backend.inspect w.container).trace).ready = s.ready := by
    simp [Schedule.counted, Schedule.record]
  have honward : s.Onward c (s.counted k i (s.backend.inspect w.container).trace)
      (c.setStage i .inspecting) := .of_ready_eq (by omega) hready
  unfold Schedule.begin
  simp only
  split
  · rename_i hdelay
    exact (hbegun.concludes hs' (by omega) w (s.backend.inspect w.container).found).after honward
  · rename_i hdelay
    have hpending := hbegun.pend hs' (by omega) (s.backend.inspect w.container).found
    rw [hnow, ← hreport]
    refine ⟨p, c.setStage i .inspecting, ?_, ?_, honward.ready⟩
    · refine hpending.carry hpending.thread (.refl _) rfl rfl rfl fun hturn => ?_
      exact hready ▸ hawake hturn
    -- The timer is paid for by the beginning.
    · have htimer := Schedule.weight_setTimer (s.counted k i (s.backend.inspect w.container).trace)
        (x.report i) (.worker k i) (c.setStage i .inspecting)
      show ((s.counted k i (s.backend.inspect w.container).trace).setTimer (x.report i)
        (.worker k i)).weight (c.setStage i .inspecting) ≤ s.weight c
      omega

/-- A worker that asks for a permit goes on if it gets one, and gives
the thread back if it has to wait. -/
theorem asks (h : OnTime x o k (some m) awake p m s c) {w : Worker} (hw : c.workers[m]? = some w)
    (hstage : w.stage = .dispatched) (hawake : awake → .cycle k ∈ s.ready) {s' : Schedule}
    (hs' : s' = s.act (.move k (.ask m))) :
    GivesBack x o k (m + 1) s c
      (if (s'.cycle? k).bind (·.stage? m) = some .admitted then s'.begin k m w else s') := by
  have hs : c.stage? m = some .dispatched := Cycle.stage?_eq_some_iff.mpr ⟨w, hw, hstage⟩
  have hready : s'.ready = s.ready := by
    rw [hs']
    exact Schedule.ready_act
  have hawake' (hturn : awake) : .cycle k ∈ s'.ready := hready ▸ hawake hturn
  cases hpermits : c.permits with
  | succ permits =>
    obtain ⟨hgranted, hweight⟩ := h.grant hs hpermits
    rw [← hs'] at hgranted hweight
    have hadmitted := Cycle.stage?_setStage_self c m .admitted hs
    have hcontainer : ((c.setStage m .admitted).workers[m]?).map (·.container)
        = some w.container := by
      rw [← List.getElem?_map, Cycle.containers_setStage, List.getElem?_map, hw]
      rfl
    -- With a permit the worker goes on in the same turn.
    have hgoes : (s'.cycle? k).bind (·.stage? m) = some .admitted := by
      rw [hgranted.thread.cycle]
      exact hadmitted
    rw [if_pos hgoes]
    exact (hgranted.begins hadmitted hcontainer hawake').after
      (.of_ready_eq hweight hready)
  | zero =>
    obtain ⟨hqueued, hweight⟩ := h.enqueue hs hpermits
    rw [← hs'] at hqueued hweight
    have hwaiting := Cycle.stage?_setStage_self c m .waiting hs
    -- Without one it has to wait for its turn.
    have hnot : (s'.cycle? k).bind (·.stage? m) ≠ some .admitted := by
      rw [hqueued.thread.cycle]
      exact fun heq => nomatch hwaiting.symm.trans heq
    rw [if_neg hnot]
    refine ⟨p, _, hqueued.rest (fun stage hstage => ?_) (fun hstage => ?_) hawake',
      .of_ready_eq hweight hready⟩
    · have hearly := hqueued.roster.punctual m stage hstage
      cases hwaiting.symm.trans hstage
      exact hearly
    · cases hwaiting.symm.trans hstage

/-- A worker that looks whether its inspection is over finds that it is
at its time, and not before. -/
theorem isSome_dueInspection (h : OnTime x o k acting awake p m s c)
    (hrecorded : ∃ u ∈ s.inspections, u.what.worker = i) :
    (s.dueInspection? k i).isSome = decide (x.report i ≤ s.now) := by
  unfold Schedule.dueInspection?
  rw [Bool.eq_iff_iff, List.find?_isSome, decide_eq_true_eq]
  simp only [Bool.and_eq_true, decide_eq_true_eq, beq_iff_eq]
  constructor
  · rintro ⟨u, hu, ⟨hdue, -⟩, rfl⟩
    rwa [(h.roster.inspections u hu).2] at hdue
  · intro hdue
    obtain ⟨u, hu, rfl⟩ := hrecorded
    obtain ⟨hcycle, htime⟩ := h.roster.inspections u hu
    exact ⟨u, hu, ⟨by omega, hcycle⟩, rfl⟩

/-- A worker that concludes has no inspection any more, and the
others have theirs. -/
theorem filterInspections (h : OnTime x o k (some i) awake p m s c) :
    OnTime x o k (some i) awake p m { s with
      inspections := s.inspections.filter fun u => !(u.what.cycle == k && u.what.worker == i) }
      c where
  thread := h.thread.congr rfl rfl rfl rfl h.thread.ready
  roster :=
    { delays := h.roster.delays
      punctual := fun j t hj =>
        (h.roster.punctual j t hj).carry ⟨rfl, rfl, fun _ => id, fun _ => id⟩
      ordered := h.roster.ordered
      queue := h.roster.queue
      dispatched := h.roster.dispatched
      inspections := fun u hu => h.roster.inspections u (List.mem_filter.mp hu).1
      recorded := by
        intro j hacting hj
        obtain ⟨u, hu, rfl⟩ := h.roster.recorded j hacting hj
        have hother : u.what.worker ≠ i := by
          rintro rfl
          exact hacting rfl
        exact ⟨u, List.mem_filter.mpr ⟨hu, by simp [hother]⟩, rfl⟩ }
  course := h.course.carry ⟨rfl, rfl, fun _ => id, fun _ => id⟩ rfl rfl id

/-- A worker that has begun before looks whether it is to conclude. If
it is woken too early then its timer is still set. -/
theorem looks (h : OnTime x o k (some i) awake p m s c) (hs : c.stage? i = some .inspecting)
    (hrecorded : ∃ u ∈ s.inspections, u.what.worker = i)
    (hlater : s.now < x.report i → ⟨x.report i, .worker k i⟩ ∈ s.timers)
    (hawake : awake → .cycle k ∈ s.ready) (w : Worker) :
    GivesBack x o k m s c
      (match s.dueInspection? k i with
        | some t =>
          let inspections := s.inspections.filter fun u =>
            !(u.what.cycle == k && u.what.worker == i)
          { s with inspections }.conclude k i w t.what.found
        | none => s) := by
  have hdue := h.isSome_dueInspection hrecorded
  have hnow : s.now ≤ x.report i := by
    rcases h.roster.punctual i _ hs with ⟨hle, -⟩ | ⟨heq, -⟩ | ⟨hlt, -⟩ <;> omega
  -- Its inspection is over at its time, or it has been woken too early.
  cases hfound : s.dueInspection? k i with
  | some t =>
    rw [hfound, Option.isSome_some, eq_comm, decide_eq_true_eq] at hdue
    have hreport : x.report i = s.now := Nat.le_antisymm hdue hnow
    obtain ⟨p', c', hdone, honward⟩ := h.filterInspections.concludes hs hreport w t.what.found
    exact ⟨p', c', hdone, honward.weight, honward.ready⟩
  | none =>
    rw [hfound, Option.isSome_none, eq_comm, decide_eq_false_iff_not] at hdue
    have hreport : s.now < x.report i := by omega
    refine ⟨p, c, h.rest (fun stage hstage => ?_) (fun _ => hrecorded) hawake, Nat.le_refl _,
      List.prefix_refl _⟩
    cases hs.symm.trans hstage
    exact .inr (.inr ⟨hreport, hlater hreport⟩)

/-- A worker takes its turn: it is no longer ready, but it has the thread. -/
theorem take (h : OnTime x o k none awake p m s c) {ready : List Task}
    (hready : s.ready = .worker k i :: ready) :
    OnTime x o k (some i) awake p m { s with ready } c where
  thread := h.thread.congr rfl rfl rfl rfl fun t ht =>
    h.thread.ready t (hready ▸ List.mem_cons_of_mem _ ht)
  roster :=
    { delays := h.roster.delays
      punctual := by
        -- The turn is that of this worker, and others that are ready remain so.
        have hturn (j : Nat) (hj : Task.worker k j ∈ s.ready) :
            some i = some j ∨ Task.worker k j ∈ ready := by
          rw [hready, List.mem_cons, Task.worker.injEq] at hj
          exact hj.imp_left fun heq => congrArg some heq.2.symm
        intro j stage hj
        have hpunctual := h.roster.punctual j stage hj
        cases stage with
        | dispatched | waiting | ended | joined => exact hpunctual
        | admitted => exact ⟨hpunctual.1, hturn j (hpunctual.2.resolve_left nofun)⟩
        | inspecting =>
          rcases hpunctual with hacts | ⟨hnow, hj⟩ | hlater
          · exact absurd hacts.2 nofun
          · rcases hturn j hj with hself | hothers
            · exact .inl ⟨Nat.le_of_eq hnow.symm, hself⟩
            · exact .inr (.inl ⟨hnow, hothers⟩)
          · exact .inr (.inr hlater)
        | concluded | released => exact absurd hpunctual.2 nofun
      ordered := h.roster.ordered
      queue := h.roster.queue
      dispatched := h.roster.dispatched
      inspections := h.roster.inspections
      recorded := fun j _ => h.roster.recorded j nofun }
  course := h.course.setPhase rfl rfl rfl h.course.slot h.course.progress

end OnTime

section

variable {x : Timetable} {o : State} {k i : Nat} {s : Schedule} {c : Cycle} {ready : List Task}

/-- The worker that has the thread while others have not asked yet is
the first of these. Workers are woken in the order of the listing when
they are dispatched, and those in line stay in front. -/
theorem Timetable.InLine.first {m : Nat} (h : x.InLine k m s) (hm : m < x.delays.length)
    (hready : s.ready = .worker k i :: ready) : i = m := by
  unfold InLine at h
  rw [hready, show x.delays.length - m = x.delays.length - (m + 1) + 1 by omega, List.range'_succ,
    List.map_cons, List.cons_prefix_cons] at h
  exact (Task.worker.inj h.1).2.symm

/-- Then the rest is next. -/
theorem Timetable.InLine.tail {m : Nat} {t : Task} (h : x.InLine k m s)
    (hready : s.ready = t :: ready) : x.InLine k (m + 1) { s with ready } := by
  unfold InLine at h ⊢
  by_cases hm : m < x.delays.length
  · rw [hready, show x.delays.length - m = x.delays.length - (m + 1) + 1 by omega, List.range'_succ,
      List.map_cons, List.cons_prefix_cons] at h
    exact h.2
  · rw [Nat.sub_eq_zero_of_le (by omega)]
    exact List.nil_prefix

/-- If all workers have asked then nobody is in line. -/
theorem Timetable.inLine_of_le {m : Nat} (hm : x.delays.length ≤ m) (s : Schedule) :
    x.InLine k m s := by
  unfold InLine
  rw [Nat.sub_eq_zero_of_le hm]
  exact List.nil_prefix

/-- A task that takes its turn is paid for, with the one turn for
which it was ready. -/
theorem Schedule.weight_pop {t : Task} (hready : s.ready = t :: ready) (c : Cycle) :
    ({ s with ready } : Schedule).weight c + 1 = s.weight c := by
  show ready.length + 2 * s.timers.length + 2 * c.toGo + 1 = _
  unfold weight
  rw [hready, List.length_cons]
  omega

/-- In the turn of a worker the cycle keeps to the timetable, and
fewer turns are left afterwards. What the worker does depends on its
stage; the stages in which it has nothing to do are those in which it
waits or has ended. -/
theorem Paused.runWorker (h : Paused x o k s c) (hready : s.ready = .worker k i :: ready) :
    ∃ c', Paused x o k ({ s with ready }.runWorker k i) c' ∧
      ({ s with ready }.runWorker k i).weight c' < s.weight c := by
  obtain ⟨p, m, hontime, hline⟩ := h
  have hacting := hontime.take hready
  have hpaid := Schedule.weight_pop hready c
  have htail := hline.tail hready
  have hpunctual := hontime.roster.punctual i
  have hrecorded := hontime.roster.recorded i nofun
  have hawake (hturn : Task.cycle k ∈ s.ready) : Task.cycle k ∈ ready := by
    rw [hready, List.mem_cons] at hturn
    exact hturn.resolve_left nofun
  -- A worker that has asked already has the thread only after all others have asked.
  have hlast (hasked : c.stage? i ≠ some .dispatched) : x.delays.length ≤ m := by
    refine Nat.le_of_not_lt fun hm => hasked ?_
    rw [hline.first hm hready, hontime.roster.dispatched]
    exact ⟨Nat.le_refl m, hm⟩
  have hfirst (hs : c.stage? i = some .dispatched) : i = m := by
    have hi := (hontime.roster.dispatched i).mp hs
    exact hline.first (by omega) hready
  suffices hgives : (∃ m', x.InLine k m' { s with ready } ∧
      GivesBack x o k m' { s with ready } c ({ s with ready }.runWorker k i)) by
    obtain ⟨m', hline', p', c', hdone, honward⟩ := hgives
    have hweight := honward.weight
    exact ⟨c', ⟨p', m', hdone, hline'.trans honward.ready⟩, by omega⟩
  have hidle (hasked : c.stage? i ≠ some .dispatched)
      (hpunctual : ∀ stage, c.stage? i = some stage → x.Punctual k none { s with ready } i stage) :
      ∃ m', x.InLine k m' { s with ready } ∧
        GivesBack x o k m' { s with ready } c { s with ready } :=
    ⟨m, Timetable.inLine_of_le (hlast hasked) _, p, c, hacting.rest hpunctual hrecorded hawake,
      .of_ready_eq (Nat.le_refl _) rfl⟩
  have hworker : ({ s with ready } : Schedule).worker? k i = c.workers[i]? := by
    unfold Schedule.worker?
    rw [hacting.thread.cycle]
    rfl
  unfold Schedule.runWorker
  rw [hworker]
  cases hw : c.workers[i]? with
  | none =>
    have hnone : c.stage? i = none := by
      unfold Cycle.stage?
      rw [hw]
      rfl
    exact hidle (by simp [hnone]) (by simp [hnone])
  | some w =>
    have hs : c.stage? i = some w.stage := Cycle.stage?_eq_some_iff.mpr ⟨w, hw, rfl⟩
    simp only
    cases hstage : w.stage with
    | dispatched =>
      obtain rfl := hfirst (hstage ▸ hs)
      exact ⟨i + 1, htail, hacting.asks hw hstage hawake rfl⟩
    | admitted =>
      rw [hstage] at hs
      exact ⟨m, Timetable.inLine_of_le (hlast (by simp [hs])) _,
        hacting.begins hs (by simp [hw]) hawake⟩
    | inspecting =>
      rw [hstage] at hs
      refine ⟨m, Timetable.inLine_of_le (hlast (by simp [hs])) _,
        hacting.looks hs (hrecorded hs) (fun hlater => ?_) hawake w⟩
      -- A worker that is not to conclude yet has a timer.
      rcases hpunctual _ hs with hacts | ⟨hnow, -⟩ | ⟨-, htimer⟩
      · exact absurd hacts.2 nofun
      · exact absurd hnow (Nat.ne_of_gt hlater)
      · exact htimer
    | concluded | released =>
      have hacts := hpunctual w.stage hs
      rw [hstage] at hacts
      exact absurd hacts.2 nofun
    | waiting | ended | joined =>
      refine hidle (by simp [hs, hstage]) fun stage hstage' => ?_
      have hearly := hpunctual stage hstage'
      cases hstage'.symm.trans (hs.trans (congrArg some hstage))
      exact hearly

end

end NpuAttribution.Poll
