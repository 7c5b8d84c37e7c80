import NpuAttribution.Proofs.Poll.Clock

/-!
# `NpuAttribution.Proofs.Poll.Dispatch`: the first turn of a cycle

A cycle that is started while all others are over lists the containers in its first turn and
dispatches a worker for each of them. From then on it keeps to the timetable
(`Alone.list`): nobody has asked for a permit, the workers are ready in the order of the
listing, and the time of the collection has begun.
-/

set_option autoImplicit false

namespace NpuAttribution.Poll

/-- A cycle is about to list containers, and will have the thread to
itself:

- `started`: it has just been started;
- `now`: its time begins now;
- `ready`, `inspections`, `endings`, `slot`: there is nothing else to
  do;
- `sorted`, `future`, `timers`: the timers that are left belong to
  cycles that are over;
- `deadlines`: it has no deadline yet. -/
structure Alone (x : Timetable) (o : State) (k : Nat) (s : Schedule) : Prop where
  started : Started o k s { limit := x.limit }
  now : s.now = x.start
  ready : s.ready = []
  inspections : s.inspections = []
  endings : s.endings = []
  slot : s.state.mailbox.slot = .free
  sorted : s.timers.Pairwise fun u v => u.due ≤ v.due
  future : ∀ u ∈ s.timers, s.now ≤ u.due
  timers : ∀ u ∈ s.timers, o.Concerns k u.what
  deadlines : ∀ u ∈ s.deadlines, u.what ≠ k

section

variable {x : Timetable} {o : State} {k : Nat} {s : Schedule} {containers : List ListedContainer}

/-- A cycle dispatches the next worker: the move that the cycle allows
is made by the schedule, and nothing but this cycle changes, in
particular not the mailbox. -/
theorem Started.act_spawn {c c' : Cycle} (h : Started o k s c)
    (hspawn : c.spawn? s.state.tasks = some c') :
    Started o k (s.act (.spawn k)) c' ∧
      (s.act (.spawn k)).state.mailbox.slot = s.state.mailbox.slot := by
  have hc : s.state.cycles[k]? = some c := h.cycle
  have hlt := (List.getElem?_eq_some_iff.mp hc).1
  have hstep : s.state.step? (.spawn k)
      = some { s.state.setCycle k c' with tasks := s.state.tasks + 1 } := by
    simp [State.step?, State.spawn?, hc, hspawn]
  refine ⟨h.act hstep (List.getElem?_set_self hlt)
    fun j hj => List.getElem?_set_ne (Ne.symm hj), ?_⟩
  rw [Schedule.act_of_step? hstep]
  rfl

/-- A cycle has dispatched workers for the first `count` containers.
They are ready in the order of the listing, since every worker is woken
when it is dispatched. By induction on the number of workers, each of
which is one more event of the monitor. -/
theorem Started.dispatch {limit capacity : Nat} (h : Started o k s
      { limit := limit, phase := .dispatching containers, capacity := capacity })
    (hready : s.ready = []) {count : Nat} (hcount : count ≤ containers.length) :
    ∃ state workers, s.dispatch k count
        = { s with state, ready := (List.range count).map (.worker k) } ∧
      Started o k (s.dispatch k count) { limit := limit
                                         phase := .dispatching (containers.drop count)
                                         workers := workers
                                         capacity := capacity } ∧
      state.mailbox.slot = s.state.mailbox.slot ∧
      workers.map (·.container) = containers.take count ∧
      ∀ w ∈ workers, w.stage = .dispatched := by
  induction count with
  | zero =>
    refine ⟨s.state, [], ?_, h, rfl, rfl, nofun⟩
    show s = { s with ready := [] }
    rw [← hready]
  | succ count ih =>
    obtain ⟨state, workers, heq, hstarted, hslot, hworkers, hstages⟩ := ih (by omega)
    have hnext : s.dispatch k (count + 1)
        = ((s.dispatch k count).act (.spawn k)).wake (.worker k count) := by
      unfold Schedule.dispatch
      rw [List.range_succ, List.foldl_append]
      rfl
    have hdrop : containers.drop count = containers[count] :: containers.drop (count + 1) :=
      List.drop_eq_getElem_cons (by omega)
    obtain ⟨hspawned, hslot'⟩ := hstarted.act_spawn (by rw [Cycle.spawn?, hdrop])
    obtain ⟨state', hact⟩ := (s.dispatch k count).exists_act (.spawn k)
    rw [hact] at hspawned hslot'
    rw [hnext, hact]
    refine ⟨state', _, ?_, hspawned.congr Schedule.state_wake, ?_, ?_, ?_⟩
    -- A worker that is dispatched now is not ready yet, so it goes to the end.
    · have hnew : Task.worker k count ∉ (List.range count).map (Task.worker k) := by
        simp
      rw [heq]
      unfold Schedule.wake
      rw [if_neg hnew, List.range_succ, List.map_append]
      rfl
    · refine hslot'.trans ?_
      rw [heq]
      exact hslot
    · rw [List.map_append, hworkers, List.take_succ_eq_append_getElem (by omega)]
      rfl
    · intro w hw
      rcases List.mem_append.mp hw with hold | hnew
      · exact hstages w hold
      · rw [List.mem_singleton.mp hnew]

/-- The schedule of a cycle that has dispatched its workers and
begins to collect. -/
def Schedule.collecting (s : Schedule) (x : Timetable) (k : Nat) (state : State) : Schedule :=
  { s with
    state
    ready := (List.range x.delays.length).map (.worker k)
    timers := Timed.insert ⟨x.deadline, .cycle k⟩ s.timers
    deadlines := s.deadlines ++ [⟨x.deadline, k⟩] }

/-- The cycle has the thread to itself: its own timer and its own
deadline are all that it has added, its workers are all that is ready,
and the timers from before belong to others. -/
theorem Alone.thread (h : Alone x o k s) {state : State} {c : Cycle}
    (hstarted : Started o k (s.collecting x k state) c) :
    Thread x o k (s.collecting x k state) c where
  toStarted := hstarted
  started := Nat.le_of_eq h.now.symm
  sorted := Timed.pairwise_insert h.sorted _
  future u hu := by
    rcases Timed.mem_insert_iff.mp hu with rfl | hold
    · show s.now ≤ x.start + x.limit
      rw [h.now]
      exact Nat.le_add_right _ _
    · exact h.future u hold
  deadline t := by
    -- No deadline was set for this cycle before, so only the new one decides.
    have hnone : (s.deadlines.any fun u => u.what == k && decide (u.due ≤ t)) = false := by
      rw [List.any_eq_false]
      intro u hu
      simp [h.deadlines u hu]
    show ((s.deadlines ++ [(⟨x.deadline, k⟩ : Timed Nat)]).any
      fun u => u.what == k && decide (u.due ≤ t)) = _
    rw [List.any_append, hnone]
    simp
  ready u hu := by
    obtain ⟨i, -, rfl⟩ := List.mem_map.mp hu
    rfl
  timers u hu := by
    rcases Timed.mem_insert_iff.mp hu with rfl | hold
    · exact .inl rfl
    · exact h.timers u hold

/-- When the collection begins, no worker has asked for a permit. So
nobody waits in the queue, no inspection is running, and every worker
is in front of its turn: this is the roster with nobody admitted and
nobody to be admitted. -/
theorem Alone.roster (h : Alone x o k s) {state : State} {c : Cycle}
    (hdelays : c.workers.map (fun w => (s.backend.inspect w.container).delay) = x.delays)
    (hstages : ∀ w ∈ c.workers, w.stage = .dispatched) (hqueue : c.queue = []) :
    Roster x k none 0 0 (s.collecting x k state) c := by
  have hlength : c.workers.length = x.delays.length := by rw [← hdelays, List.length_map]
  -- All of what follows is about workers in other stages, and there are none.
  have hstage (i : Nat) (stage : Stage) (hi : c.stage? i = some stage) : stage = .dispatched := by
    obtain ⟨w, hw, rfl⟩ := Cycle.stage?_eq_some_iff.mp hi
    exact hstages w (List.mem_of_getElem? hw)
  constructor
  case delays => exact hdelays
  case punctual =>
    intro i stage hi
    obtain rfl := hstage i stage hi
    show s.now ≤ x.admitted i
    rw [h.now]
    exact x.start_le_admitted i
  case ordered => exact ⟨Nat.le_refl 0, Nat.zero_le _⟩
  case queue => exact hqueue
  case dispatched =>
    intro i
    constructor
    · intro hi
      obtain ⟨w, hw, -⟩ := Cycle.stage?_eq_some_iff.mp hi
      rw [← hlength]
      exact ⟨Nat.zero_le i, (List.getElem?_eq_some_iff.mp hw).1⟩
    · rintro ⟨-, hi⟩
      rw [← hlength] at hi
      exact Cycle.stage?_eq_some_iff.mpr
        ⟨_, List.getElem?_eq_getElem hi, hstages _ (List.getElem_mem hi)⟩
  case inspections =>
    intro u hu
    have hu : u ∈ s.inspections := hu
    rw [h.inspections] at hu
    cases hu
  case recorded =>
    intro i _ hi
    cases hstage i _ hi

/-- The collection has begun, and nothing has been received. If the time
limit is zero, then the collection is over at once, with all workers
late; otherwise its timer is set. -/
theorem Alone.course (h : Alone x o k s) {state : State} {c : Cycle}
    (hlength : c.workers.length = x.delays.length)
    (hstages : ∀ w ∈ c.workers, w.stage = .dispatched) (hlimit : c.limit = x.limit)
    (hreports : c.reports = []) (hphase : c.phase = .collecting c.workers.length .empty)
    (hslot : state.mailbox.slot = .free) : Course x k True (s.collecting x k state) c := by
  constructor
  case limit => exact hlimit
  case slot => exact fun _ => hslot
  case endings =>
    intro e
    show e ∈ s.endings ↔ _
    rw [h.endings]
    refine ⟨nofun, ?_⟩
    rintro ⟨-, outcome, he⟩
    obtain ⟨w, hw, hended⟩ := Cycle.stage?_eq_some_iff.mp he
    rw [hstages w (List.mem_of_getElem? hw)] at hended
    cases hended
  case nodup =>
    show s.endings.Nodup
    rw [h.endings]
    exact .nil
  case progress =>
    have hnow : (s.collecting x k state).now = x.start := h.now
    rw [hphase]
    -- With no time the deadline is now, and otherwise it is still to come.
    by_cases hzero : x.limit = 0
    · -- Nobody has reported, and everybody is late.
      refine .inr ⟨?_, trivial, ?_⟩
      · rw [hnow, Timetable.deadline, hzero, Nat.add_zero]
      · have hguards : c.guards = c.workers.length := by
          refine List.countP_eq_length.mpr fun w hw => ?_
          rw [hstages w hw]
          rfl
        unfold Cycle.outstanding
        rw [x.late_of_limit_eq_zero hzero, hreports, hguards, hlength]
        exact Nat.zero_add _
    · refine .inl ⟨?_, Timed.mem_insert_iff.mpr (.inl rfl), fun _ => trivial⟩
      rw [hnow]
      unfold Timetable.deadline
      omega

/-- So many turns are enough for all that is left to do: each of the
workers has seven steps to go, one turn for being ready and a message to
be received, and every timer fires once. -/
theorem Alone.weight_le {state : State} {c : Cycle}
    (hlength : c.workers.length = x.delays.length)
    (hstages : ∀ w ∈ c.workers, w.stage = .dispatched)
    (hphase : c.phase = .collecting c.workers.length .empty) :
    (s.collecting x k state).weight c = 17 * x.delays.length + 2 * s.timers.length + 6 := by
  have htotal : c.total Stage.toGo = 7 * c.workers.length := by
    have hall : c.workers.map (fun w => w.stage.toGo) = List.replicate c.workers.length 7 := by
      refine List.eq_replicate_iff.mpr ⟨List.length_map .., fun n hn => ?_⟩
      obtain ⟨w, hw, rfl⟩ := List.mem_map.mp hn
      rw [hstages w hw]
      rfl
    unfold Cycle.total
    rw [hall, List.sum_replicate, Nat.nsmul_eq_mul, Nat.mul_comm]
  have htoGo : c.toGo = 8 * x.delays.length + 2 := by
    unfold Cycle.toGo
    rw [htotal, hphase, hlength]
    simp only [Phase.toGo]
    omega
  show ((List.range x.delays.length).map (Task.worker k)).length
    + 2 * (Timed.insert ⟨x.deadline, .cycle k⟩ s.timers).length + 2 * c.toGo = _
  rw [List.length_map, List.length_range, Timed.length_insert, htoGo]
  omega

/-- Recording what the listing has asked and said does not start
anything, so the cycle still has the thread to itself. -/
theorem Alone.record (h : Alone x o k s) (trace : Trace) : Alone x o k (s.record trace) where
  started := by
    have hasked : Started o k { s with requests := s.requests ++ trace.requests }
        { limit := x.limit } := h.started.congr rfl
    exact hasked.act_note trace.lines
  now := h.now
  ready := h.ready
  inspections := h.inspections
  endings := h.endings
  slot := h.slot
  sorted := h.sorted
  future := h.future
  timers := h.timers
  deadlines := h.deadlines

/-- A cycle that collects from workers none of which has asked for a permit. -/
def Cycle.gathering (limit : Nat) (workers : List Worker) : Cycle where
  limit := limit
  phase := .collecting workers.length .empty
  workers := workers
  capacity := workers.length

/-- A cycle lists containers and dispatches a worker for each of them
in one turn. The schedule afterwards is known completely: what has
changed is the state, what is ready, and that there is a deadline. The
turn is a listing, one dispatch for each container, and the beginning
of the collection. -/
theorem Alone.list_eq (h : Alone x o k s) {trace : Trace}
    (hlisting : s.backend.listing = (.ok containers, trace))
    (hinspect : Cycle.Inspectable containers) (hcount : x.delays.length = containers.length) :
    ∃ state workers, s.list k = (s.record trace).collecting x k state ∧
      Started o k (s.list k) (.gathering x.limit workers) ∧
      state.mailbox.slot = .free ∧
      workers.map (·.container) = containers ∧
      ∀ w ∈ workers, w.stage = .dispatched := by
  -- The requests of the listing are recorded first, and do not matter from here on.
  have hrecorded := h.record trace
  obtain ⟨s₁, hs₁⟩ : ∃ s₁, s₁ = s.record trace := ⟨_, rfl⟩
  rw [← hs₁] at hrecorded ⊢
  have hlisted : ({ limit := x.limit } : Cycle).move? (.listed (.ok containers)) = some
      ({ limit := x.limit, phase := .dispatching containers, capacity := containers.length },
        {}) := by
    have hmax : ¬Listing.maxContainers < containers.length := Nat.not_lt.mpr hinspect.2
    simp [Cycle.move?, Cycle.listed?, hinspect.1, hmax]
  obtain ⟨hstarted₂, hslot₂⟩ := hrecorded.started.act_move hlisted
  obtain ⟨state₂, hact₂⟩ := s₁.exists_act (.move k (.listed (.ok containers)))
  obtain ⟨state₃, workers, hact₃, hstarted₃, hslot₃, hworkers, hstages⟩ :=
    hstarted₂.dispatch (by rw [Schedule.ready_act]; exact hrecorded.ready)
      (Nat.le_refl containers.length)
  rw [List.drop_length] at hstarted₃
  rw [List.take_length] at hworkers
  have hcapacity : workers.length = containers.length := by
    rw [← hworkers, List.length_map]
  have hcollect : ({ limit := x.limit
                     phase := .dispatching []
                     workers := workers
                     capacity := containers.length } : Cycle).move? .collect
      = some (.gathering x.limit workers, {}) := by
    rw [← hcapacity]
    rfl
  obtain ⟨hstarted₄, hslot₄⟩ := hstarted₃.act_move hcollect
  obtain ⟨state₄, hact₄⟩ := Schedule.exists_act
    ((s₁.act (.move k (.listed (.ok containers)))).dispatch k containers.length) (.move k .collect)
  -- The turn is put together from the events before, in the order in which it makes
  -- them.
  have hlist : s.list k = s₁.collecting x k state₄ := by
    have hphase : (s₁.act (.move k (.listed (.ok containers)))).phase? k
        = some (.dispatching containers) := by
      unfold Schedule.phase?
      rw [hstarted₂.cycle]
      rfl
    have hdue : s₁.now + (Cycle.gathering x.limit workers).limit = x.deadline := by
      rw [hrecorded.now]
      rfl
    unfold Schedule.list
    rw [hlisting]
    simp only [← hs₁, hphase, hstarted₄.cycle]
    rw [hact₄, hact₃, hact₂]
    unfold Schedule.collecting Schedule.setTimer
    rw [hcount]
    simp only [hdue]
  refine ⟨state₄, workers, hlist, hstarted₄.congr ?_, ?_, hworkers, hstages⟩
  · rw [hlist, hact₄]
    rfl
  · rw [hact₄] at hslot₄
    refine hslot₄.trans ?_
    rw [hact₃]
    exact hslot₃.trans (hslot₂.trans hrecorded.slot)

/-- In its first turn a cycle that has something to inspect begins to
keep to the timetable. This is the start of the induction over the turns
of the schedule: nobody is admitted, all workers are in line, and the
number of turns that are left is known. -/
theorem Alone.list (h : Alone x o k s) {trace : Trace}
    (hlisting : s.backend.listing = (.ok containers, trace))
    (hinspect : Cycle.Inspectable containers)
    (hdelays : x.delays = containers.map fun ct => (s.backend.inspect ct).delay) :
    ∃ c, OnTime x o k none True 0 0 (s.list k) c ∧ x.InLine k 0 (s.list k) ∧
      (s.list k).weight c = 17 * x.delays.length + 2 * s.timers.length + 6 := by
  have hrecorded := h.record trace
  have hcount : x.delays.length = containers.length := by rw [hdelays, List.length_map]
  obtain ⟨state, workers, hlist, hstarted, hslot, hworkers, hstages⟩ :=
    h.list_eq hlisting hinspect hcount
  have hlength : workers.length = x.delays.length := by
    rw [hcount, ← hworkers, List.length_map]
  have hinspected : workers.map (fun w => (s.backend.inspect w.container).delay) = x.delays := by
    rw [hdelays, ← hworkers, List.map_map]
    rfl
  rw [hlist] at hstarted ⊢
  refine ⟨_, ⟨hrecorded.thread hstarted, ?_, ?_⟩, ?_, ?_⟩
  · exact hrecorded.roster hinspected hstages rfl
  · exact hrecorded.course hlength hstages rfl rfl rfl hslot
  · show (List.range' 0 (x.delays.length - 0)).map (Task.worker k)
      <+: (List.range x.delays.length).map (Task.worker k)
    simp [List.range_eq_range']
  · exact Alone.weight_le hlength hstages rfl

end

end NpuAttribution.Poll
