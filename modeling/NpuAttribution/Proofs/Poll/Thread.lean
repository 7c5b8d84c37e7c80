import NpuAttribution.Poll.Schedule.Owner
import NpuAttribution.Proofs.Poll.Progress
import NpuAttribution.Proofs.Poll.Schedules
import NpuAttribution.Proofs.Poll.Timetable
import NpuAttribution.Proofs.Poll.Traffic

/-!
# `NpuAttribution.Proofs.Poll.Thread`: one cycle on the thread

A cycle is started when all others are over, and then has the thread to itself. `Thread`
says what this means for the clock, the timers and the tasks that are ready, and that the
cycle is where some run of the monitor leads. Everything that is known of runs is then known
of the cycle: its permits are in order, and its reports add up.

What the collector has not seen yet is counted by `outstanding`. Only the collector itself
makes this less (`outstanding_step`), so it says at any later time how far the collection
had got.
-/

set_option autoImplicit false

namespace NpuAttribution.Poll

namespace Cycle

/-! ## Counting workers -/

/-- Workers are counted by their numbers, which is how their stages are known. -/
theorem countP_workers (c : Cycle) (p : Stage → Bool) :
    (c.workers.countP fun w => p w.stage)
      = (List.range c.workers.length).countP fun i => (c.stage? i).any p := by
  rw [← length_filter_range (fun w : Worker => p w.stage) c.workers, List.countP_eq_length_filter]
  congr 2
  funext i
  unfold stage?
  cases c.workers[i]? <;> rfl

/-- The permits that are held are counted by their holders, as nobody
holds more than one. -/
theorem total_permits (c : Cycle) :
    c.total Stage.permits
      = (List.range c.workers.length).countP fun i => (c.stage? i).any fun s => 0 < s.permits := by
  rw [← countP_workers]
  unfold total
  induction c.workers with
  | nil => rfl
  | cons w ws ih =>
    rw [List.map_cons, List.sum_cons, List.countP_cons, ih]
    cases w.stage <;> simp [Stage.permits, Nat.add_comm]

/-- If all of some workers hold permits, then there are not more of them
than permits that are held. -/
theorem countP_le_total {c : Cycle} {p : Nat} (hp : p ≤ c.workers.length) {f : Nat → Bool}
    (h : ∀ j < p, f j = true → ∃ s, c.stage? j = some s ∧ 0 < s.permits) :
    (List.range p).countP f ≤ c.total Stage.permits := by
  have hheld : (List.range p).countP f
      ≤ (List.range p).countP fun i => (c.stage? i).any fun s => 0 < s.permits := by
    refine List.countP_mono_left fun j hj hf => ?_
    obtain ⟨s, hs, hpos⟩ := h j (List.mem_range.mp hj) hf
    rw [hs]
    exact decide_eq_true hpos
  have hall := (List.range_sublist.mpr hp).countP_le
    (p := fun i => (c.stage? i).any fun s => decide (0 < s.permits))
  rw [total_permits]
  omega

/-- If all holders of permits are among some workers, then there are not
less of them than permits that are held. -/
theorem total_le_countP {c : Cycle} {i : Nat} {f : Nat → Bool}
    (h : ∀ j s, c.stage? j = some s → 0 < s.permits → j < i ∧ f j = true) :
    c.total Stage.permits ≤ (List.range i).countP f := by
  rw [total_permits, List.countP_eq_length_filter, List.countP_eq_length_filter]
  refine (List.subperm_of_subset (List.nodup_range.filter _) fun j hj => ?_).length_le
  rw [List.mem_filter, Option.any_eq_true] at hj
  obtain ⟨-, s, hs, hpos⟩ := hj
  obtain ⟨hji, hf⟩ := h j s hs (of_decide_eq_true hpos)
  exact List.mem_filter.mpr ⟨List.mem_range.mpr hji, hf⟩

/-- A worker that gets on without reporting is still one that has not reported. -/
theorem guards_setStage {c : Cycle} {i : Nat} {s s' : Stage} (hs : c.stage? i = some s)
    (h : s'.hasReported = s.hasReported) : (c.setStage i s').guards = c.guards := by
  unfold guards
  rw [countP_workers _ fun s => !s.hasReported, countP_workers _ fun s => !s.hasReported,
    length_workers_setStage]
  refine List.countP_congr fun j _ => ?_
  rw [stage?_setStage]
  split
  · rename_i hij
    subst hij
    simp [hs, h]
  · rfl

/-! ## What is outstanding -/

/-- The reports that the collector has not seen yet. -/
def outstanding (c : Cycle) : Nat := c.reports.length + c.guards

section

variable {limit : Nat} {steps : List Step} {c c' : Cycle} {x : Step}

/-- After the dispatch there is a worker for each report that there is
room for. -/
theorem length_workers_eq_capacity (hrun : Cycle.run? { limit := limit } steps = some c)
    (hw : c.workers ≠ []) (hleft : c.phase.left = []) : c.workers.length = c.capacity := by
  rcases dispatched_or_idle hrun with ⟨containers, -, -, hc⟩ | ⟨hnone, -, -⟩
  · rw [hc.length_workers hleft, hc.capacity]
  · exact absurd hnone hw

/-- A report is received or outstanding: what was sent is received or on
the channel, and what was not sent is still with its worker. -/
theorem outstanding_add (hrun : Cycle.run? { limit := limit } steps = some c)
    (hw : c.workers.length = c.capacity) :
    c.outstanding + (along step? received { limit := limit } steps).length = c.capacity := by
  have hqueued := congrArg List.length (ledger hrun).queued
  have hsent := length_sent hrun
  have hall := reporters_add_guards c
  rw [List.length_append] at hqueued
  unfold outstanding
  omega

/-- What is outstanding remains so until it is received. The two
states have as much outstanding as reports were not received, and in
between none is. -/
theorem outstanding_step (hrun : Cycle.run? { limit := limit } steps = some c)
    (hx : c.step? x = some c') (hw : c.workers.length = c.capacity)
    (hw' : c'.workers.length = c'.capacity) (hcapacity : c'.capacity = c.capacity)
    (hreceived : received c x = []) : c'.outstanding = c.outstanding := by
  have hnext : Cycle.run? { limit := limit } (steps ++ [x]) = some c' := by
    unfold Cycle.run? at hrun ⊢
    rw [follow_append_singleton, hrun]
    exact hx
  have hbefore := outstanding_add hrun hw
  have hafter := outstanding_add hnext hw'
  rw [along_append_singleton _ hrun, hreceived, List.append_nil] at hafter
  omega

end

end Cycle

namespace State

/-- A task has to do with a cycle, or with one that is over. -/
def Concerns (o : State) (k : Nat) : Task → Prop
  | .cycle j => j = k ∨ ∃ c, o.cycles[j]? = some c ∧ c.phase = .done
  | .worker j _ => j = k

end State

/-- A cycle that is started in a run of the monitor:

- `new`, `reached`: it is started in the run, and this is where the
  run leads;
- `cycle`, `others`: it is the given one, and nothing has happened
  to other cycles. -/
structure Started (o : State) (k : Nat) (s : Schedule) (c : Cycle) : Prop where
  new : o.cycles.length ≤ k
  reached : ∃ es, o.run? es = some s.state
  cycle : s.cycle? k = some c
  others : ∀ j, j ≠ k → s.cycle? j = o.cycles[j]?

/-- A cycle that has the thread to itself:

- `started`: time has not gone back since it began to collect;
- `sorted`, `future`: timers are in order, and none of them has been
  missed;
- `deadline`: its time is over at the deadline;
- `ready`, `timers`: no task is ready or will be that could do
  anything else. -/
structure Thread (x : Timetable) (o : State) (k : Nat) (s : Schedule) (c : Cycle) : Prop
    extends Started o k s c where
  started : x.start ≤ s.now
  sorted : s.timers.Pairwise fun u v => u.due ≤ v.due
  future : ∀ u ∈ s.timers, s.now ≤ u.due
  deadline : ∀ t, (s.deadlines.any fun u => u.what == k && u.due ≤ t) = decide (x.deadline ≤ t)
  ready : ∀ t ∈ s.ready, o.Concerns k t
  timers : ∀ u ∈ s.timers, o.Concerns k u.what

/-! ## Timers -/

namespace Timed

variable {α : Type} {t u : Timed α} {l : List (Timed α)}

/-- A list of timed things with one more has that one and those that it had. -/
theorem mem_insert_iff : u ∈ insert t l ↔ u = t ∨ u ∈ l := by
  induction l with
  | nil => simp [insert]
  | cons v l ih =>
    unfold insert
    split
    · exact List.mem_cons
    · rw [List.mem_cons, ih, List.mem_cons]
      exact or_left_comm

/-- It has one more. -/
@[simp] theorem length_insert : (insert t l).length = l.length + 1 := by
  induction l with
  | nil => rfl
  | cons v l ih =>
    unfold insert
    split
    · rfl
    · rw [List.length_cons, ih, List.length_cons]

/-- Timers remain in order when one is set: it is put in front of those
that are due later. -/
theorem pairwise_insert (h : l.Pairwise fun u v => u.due ≤ v.due) (t : Timed α) :
    (insert t l).Pairwise fun u v => u.due ≤ v.due := by
  induction l with
  | nil => exact List.pairwise_singleton _ _
  | cons v l ih =>
    obtain ⟨hv, hl⟩ := List.pairwise_cons.mp h
    unfold insert
    split
    · rename_i htv
      refine List.pairwise_cons.mpr ⟨fun u hu => ?_, h⟩
      rcases List.mem_cons.mp hu with rfl | hold
      · omega
      · have hle := hv u hold
        omega
    · rename_i htv
      refine List.pairwise_cons.mpr ⟨fun u hu => ?_, ih hl⟩
      rcases mem_insert_iff.mp hu with rfl | hold
      · omega
      · exact hv u hold

end Timed

/-! ## What a schedule does -/

namespace Schedule

/-- A move of a cycle that is possible happens, and only the state of
the monitor changes by it. The slot is not concerned, as a cycle does
not hand over its snapshot in a move. -/
theorem act_move {s : Schedule} {k : Nat} {c c' : Cycle} {m : Move} {effect : Effect}
    (hc : s.cycle? k = some c) (hm : c.move? m = some (c', effect)) :
    ∃ state, s.state.step? (.move k m) = some state ∧ s.act (.move k m) = { s with state } ∧
      state.cycles = s.state.cycles.set k c' ∧
      state.mailbox.slot = s.state.mailbox.slot := by
  have hc : s.state.cycles[k]? = some c := hc
  have hstep : s.state.step? (.move k m) = some ((s.state.setCycle k c').suffer effect) := by
    simp [State.step?, State.move?, hc, hm]
  refine ⟨_, hstep, act_of_step? hstep, ?_, ?_⟩
  · exact State.cycles_suffer _ _
  · exact (State.slot_suffer _ _).1

/-- A move of a cycle that is not possible does not happen, and
nothing else does. -/
theorem act_move_of_none {s : Schedule} {k : Nat} {c : Cycle} {m : Move}
    (hc : s.cycle? k = some c) (hm : c.move? m = none) : s.act (.move k m) = s := by
  have hc : s.state.cycles[k]? = some c := hc
  have hnone : s.state.step? (.move k m) = none := by
    simp [State.step?, State.move?, hc, hm]
  unfold Schedule.act
  rw [hnone]

/-- A cycle that offers its snapshot delivers it if the slot is free. -/
theorem step?_deliver {s : Schedule} {k : Nat} {c : Cycle} {snapshot : Snapshot}
    (hc : s.cycle? k = some c) (hp : c.phase = .delivering snapshot)
    (hslot : s.state.mailbox.slot = .free) :
    s.state.step? (.deliver k) = some { s.state.setCycle k { c with phase := .joining } with
      mailbox := { s.state.mailbox with slot := .full snapshot } } := by
  have hc : s.state.cycles[k]? = some c := hc
  simp [State.step?, State.deliver?, hc, Cycle.handOver?, hp, Mailbox.offer, Mailbox.hasRoomFor,
    hslot]

section

variable {s : Schedule} {e : Event}

/-- Only the state of the monitor changes by an event. -/
theorem exists_act (s : Schedule) (e : Event) : ∃ state, s.act e = { s with state } := by
  unfold Schedule.act
  split
  · exact ⟨_, rfl⟩
  · exact ⟨s.state, rfl⟩

-- An event leaves alone all of a schedule that is not the state of the monitor.
@[simp] theorem now_act : (s.act e).now = s.now := by
  unfold Schedule.act
  split <;> rfl

@[simp] theorem ready_act : (s.act e).ready = s.ready := by
  unfold Schedule.act
  split <;> rfl

@[simp] theorem timers_act : (s.act e).timers = s.timers := by
  unfold Schedule.act
  split <;> rfl

@[simp] theorem deadlines_act : (s.act e).deadlines = s.deadlines := by
  unfold Schedule.act
  split <;> rfl

@[simp] theorem endings_act : (s.act e).endings = s.endings := by
  unfold Schedule.act
  split <;> rfl

@[simp] theorem inspections_act : (s.act e).inspections = s.inspections := by
  unfold Schedule.act
  split <;> rfl

@[simp] theorem backend_act : (s.act e).backend = s.backend := by
  unfold Schedule.act
  split <;> rfl

@[simp] theorem handles_act : (s.act e).handles = s.handles := by
  unfold Schedule.act
  split <;> rfl

end

section

variable {s : Schedule} {t u : Task}

/-- Those that are ready after a task has been woken. -/
@[simp] theorem mem_ready_wake : u ∈ (s.wake t).ready ↔ u = t ∨ u ∈ s.ready := by
  unfold wake
  split
  · rename_i ht
    constructor
    · exact .inr
    · rintro (rfl | hu)
      · exact ht
      · exact hu
  · simp [or_comm]

-- Waking a task changes who is ready and nothing else.
@[simp] theorem state_wake : (s.wake t).state = s.state := by
  unfold wake
  split <;> rfl

@[simp] theorem now_wake : (s.wake t).now = s.now := by
  unfold wake
  split <;> rfl

@[simp] theorem timers_wake : (s.wake t).timers = s.timers := by
  unfold wake
  split <;> rfl

@[simp] theorem deadlines_wake : (s.wake t).deadlines = s.deadlines := by
  unfold wake
  split <;> rfl

@[simp] theorem inspections_wake : (s.wake t).inspections = s.inspections := by
  unfold wake
  split <;> rfl

@[simp] theorem endings_wake : (s.wake t).endings = s.endings := by
  unfold wake
  split <;> rfl

@[simp] theorem backend_wake : (s.wake t).backend = s.backend := by
  unfold wake
  split <;> rfl

@[simp] theorem handles_wake : (s.wake t).handles = s.handles := by
  unfold wake
  split <;> rfl

/-- At most one task more is ready, and none if it was ready before. -/
theorem length_ready_wake_le : (s.wake t).ready.length ≤ s.ready.length + 1 := by
  unfold wake
  split
  · exact Nat.le_succ _
  · simp

/-- Whoever is ready remains in front, as a task is woken at the end. -/
theorem prefix_ready_wake : s.ready <+: (s.wake t).ready := by
  unfold wake
  split
  · exact List.prefix_refl _
  · exact List.prefix_append _ _

end

end Schedule

namespace Started

variable {o : State} {k : Nat} {s s' : Schedule} {c c' : Cycle}

/-- The cycle is where its own steps lead, so whatever is proved of
these holds of it. -/
theorem run (h : Started o k s c) :
    ∃ limit steps, Cycle.run? { limit := limit } steps = some c := by
  obtain ⟨es, hes⟩ := h.reached
  obtain ⟨limit, hrun, -⟩ := State.run?_stepsOf hes h.new h.cycle
  exact ⟨limit, o.stepsOf k es, hrun⟩

/-- Only the state of the monitor counts. -/
theorem congr (h : Started o k s c) (hstate : s'.state = s.state) : Started o k s' c where
  new := h.new
  reached := by
    rw [hstate]
    exact h.reached
  cycle := by
    unfold Schedule.cycle?
    rw [hstate]
    exact h.cycle
  others j hj := by
    unfold Schedule.cycle?
    rw [hstate]
    exact h.others j hj

/-- An event that happens to the cycle, or to nothing, leads on from
where the run has led so far. -/
theorem act (h : Started o k s c) {e : Event} {t : State} (hstep : s.state.step? e = some t)
    (hcycle : t.cycles[k]? = some c') (hothers : ∀ j, j ≠ k → t.cycles[j]? = s.state.cycles[j]?) :
    Started o k (s.act e) c' := by
  rw [Schedule.act_of_step? hstep]
  refine ⟨h.new, ?_, hcycle, fun j hj => (hothers j hj).trans (h.others j hj)⟩
  obtain ⟨es, hes⟩ := h.reached
  refine ⟨es ++ [e], ?_⟩
  unfold State.run? at hes ⊢
  rw [follow_append_singleton, hes]
  exact hstep

/-- The cycle makes a move, and nothing happens but that: other cycles
and the slot are as before. -/
theorem act_move (h : Started o k s c) {m : Move} {effect : Effect}
    (hm : c.move? m = some (c', effect)) :
    Started o k (s.act (.move k m)) c' ∧
      (s.act (.move k m)).state.mailbox.slot = s.state.mailbox.slot := by
  obtain ⟨state, hstep, hact, hcycles, hslot⟩ := Schedule.act_move h.cycle hm
  have hc : s.state.cycles[k]? = some c := h.cycle
  have hlt := (List.getElem?_eq_some_iff.mp hc).1
  refine ⟨h.act hstep ?_ fun j hj => ?_, ?_⟩
  · rw [hcycles]
    exact List.getElem?_set_self hlt
  · rw [hcycles]
    exact List.getElem?_set_ne (Ne.symm hj)
  · rw [hact]
    exact hslot

/-- Something is told to the journal, and the cycle is as before. -/
theorem act_note (h : Started o k s c) (lines : List Line) :
    Started o k (s.act (.note lines)) c :=
  h.act (e := .note lines) rfl h.cycle fun _ _ => rfl

end Started

namespace Thread

variable {x : Timetable} {o : State} {k : Nat} {s s' : Schedule} {c c' : Cycle}

/-- Its permits are in order, as they are in every run. -/
theorem permitsKept (h : Thread x o k s c) : c.PermitsKept := by
  obtain ⟨limit, steps, hrun⟩ := h.run
  exact Cycle.permitsKept hrun

/-- Only the clock, the tasks and the state of a schedule count. What it
has recorded does not. -/
theorem congr (h : Thread x o k s c) (hstate : s'.state = s.state) (hnow : s'.now = s.now)
    (htimers : s'.timers = s.timers) (hdeadlines : s'.deadlines = s.deadlines)
    (hready : ∀ t ∈ s'.ready, o.Concerns k t) : Thread x o k s' c where
  toStarted := h.toStarted.congr hstate
  started := hnow ▸ h.started
  sorted := htimers ▸ h.sorted
  future := by
    rw [htimers, hnow]
    exact h.future
  deadline := hdeadlines ▸ h.deadline
  ready := hready
  timers := htimers ▸ h.timers

/-- A task that has to do with the cycle is woken, and the cycle still
has the thread to itself. -/
theorem wake (h : Thread x o k s c) {t : Task} (ht : o.Concerns k t) :
    Thread x o k (s.wake t) c := by
  refine h.congr (by simp) (by simp) (by simp) (by simp) fun u hu => ?_
  rcases Schedule.mem_ready_wake.mp hu with rfl | hold
  · exact ht
  · exact h.ready u hold

/-- An event happens, and the cycle goes on from where it leads. -/
theorem act (h : Thread x o k s c) {e : Event} (hstarted : Started o k (s.act e) c') :
    Thread x o k (s.act e) c' where
  toStarted := hstarted
  started := by
    rw [Schedule.now_act]
    exact h.started
  sorted := by
    rw [Schedule.timers_act]
    exact h.sorted
  future := by
    rw [Schedule.timers_act, Schedule.now_act]
    exact h.future
  deadline := by
    rw [Schedule.deadlines_act]
    exact h.deadline
  ready := by
    rw [Schedule.ready_act]
    exact h.ready
  timers := by
    rw [Schedule.timers_act]
    exact h.timers

/-- The cycle makes a move, and nothing happens but that. -/
theorem act_move (h : Thread x o k s c) {m : Move} {effect : Effect}
    (hm : c.move? m = some (c', effect)) :
    Thread x o k (s.act (.move k m)) c' ∧
      (s.act (.move k m)).state.mailbox.slot = s.state.mailbox.slot := by
  obtain ⟨hstarted, hslot⟩ := h.toStarted.act_move hm
  exact ⟨h.act hstarted, hslot⟩

/-- A task that has to do with the cycle is to be woken later, and
not in the past. -/
theorem setTimer (h : Thread x o k s c) {due : Nat} (hdue : s.now ≤ due) {t : Task}
    (ht : o.Concerns k t) : Thread x o k (s.setTimer due t) c where
  toStarted := h.toStarted.congr rfl
  started := h.started
  sorted := Timed.pairwise_insert h.sorted _
  future u hu := by
    rcases Timed.mem_insert_iff.mp hu with rfl | hold
    · exact hdue
    · exact h.future u hold
  deadline := h.deadline
  ready := h.ready
  timers u hu := by
    rcases Timed.mem_insert_iff.mp hu with rfl | hold
    · exact ht
    · exact h.timers u hold

/-- Something is told to the journal. -/
theorem act_note (h : Thread x o k s c) (lines : List Line) :
    Thread x o k (s.act (.note lines)) c :=
  h.act (h.toStarted.act_note lines)

/-- Every move brings the cycle nearer to its end. -/
theorem toGo_lt (h : Thread x o k s c) {m : Move} {effect : Effect}
    (hm : c.move? m = some (c', effect)) : c'.toGo < c.toGo :=
  Cycle.toGo_lt h.permitsKept (Cycle.leads_of_move? hm)

/-- Time is over from the deadline on. -/
theorem isOverdue_eq (h : Thread x o k s c) :
    s.isOverdue k = decide (x.deadline ≤ s.now) :=
  h.deadline s.now

end Thread

end NpuAttribution.Poll
