import NpuAttribution.Proofs.Poll.Progress
import NpuAttribution.Proofs.Poll.Snapshots

/-!
# `NpuAttribution.Proofs.Poll.Endings`: how a poll cycle ends

`cycle_ends` is about one cycle in a run of the monitor with any number of other cycles, in
which the owner may receive snapshots and errors at any time. The containers that the cycle
lists are given, and so is what each of the inspections comes to. Nothing is assumed about
the order of events, about the time limit, or about what was in the mailbox before.

Such a cycle makes a bounded number of steps and gets stuck at most when it waits for room
for its snapshot. It ends in exactly one of two ways. Either it is `Completed`: one snapshot
is delivered, with the assignments of all workers that have one. Or it is `TimedOut`: no
snapshot is delivered, and it is reported once how many reports had not come. Two cycles
with the same containers and inspections deliver the same snapshot if they complete, as long
as no id is listed twice.

The hypotheses are collected in `CycleRun`. They hold of every cycle that is started in a
run and finds something to inspect; the outcomes only give names to what the run says.
-/

set_option autoImplicit false

namespace NpuAttribution.Poll

/-- Cycle `k` of a run from `s` to `t` is `c` in the end:

- `run`: the events are a run;
- `started`: the cycle was started in it;
- `cycle`: it is the given one;
- `listed`: it has listed the given containers;
- `inspectable`: there were containers, and not too many;
- `outcomes`: each inspection that ended had the given outcome. -/
structure CycleRun (containers : List ListedContainer) (outcome : Nat → Outcome) (s : State)
    (es : List Event) (t : State) (k : Nat) (c : Cycle) : Prop where
  run : s.run? es = some t
  started : s.cycles.length ≤ k
  cycle : t.cycles[k]? = some c
  listed : .move k (.listed (.ok containers)) ∈ es
  inspectable : Cycle.Inspectable containers
  outcomes : ∀ i o, .move k (.conclude i o) ∈ es → o = outcome i

namespace State

/-- An error has been reported between two states: it is queued, or it
has gone to the journal if the queue was full. -/
def Reported (u v : State) (e : MonitorError) : Prop :=
  (v.mailbox.errors = u.mailbox.errors ++ [e] ∧ v.journal = u.journal) ∨
  (Mailbox.errorCapacity ≤ u.mailbox.errors.length ∧ v.mailbox = u.mailbox ∧
    v.journal = u.journal ++ [Mailbox.droppedLine e])

/-- The cycle delivers a snapshot:

- `handed`: it hands over one snapshot;
- `accepted`: the snapshot is put where the owner receives it;
- `silent`: it is not reported that the time was over;
- `everyone`: every worker has reported, and has done so once;
- `received`: the reports are received in the order in which the workers
  have reported, and the report of a worker is the assignment that it
  comes to, if it comes to one;
- `keys`: the snapshot has an entry under exactly the ids of those
  containers whose inspection has found a name and devices;
- `last`: under each id it has the last assignment received. -/
structure Completed (containers : List ListedContainer) (outcome : Nat → Outcome) (s : State)
    (es : List Event) (k : Nat) (snapshot : Snapshot) : Prop where
  handed : s.observe k Cycle.delivered es = [snapshot]
  accepted : ∃ u v, Occurs step? s es (.deliver k) u v ∧ v.mailbox.slot = .full snapshot
  silent : s.observe k Cycle.timeouts es = []
  everyone : (s.observe k (Cycle.passing .reported) es).Perm (List.range containers.length)
  received : List.Forall₂ (fun i r => ∀ a, r = some a ↔ Cycle.Assigns containers outcome i a)
    (s.observe k (Cycle.passing .reported) es) (s.observe k Cycle.received es)
  keys : ∀ key, (∃ a, snapshot.get? key = some a) ↔
    ∃ i ct name devices, containers[i]? = some ct ∧ outcome i = .assigned name devices ∧
      ct.id.text = key
  last : ∀ key, snapshot.get? key
    = (((s.observe k Cycle.received es).filterMap id).filter fun a => a.id.text = key).getLast?

/-- The cycle does not deliver a snapshot, because its time was over:

- `kept`: it hands over nothing;
- `positive`, `count`: reports are missing, and the rest has been
  received;
- `said`: it is reported once that the time was over, and how many
  reports are missing;
- `reported`: the error is queued or dropped. -/
structure TimedOut (limit n : Nat) (s : State) (es : List Event) (k pending : Nat) : Prop where
  kept : s.observe k Cycle.delivered es = []
  positive : 1 ≤ pending
  count : pending + (s.observe k Cycle.received es).length = n
  said : s.observe k Cycle.timeouts es = [.timeout limit pending n]
  reported : ∃ u v, Occurs step? s es (.move k .expire) u v ∧
    Reported u v (.timeout limit pending n)

/-- The reports received are those of the workers, one for each and in
their order. `received` says this of each report on its own; here it is
one equation of lists, which is what can be rewritten with. -/
theorem Completed.received_eq {containers : List ListedContainer} {outcome : Nat → Outcome}
    {s : State} {es : List Event} {k : Nat} {snapshot : Snapshot}
    (h : Completed containers outcome s es k snapshot) :
    s.observe k Cycle.received es
      = (s.observe k (Cycle.passing .reported) es).map (Cycle.message containers outcome) := by
  rw [← List.forall₂_eq_eq_eq, List.forall₂_map_right_iff]
  refine List.Forall₂.flip (h.received.imp fun i r hr => ?_)
  exact Option.ext fun a => (hr a).trans Cycle.message_eq_some_iff.symm

/-- The snapshot that is delivered is made of the reports received, one
after the other. Two snapshots are equal if they have the same entry
under each id, and `last` says which one it is. -/
theorem Completed.eq_gatherAll {containers : List ListedContainer} {outcome : Nat → Outcome}
    {s : State} {es : List Event} {k : Nat} {snapshot : Snapshot}
    (h : Completed containers outcome s es k snapshot) :
    snapshot = Cycle.gatherAll (s.observe k Cycle.received es) := by
  refine SortedMap.ext_get? fun key => ?_
  rw [h.last, Cycle.get?_gatherAll]

section

variable {s t : State} {es : List Event} {k : Nat} {c c' : Cycle}

/-- A move that a cycle can make is an event of the monitor. The
monitor adds nothing but what becomes of the effect of the move, which
is always possible. -/
theorem isSome_move {m : Move} (hc : t.cycles[k]? = some c) (hx : c.step? (.move m) = some c') :
    (t.step? (.move k m)).isSome = true := by
  obtain ⟨⟨c'', effect⟩, hm, -⟩ := Option.map_eq_some_iff.mp hx
  simp [step?, move?, hc, hm]

/-- A step that a cycle can make is an event of the monitor if it fits
the monitor: the task has the next number, there is room for the
snapshot, and no worker is dropped. These three are all that the
monitor decides. -/
theorem exists_event {x : Step} (hc : t.cycles[k]? = some c) (hx : c.step? x = some c')
    (htask : ∀ n, x = .spawn n → n = t.tasks)
    (hroom : x = .handOver → t.mailbox.hasRoomFor k = true) (hdrop : x.drops = false) :
    ∃ e, t.stepOf? k e = some x ∧ (t.step? e).isSome = true := by
  cases x with
  | spawn n =>
    -- A worker is dispatched as the next task of the monitor.
    obtain rfl := htask n rfl
    refine ⟨.spawn k, by simp [stepOf?], ?_⟩
    simp only [Cycle.step?] at hx
    simp [step?, spawn?, hc, hx]
  | move m => exact ⟨.move k m, by simp [stepOf?], isSome_move hc hx⟩
  | handOver =>
    obtain ⟨⟨snapshot, c''⟩, hm, -⟩ := Option.map_eq_some_iff.mp hx
    exact ⟨.deliver k, by simp [stepOf?, hroom rfl], by simp [step?, deliver?, hc, hm]⟩
  | drop i => cases hdrop

/-- The steps of a cycle follow the outcomes that its inspections have.
Each step comes from an event of the run, so what is given for the
events holds for the steps. -/
theorem follows_of_outcomes (h : s.run? es = some t) {outcome : Nat → Outcome}
    (houtcome : ∀ i o, .move k (.conclude i o) ∈ es → o = outcome i) :
    ∀ x ∈ s.stepsOf k es, x.Follows outcome := by
  intro x hx
  obtain ⟨hdrop, hmove⟩ := mem_of_mem_stepsOf h hx
  cases x with
  | spawn | handOver => trivial
  | drop i => cases hdrop
  | move m =>
    cases m with
    | conclude i o => exact houtcome i o (hmove _ rfl)
    | _ => trivial

/-- A snapshot that is handed over is accepted: right after the delivery
it is where the owner receives it. A cycle that had to wait has not
handed over anything yet. -/
theorem accepted_of_delivered (h : s.run? es = some t) {snapshot : Snapshot}
    (hmem : snapshot ∈ s.observe k Cycle.delivered es) :
    ∃ u v, Occurs step? s es (.deliver k) u v ∧ v.mailbox.slot = .full snapshot := by
  obtain ⟨e, u, v, hoccurs, hseen⟩ := occurs_of_mem_along h hmem
  obtain ⟨d, x, hd, hx, hs⟩ := mem_watch hseen
  obtain ⟨-, -, -, -, hv⟩ := id hoccurs
  rcases event_of_stepOf? hx with ⟨-, rfl⟩ | ⟨m, -, rfl⟩ | ⟨rfl, rfl, hroom⟩
  · cases hs
  · cases hs
  · refine ⟨u, v, hoccurs, ?_⟩
    obtain ⟨d', snapshot', d'', hd', hhand, hv⟩ := deliver?_eq_some hv
    rw [if_pos hroom] at hv
    rw [hd] at hd'
    cases hd'
    simp only [Cycle.delivered, hhand, Option.map_some, Option.toList_some,
      List.mem_singleton] at hs
    rw [hv, hs]

/-- A move that reports an error and says nothing else has it queued or
dropped, depending on whether there is room in the queue. -/
theorem reported_suffer (u : State) (k : Nat) (c : Cycle) (e : MonitorError) :
    Reported u ((u.setCycle k c).suffer { error := some e }) e := by
  by_cases hfull : u.mailbox.errors.length < Mailbox.errorCapacity
  · left
    simp [suffer, report, Mailbox.report, hfull, write, setCycle]
  · right
    refine ⟨Nat.le_of_not_lt hfull, ?_⟩
    simp [suffer, report, Mailbox.report, hfull, write, setCycle]

/-- An error of a move is queued or dropped. A move that reports an
error tells the journal nothing else, so what the journal gains is the
line about the error. -/
theorem reported_of_move {u v : State} {d : Cycle} {m : Move} {e : MonitorError}
    (hv : u.step? (.move k m) = some v) (hd : u.cycles[k]? = some d)
    (he : e ∈ d.errors (.move m)) : Reported u v e := by
  obtain ⟨d', d'', effect, hd', hm, rfl⟩ := move?_eq_some hv
  rw [hd] at hd'
  cases hd'
  simp only [Cycle.errors, hm, Option.bind_some, Option.mem_toList] at he
  -- An error is all the effect that the move has.
  have heffect : effect = { error := some e } := by
    have hlines := Cycle.lines_of_error hm he
    cases effect
    simp_all
  rw [heffect]
  exact reported_suffer u k d'' e

/-- Every error that is reported in a run is queued or dropped, right
after the move that reports it. -/
theorem reported_of_errors (h : s.run? es = some t) {e : MonitorError}
    (hmem : e ∈ s.observe k Cycle.errors es) :
    ∃ m u v, Occurs step? s es (.move k m) u v ∧ Reported u v e := by
  obtain ⟨e', u, v, hoccurs, hseen⟩ := occurs_of_mem_along h hmem
  obtain ⟨d, x, hd, hx, he⟩ := mem_watch hseen
  obtain ⟨-, -, -, -, hv⟩ := id hoccurs
  rcases event_of_stepOf? hx with ⟨-, rfl⟩ | ⟨m, rfl, rfl⟩ | ⟨-, rfl, -⟩
  · cases he
  · exact ⟨m, u, v, hoccurs, reported_of_move hv hd he⟩
  · cases he

/-- A time-out is reported when the time is over: the move that reports
it is `expire`, and the error is queued or dropped then. -/
theorem reported_of_timeouts (h : s.run? es = some t) {e : MonitorError}
    (hmem : e ∈ s.observe k Cycle.timeouts es) :
    ∃ u v, Occurs step? s es (.move k .expire) u v ∧ Reported u v e := by
  obtain ⟨e', u, v, hoccurs, hseen⟩ := occurs_of_mem_along h hmem
  obtain ⟨d, x, hd, hx, he⟩ := mem_watch hseen
  obtain ⟨-, -, -, -, hv⟩ := id hoccurs
  rcases event_of_stepOf? hx with ⟨-, rfl⟩ | ⟨m, rfl, rfl⟩ | ⟨-, rfl, -⟩
  · cases he
  -- No other move says that the time was over.
  · have hexpire : m = .expire := by
      obtain ⟨d', d'', effect, hd', hm, -⟩ := move?_eq_some hv
      rw [hd] at hd'
      cases hd'
      by_contra hne
      rw [Cycle.timeouts_step (Cycle.leads_of_move? hm) (by simpa using hne)] at he
      cases he
    subst hexpire
    exact ⟨u, v, hoccurs, reported_of_move hv hd (List.mem_filter.mp he).1⟩
  · cases he

end

end State

namespace CycleRun

variable {containers : List ListedContainer} {outcome : Nat → Outcome} {s t : State}
  {es : List Event} {k : Nat} {c : Cycle}

/-- A collection that is over has brought the cycle to one of its two
ends. Which one it is was decided when the collection ended
(`Cycle.collected`); what is added here is what the workers have sent, and
what the monitor has done with the snapshot or the error. That a cycle has
listed nothing that it could inspect is excluded by `inspectable`. -/
theorem completed_or_timedOut (h : CycleRun containers outcome s es t k c)
    (hover : c.phase.isOver = true) :
    (∃ snapshot, State.Completed containers outcome s es k snapshot) ∨
      ∃ pending, State.TimedOut c.limit containers.length s es k pending := by
  obtain ⟨limit, hrun, hobserve⟩ := State.run?_stepsOf h.run h.started h.cycle
  have hlisted := State.mem_stepsOf_of_move h.run h.listed
  have hc := Cycle.dispatched_of_listed hrun h.inspectable hlisted
  cases (Cycle.collected hrun).ended hover with
  | delivered handed silent all =>
    left
    obtain ⟨hreceived, hperm⟩ := Cycle.received_of_all hrun hc all
    have hfollows := State.follows_of_outcomes h.run h.outcomes
    have hsent := Cycle.sent_eq hrun h.inspectable hlisted hfollows
    have hmessages := hreceived.trans hsent
    rw [← hobserve] at handed
    refine ⟨_, handed, State.accepted_of_delivered h.run (by simp [handed]), ?_, ?_, ?_, ?_, ?_⟩
    · rw [hobserve, silent]
    · rw [hobserve]
      exact hperm
    · rw [hobserve, hobserve, hmessages, List.forall₂_map_right_iff, List.forall₂_same]
      exact fun i _ a => Cycle.message_eq_some_iff
    · intro key
      rw [Cycle.exists_get?_gatherAll, hmessages]
      simp only [List.mem_map]
      constructor
      · rintro ⟨a, ⟨i, -, hi⟩, hkey⟩
        obtain ⟨ct, name, devices, hct, ho, rfl⟩ := Cycle.message_eq_some_iff.mp hi
        exact ⟨i, ct, name, devices, hct, ho, hkey⟩
      · rintro ⟨i, ct, name, devices, hct, ho, hkey⟩
        -- A worker with an assignment is one of the workers, and every worker has reported.
        have hlt := (List.getElem?_eq_some_iff.mp hct).1
        have hi := Cycle.message_eq_some_iff.mpr ⟨ct, name, devices, hct, ho, rfl⟩
        exact ⟨_, ⟨i, hperm.mem_iff.mpr (List.mem_range.mpr hlt), hi⟩, hkey⟩
    · intro key
      rw [Cycle.get?_gatherAll, hobserve]
  | timedOut pending hpos count kept said expired =>
    right
    have hlimit := Cycle.limit_of_run? hrun
    rw [hc.capacity] at count said
    refine ⟨pending, by rw [hobserve, kept], by omega, by rw [hobserve, count], ?_, ?_⟩
    · rw [hobserve, said, hlimit]
    · refine State.reported_of_timeouts h.run ?_
      rw [hobserve, said, hlimit]
      exact List.mem_singleton_self _
  | unlisted none kept silent =>
    have hlength := hc.capacity
    rw [none] at hlength
    exact absurd (List.length_eq_zero_iff.mp hlength.symm) h.inspectable.1

/-- A snapshot that is delivered completes the cycle: before the end of
the collection nothing is delivered, and a cycle that runs out of time
delivers nothing at all. -/
theorem completed_of_delivered (h : CycleRun containers outcome s es t k c)
    {snapshot : Snapshot} (hs : s.observe k Cycle.delivered es = [snapshot]) :
    State.Completed containers outcome s es k snapshot := by
  obtain ⟨limit, hrun, hobserve⟩ := State.run?_stepsOf h.run h.started h.cycle
  have hover : c.phase.isOver = true := by
    by_contra hnot
    have hkept := ((Cycle.collected hrun).before (by simpa using hnot)).1
    rw [← hobserve, hs] at hkept
    cases hkept
  -- One snapshot has been handed over, so it is the one that completes the cycle.
  rcases h.completed_or_timedOut hover with ⟨snapshot', hdone⟩ | ⟨pending, hlate⟩
  · have hsame := hdone.handed
    rw [hs] at hsame
    cases hsame
    exact hdone
  · have hkept := hlate.kept
    rw [hs] at hkept
    cases hkept

/-- A cycle that is not at its end can go on, without any help but that
of the owner who makes room for the snapshot. If the time limit is zero,
the step may be that the time is over; otherwise it is one that the
cycle makes in order, whatever the clock says. -/
theorem can_go_on (h : CycleRun containers outcome s es t k c) (hdone : c.phase ≠ .done) :
    (∃ e x, t.stepOf? k e = some x ∧ (t.step? e).isSome = true ∧
      (x.Orderly t.tasks outcome ∨ x = .move .expire ∧ c.limit = 0)) ∨
    ∃ snapshot, c.phase = .delivering snapshot ∧ t.mailbox.hasRoomFor k = false := by
  obtain ⟨limit, hrun, -⟩ := State.run?_stepsOf h.run h.started h.cycle
  have hlisted := State.mem_stepsOf_of_move h.run h.listed
  have hc := Cycle.dispatched_of_listed hrun h.inspectable hlisted
  rcases Cycle.exists_orderly_step t.tasks outcome hrun hc.listed hdone with
    ⟨x, c', horderly, hx⟩ | ⟨hzero, pending, gathered, hp⟩
  -- What the cycle can do, the monitor lets it do, except for the delivery.
  · by_cases hroom : x = .handOver ∧ t.mailbox.hasRoomFor k = false
    · right
      obtain ⟨rfl, hfull⟩ := hroom
      cases Cycle.leads_of_step? hx with
      | handOver snapshot hp => exact ⟨snapshot, hp, hfull⟩
    · left
      obtain ⟨e, hstep, hsome⟩ := State.exists_event h.cycle hx
        (by rintro n rfl; exact horderly) (by simpa using hroom)
        (by cases x <;> first | rfl | exact horderly.elim)
      exact ⟨e, x, hstep, hsome, .inl horderly⟩
  · left
    refine ⟨.move k .expire, .move .expire, by simp [State.stepOf?], ?_, .inr ⟨rfl, ?_⟩⟩
    · simp [State.step?, State.move?, h.cycle, Cycle.move?, Cycle.expire?, hp]
    · rw [hc.limit, hzero]

end CycleRun

/-- A poll cycle that has found something to inspect:

- makes a bounded number of steps;
- is not stuck before its end, except if there is no room for its
  snapshot;
- delivers nothing and is not late before its collection is over;
- has then either delivered a snapshot or run out of time, and never
  both;
- delivers the same snapshot as any other such cycle, if no id is listed
  twice.

The first two parts are what `Progress` proves of the steps of any
cycle. The two ends are those of `completed_or_timedOut`, and they
exclude each other since only one of them hands something over. For the
last part, both snapshots are made of the same reports in some order
(`gatherAll_eq_of_perm`). -/
theorem cycle_ends {containers : List ListedContainer} {outcome : Nat → Outcome} {s t : State}
    {es : List Event} {k : Nat} {c : Cycle} (h : CycleRun containers outcome s es t k c) :
    (s.stepsOf k es).length ≤ 9 * Listing.maxContainers + 4 ∧
    (c.phase ≠ .done →
      (∃ e x, t.stepOf? k e = some x ∧ (t.step? e).isSome = true ∧
        (x.Orderly t.tasks outcome ∨ x = .move .expire ∧ c.limit = 0)) ∨
      ∃ snapshot, c.phase = .delivering snapshot ∧ t.mailbox.hasRoomFor k = false) ∧
    (c.phase.isOver = false →
      s.observe k Cycle.delivered es = [] ∧ s.observe k Cycle.timeouts es = []) ∧
    (c.phase.isOver = true →
      Xor (∃ snapshot, State.Completed containers outcome s es k snapshot)
        (∃ pending, State.TimedOut c.limit containers.length s es k pending)) ∧
    ((containers.map (·.id)).Nodup →
      ∀ {s' t' : State} {es' : List Event} {k' : Nat} {c' : Cycle},
        CycleRun containers outcome s' es' t' k' c' → ∀ {snapshot snapshot' : Snapshot},
        s.observe k Cycle.delivered es = [snapshot] →
        s'.observe k' Cycle.delivered es' = [snapshot'] → snapshot = snapshot') := by
  obtain ⟨limit, hrun, hobserve⟩ := State.run?_stepsOf h.run h.started h.cycle
  refine ⟨?_, h.can_go_on, ?_, ?_, ?_⟩
  · have hbound := Cycle.length_add_toGo_le hrun
    omega
  · intro hover
    rw [hobserve, hobserve]
    exact (Cycle.collected hrun).before hover
  · intro hover
    -- A cycle that is completed has handed a snapshot over, one that is late has not.
    rcases h.completed_or_timedOut hover with ⟨snapshot, hdone⟩ | ⟨pending, hlate⟩
    · refine .inl ⟨⟨snapshot, hdone⟩, ?_⟩
      rintro ⟨pending, hlate⟩
      have hboth := hdone.handed.symm.trans hlate.kept
      cases hboth
    · refine .inr ⟨⟨pending, hlate⟩, ?_⟩
      rintro ⟨snapshot, hdone⟩
      have hboth := hdone.handed.symm.trans hlate.kept
      cases hboth
  · intro hids s' t' es' k' c' h' snapshot snapshot' hs hs'
    have hdone := h.completed_of_delivered hs
    have hdone' := h'.completed_of_delivered hs'
    rw [hdone.eq_gatherAll, hdone'.eq_gatherAll, hdone.received_eq, hdone'.received_eq]
    -- Both have gathered the same reports, each in an order of its own.
    refine Cycle.gatherAll_eq_of_perm ?_ ?_
    · exact (hdone.everyone.trans hdone'.everyone.symm).map _
    · exact Cycle.distinct_messages hids (hdone.everyone.nodup_iff.mpr List.nodup_range)

/-- The first container has a device, and inspecting any other one is aborted. -/
def deviceOrPanic (i : Nat) : Outcome := if i = 0 then .assigned "pod" [3] else .panicked "boom"

/-- The second worker reports first. -/
def panicFirst : List Event :=
  [.start 5, .move 0 (.listed (.ok Cycle.twoContainers)), .spawn 0, .spawn 0, .move 0 .collect,
    .move 0 (.ask 0), .move 0 (.begin 0), .move 0 (.ask 1), .move 0 (.begin 1),
    .move 0 (.conclude 1 (.panicked "boom")), .move 0 (.release 1), .move 0 (.report 1),
    .move 0 .receive, .move 0 (.conclude 0 (.assigned "pod" [3])), .move 0 (.release 0),
    .move 0 (.report 0), .move 0 .receive, .deliver 0]

/-- The snapshot with the devices of the first container and nothing else. -/
def podOnly : Snapshot := Snapshot.add .empty ⟨Cycle.containerA.id, "pod", [3]⟩

/-- A cycle of two workers, one of which is in a panic, is completed by
a snapshot with the devices of the other one and with nothing about the
container whose inspection was aborted. -/
theorem cycle_ends_after_panic :
    ∃ t c, CycleRun Cycle.twoContainers deviceOrPanic {} panicFirst t 0 c ∧ c.phase.isOver = true ∧
      State.Completed Cycle.twoContainers deviceOrPanic {} panicFirst 0 podOnly ∧
      podOnly.get? "a" = some ⟨Cycle.containerA.id, "pod", [3]⟩ ∧ podOnly.get? "b" = none ∧
      ¬ ∃ pending, State.TimedOut c.limit Cycle.twoContainers.length {} panicFirst 0 pending := by
  have hrun : ((State.run? {} panicFirst).bind (·.cycles[0]?)).any (·.phase.isOver) = true := by
    decide +kernel
  obtain ⟨c, hc, hover⟩ := (Option.any_eq_true _ _).mp hrun
  obtain ⟨t, ht, hc⟩ := Option.bind_eq_some_iff.mp hc
  have h : CycleRun Cycle.twoContainers deviceOrPanic {} panicFirst t 0 c := by
    refine ⟨ht, Nat.le_refl 0, hc, by simp [panicFirst], ?_, ?_⟩
    · exact ⟨by simp [Cycle.twoContainers], by decide⟩
    · intro i o hmem
      simp only [panicFirst, List.mem_cons, reduceCtorEq, Event.move.injEq, Move.conclude.injEq,
        true_and, false_or, or_false, and_false, List.not_mem_nil] at hmem
      rcases hmem with ⟨rfl, rfl⟩ | ⟨rfl, rfl⟩ <;> rfl
  have hsnapshot : ({} : State).observe 0 Cycle.delivered panicFirst = [podOnly] := by
    decide +kernel
  -- A snapshot has been handed over, so of the two ends it is the first.
  rcases (cycle_ends h).2.2.2.1 hover with ⟨⟨snapshot, hdone⟩, hintime⟩ | ⟨⟨pending, hlate⟩, -⟩
  · obtain rfl : snapshot = podOnly := by
      simpa [hsnapshot] using hdone.handed.symm
    exact ⟨t, c, h, hover, hdone, by decide, by decide, hintime⟩
  · have hkept := hlate.kept
    rw [hsnapshot] at hkept
    cases hkept

end NpuAttribution.Poll
