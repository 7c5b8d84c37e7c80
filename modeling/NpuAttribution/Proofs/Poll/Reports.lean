import NpuAttribution.Proofs.Poll.Milestones
import NpuAttribution.Proofs.Poll.Origin

/-!
# `NpuAttribution.Proofs.Poll.Reports`: no report is lost

Workers report at their end, whatever it is, and the collector counts the reports down.
`Ledger` relates what has been sent, what has been received and what is on the channel: the
channel holds what was sent and not received, in order, and the count of the collector and
what it has received make up the room of the channel.

The ledger needs the numbers to fit. Every worker sends at most one report, and there is
room for as many reports as there are workers. So a worker that still has to report always
finds room. `length_sent` counts the reports by the workers that have sent them, which is
where the milestones come in.
-/

set_option autoImplicit false

namespace NpuAttribution.Poll

/-- Whether the collector has not begun in a phase. -/
def Phase.isEarly : Phase → Bool
  | .listing => true
  | .dispatching _ => true
  | _ => false

namespace Cycle

/-- The workers that have not reported yet. -/
def guards (c : Cycle) : Nat := c.workers.countP fun w => !w.stage.hasReported

/-- The workers that have reported. -/
def reporters (c : Cycle) : Nat := c.workers.countP fun w => w.stage.hasReported

/-- Every worker has reported or has not. -/
theorem reporters_add_guards (c : Cycle) : c.reporters + c.guards = c.workers.length := by
  have h := List.length_eq_countP_add_countP (fun w : Worker => w.stage.hasReported)
    (l := c.workers)
  simp only [Bool.not_eq_true, Bool.decide_eq_false] at h
  exact h.symm

/-- A worker that has not reported is one of those that still hold a
sender of the channel. -/
theorem guards_pos {c : Cycle} {i : Nat} {w : Worker} (hw : c.workers[i]? = some w)
    (hs : w.stage.hasReported = false) : 0 < c.guards := by
  rw [guards, List.countP_pos_iff]
  exact ⟨w, List.mem_of_getElem? hw, by simp [hs]⟩

/-- As many workers report along the steps as have reported in the end. -/
theorem length_reporting {limit : Nat} {steps : List Step} {c : Cycle}
    (h : Cycle.run? { limit := limit } steps = some c) :
    (along step? (passing .reported) { limit := limit } steps).length = c.reporters := by
  rw [length_passing (m := .reported) h (.inl rfl), reporters]
  refine List.countP_congr fun w _ => ?_
  rw [Stage.hasReported_iff]
  simp

/-- There is a report for each worker that is said to report in a step,
and for nobody else. -/
theorem length_sent_step {c c' : Cycle} {x : Step} (hx : Leads c x c') :
    (sent c x).length = (passing .reported c x).length := by
  cases hx with
  | report i w o hw hs => simp [sent, passing, Milestone.passed?, hw, hs]
  | _ => rfl

/-- As many reports have been sent as workers have reported. -/
theorem length_sent {limit : Nat} {steps : List Step} {c : Cycle}
    (h : Cycle.run? { limit := limit } steps = some c) :
    (along step? sent { limit := limit } steps).length = c.reporters := by
  rw [← length_reporting h]
  refine run?_induction (motive := fun steps _ =>
    (along step? sent { limit := limit } steps).length
      = (along step? (passing .reported) { limit := limit } steps).length) rfl ?_ h
  intro steps c x c' hrun ih hx
  rw [along_append_singleton _ hrun, along_append_singleton _ hrun, List.length_append,
    List.length_append, ih, length_sent_step hx]

/-- The accounts of the channel for reports:

- `queued`: it holds what has been sent but not received;
- `unread`: nothing is received before the collector begins;
- `pending`: what the collector waits for and what it has received make
  up the room of the channel, and it does not wait for nothing. -/
structure Ledger (limit : Nat) (steps : List Step) (c : Cycle) : Prop where
  queued : along step? sent { limit := limit } steps
    = along step? received { limit := limit } steps ++ c.reports
  unread : c.phase.isEarly = true → along step? received { limit := limit } steps = []
  pending : ∀ pending gathered, c.phase = .collecting pending gathered → pending ≠ 0 ∧
    pending + (along step? received { limit := limit } steps).length = c.capacity

/-- A cycle with a worker that has not reported has room for its report:
what is on the channel was sent by other workers, one report each, and
the channel has room for all. -/
theorem room_of_guards {limit : Nat} {steps : List Step} {c : Cycle}
    (hrun : Cycle.run? { limit := limit } steps = some c) (h : Ledger limit steps c)
    (hguards : 0 < c.guards) : c.reports.length < c.capacity := by
  -- What is on the channel was sent by workers that have reported, and this one has not.
  rcases dispatched_or_idle hrun with ⟨containers, -, -, hc⟩ | ⟨hw, -⟩
  · have hsent := length_sent hrun
    rw [h.queued, List.length_append] at hsent
    have hworkers := reporters_add_guards c
    have hle := hc.length_workers_le
    omega
  · simp [guards, hw] at hguards

/-- A report for which there is room is put on the channel, at its end. -/
theorem send_of_room {c : Cycle} (h : c.reports.length < c.capacity) (r : Option Assignment) :
    c.send r = { c with reports := c.reports ++ [r] } := by
  rw [send, if_pos h]

section

variable {limit : Nat} {steps : List Step} {c c' : Cycle} {x : Step}

/-- A step that neither sends nor receives keeps the accounts if it
keeps the channel and the collector's count, and does not go back to
before the collection. -/
theorem ledger_quiet (hrun : Cycle.run? { limit := limit } steps = some c)
    (h : Ledger limit steps c) (hsent : sent c x = []) (hreceived : received c x = [])
    (hreports : c'.reports = c.reports)
    (hearly : c'.phase.isEarly = true → c.phase.isEarly = true)
    (hpending : ∀ pending gathered, c'.phase = .collecting pending gathered → pending ≠ 0 ∧
      pending + (along step? received { limit := limit } steps).length = c'.capacity) :
    Ledger limit (steps ++ [x]) c' := by
  have hs : along step? sent { limit := limit } (steps ++ [x])
      = along step? sent { limit := limit } steps := by
    rw [along_append_singleton _ hrun, hsent, List.append_nil]
  have hr : along step? received { limit := limit } (steps ++ [x])
      = along step? received { limit := limit } steps := by
    rw [along_append_singleton _ hrun, hreceived, List.append_nil]
  refine ⟨?_, ?_, ?_⟩
  · rw [hs, hr, hreports, h.queued]
  · rw [hr]
    exact fun he => h.unread (hearly he)
  · rw [hr]
    exact hpending

/-- A worker's report is sent and waits on the channel. It is not lost
there, as there is room for it (`room_of_guards`). -/
theorem ledger_report (hrun : Cycle.run? { limit := limit } steps = some c)
    (h : Ledger limit steps c) {i : Nat} {w : Worker} {o : Option Outcome}
    (hw : c.workers[i]? = some w) (hs : w.stage = .released o) :
    Ledger limit (steps ++ [.move (.report i)]) ((c.setStage i (.ended o)).send (w.message o)) := by
  -- The worker is about to report, so it has not reported yet and there is room.
  have hroom := room_of_guards hrun h (guards_pos hw (by rw [hs]; rfl))
  rw [send_of_room (c := c.setStage i (.ended o)) hroom]
  have hsent : sent c (.move (.report i)) = [w.message o] := by simp [sent, hw, hs]
  have hr : along step? received { limit := limit } (steps ++ [.move (.report i)])
      = along step? received { limit := limit } steps := by
    rw [along_append_singleton _ hrun]
    exact List.append_nil _
  refine ⟨?_, ?_, ?_⟩
  · rw [along_append_singleton _ hrun, hsent, hr, h.queued, List.append_assoc]
    rfl
  · rw [hr]
    exact h.unread
  · rw [hr]
    exact h.pending

/-- The oldest report on the channel is received, and the collector
counts it. The phase afterwards is left open, because the last report
ends the collection and the others do not. -/
theorem ledger_receive (hrun : Cycle.run? { limit := limit } steps = some c)
    (h : Ledger limit steps c) {pending : Nat} {gathered : Snapshot} {r : Option Assignment}
    {reports : List (Option Assignment)} (hp : c.phase = .collecting (pending + 1) gathered)
    (hr : c.reports = r :: reports) {phase : Phase} (hearly : phase.isEarly = false)
    (hphase : ∀ p g, phase = .collecting p g → p = pending ∧ p ≠ 0) :
    Ledger limit (steps ++ [.move .receive]) { c with phase, reports } := by
  have hreceived : received c (.move .receive) = [r] := by simp [received, hr]
  refine ⟨?_, ?_, ?_⟩
  · rw [along_append_singleton _ hrun, along_append_singleton _ hrun, hreceived, h.queued, hr]
    simp [sent]
  · intro he
    rw [hearly] at he
    cases he
  -- One report more is received, and the collector waits for one less.
  · intro p g hpg
    obtain ⟨rfl, hne⟩ := hphase p g hpg
    have hcount := (h.pending _ _ hp).2
    rw [along_append_singleton _ hrun, hreceived, List.length_append, List.length_singleton]
    refine ⟨hne, ?_⟩
    show p + _ = c.capacity
    omega

/-- The collection begins when every container has got a worker. Nothing
has been received so far, and the count starts at the number of workers,
which is the room of the channel. -/
theorem ledger_collect (hrun : Cycle.run? { limit := limit } steps = some c)
    (h : Ledger limit steps c) (hp : c.phase = .dispatching []) :
    Ledger limit (steps ++ [.move .collect])
      { c with phase := .collecting c.workers.length .empty } := by
  refine ledger_quiet hrun h rfl rfl rfl (fun he => absurd he (by simp [Phase.isEarly])) ?_
  intro p g hpg
  cases hpg
  rw [h.unread (by rw [hp]; rfl)]
  -- The collector waits for all workers, and there is one for each container.
  rcases dispatched_or_idle hrun with ⟨containers, hinspect, -, hc⟩ | ⟨-, hidle, -⟩
  · have hlength := hc.length_workers (by rw [hp]; rfl)
    refine ⟨?_, by rw [hc.capacity, hlength, List.length_nil, Nat.add_zero]⟩
    rw [hlength, Ne, List.length_eq_zero_iff]
    exact hinspect.1
  · exact absurd hp (hidle [])

/-- Every step keeps the accounts. Only three steps have anything to do
with reports; the others are quiet. -/
theorem ledger_step (hrun : Cycle.run? { limit := limit } steps = some c)
    (h : Ledger limit steps c) (hx : Leads c x c') : Ledger limit (steps ++ [x]) c' := by
  cases hx with
  | report i w o hw hs => exact ledger_report hrun h hw hs
  | collect hp => exact ledger_collect hrun h hp
  | receive pending gathered r reports hp hr hl hpos =>
    refine ledger_receive hrun h hp hr rfl fun p g hpg => ?_
    cases hpg
    exact ⟨rfl, hpos⟩
  | complete gathered r reports hp hr hl =>
    exact ledger_receive hrun h hp hr rfl fun p g hpg => by cases hpg
  | failed | idle | expire | hangUp | handOver | finish =>
    exact ledger_quiet hrun h rfl rfl rfl (fun he => absurd he (by simp [Phase.isEarly]))
      fun p g hpg => by cases hpg
  | listed containers hp =>
    exact ledger_quiet hrun h rfl rfl rfl (fun _ => by rw [hp]; rfl) fun p g hpg => by cases hpg
  | spawn task container left hp =>
    exact ledger_quiet hrun h rfl rfl rfl (fun _ => by rw [hp]; rfl) fun p g hpg => by cases hpg
  | grant | enqueue | begin | conclude | release | releaseTo | join | dropIdle | dropWaiting
  | dropBusy | dropBusyTo =>
    exact ledger_quiet hrun h rfl rfl rfl id h.pending

/-- The accounts of the channel are always in order, along every run and
with workers dropped at any time. -/
theorem ledger (h : Cycle.run? { limit := limit } steps = some c) : Ledger limit steps c := by
  refine run?_induction (motive := Ledger limit) ⟨rfl, fun _ => rfl, ?_⟩ ?_ h
  · intro p g hpg
    cases hpg
  · exact fun hrun hledger hx => ledger_step hrun hledger hx

/-- While the collector waits, it waits for the reports on the channel
and for those that have not been sent yet. The ledger says how many it
has received, and the rest is one of the two. -/
theorem pending_eq (h : Cycle.run? { limit := limit } steps = some c) {pending : Nat}
    {gathered : Snapshot} (hp : c.phase = .collecting pending gathered) :
    pending = c.reports.length + c.guards := by
  rcases dispatched_or_idle h with ⟨containers, -, -, hc⟩ | ⟨-, -, hidle⟩
  · have hledger := ledger h
    have hcount := (hledger.pending pending gathered hp).2
    have hsent := length_sent h
    rw [hledger.queued, List.length_append] at hsent
    -- What was sent was received or is on the channel, and it came from the reporters.
    have hworkers := reporters_add_guards c
    rw [hc.length_workers (by rw [hp]; rfl), ← hc.capacity] at hworkers
    omega
  · exact absurd hp (hidle pending gathered)

/-- While the collector waits and no report is on the channel, somebody
is left to report. So the collector never waits in vain. -/
theorem exists_unreported (h : Cycle.run? { limit := limit } steps = some c) {pending : Nat}
    {gathered : Snapshot} (hp : c.phase = .collecting pending gathered) (hr : c.reports = []) :
    ∃ (i : Nat) (w : Worker), c.workers[i]? = some w ∧ w.stage.hasReported = false := by
  have hpending := pending_eq h hp
  have hne := ((ledger h).pending pending gathered hp).1
  rw [hr, List.length_nil, Nat.zero_add] at hpending
  have hguards : 0 < c.guards := by omega
  obtain ⟨w, hmem, hw⟩ := List.countP_pos_iff.mp hguards
  obtain ⟨i, hi⟩ := List.mem_iff_getElem?.mp hmem
  exact ⟨i, w, hi, by simpa using hw⟩

/-- The channel does not close while the collector waits: it closes when
nobody holds a sender any more, and whoever has not reported holds one. -/
theorem hangUp?_eq_none (h : Cycle.run? { limit := limit } steps = some c) :
    c.hangUp? = none := by
  rw [Option.eq_none_iff_forall_ne_some]
  intro r hr
  obtain ⟨pending, gathered, hp, -, hempty, hall, -⟩ := hangUp?_eq_some_iff.mp hr
  -- If the channel is empty then a worker has not reported, and it still holds a sender.
  obtain ⟨i, w, hw, hno⟩ := exists_unreported h hp hempty
  rw [hall w (List.mem_of_getElem? hw)] at hno
  cases hno

end

/-- The reports of a cycle that has listed the given containers are in
order, after the given steps:

- `capacity`: the channel has room for one report of each container;
- `bounded`: it never holds more than that;
- `dispatching`: during the dispatch, every container has a report on
  the channel, a worker that has not reported, or no worker yet;
- `collecting`: the collector waits for the reports on the channel and
  for the workers that have not reported;
- `fits`: a worker that reports puts its report on the channel, it never
  fails to;
- `once`: no worker reports twice, and those that have reported are
  those said to;
- `sent`: there is one report for each of them, received or on the
  channel;
- `received`: each report received is counted, and each is counted once;
- `neverHangsUp`: the collector does not find the channel closed. -/
structure ReportsKept (limit : Nat) (containers : List ListedContainer) (steps : List Step)
    (c : Cycle) : Prop where
  capacity : c.capacity = containers.length
  bounded : c.reports.length ≤ c.capacity
  dispatching : ∀ left, c.phase = .dispatching left →
    c.reports.length + c.guards + left.length = containers.length
  collecting : ∀ pending gathered, c.phase = .collecting pending gathered →
    pending = c.reports.length + c.guards
  fits : ∀ i w o, c.workers[i]? = some w → w.stage = .released o →
    c.report? i = some { c.setStage i (.ended o) with reports := c.reports ++ [w.message o] }
  once : (along step? (passing .reported) { limit := limit } steps).Nodup ∧
    ∀ i, i ∈ along step? (passing .reported) { limit := limit } steps ↔
      ∃ w, c.workers[i]? = some w ∧ w.stage.hasReported = true
  sent : (along step? sent { limit := limit } steps).length
      = (along step? (passing .reported) { limit := limit } steps).length ∧
    along step? sent { limit := limit } steps
      = along step? received { limit := limit } steps ++ c.reports
  received : ∀ pending gathered, c.phase = .collecting pending gathered →
    pending + (along step? received { limit := limit } steps).length = containers.length
  neverHangsUp : c.hangUp? = none

/-- Whatever the workers of a cycle come to, and in whatever order they
do, be it that some of them are dropped before they have done anything:
their reports are in order. What is about the channel comes from the
`ledger`, and what is about who has reported from `passing_spec`. A
worker finds room because it is one of those that have not reported yet. -/
theorem reportsKept {limit : Nat} {containers : List ListedContainer} {steps : List Step}
    {c : Cycle} (h : Cycle.run? { limit := limit } steps = some c)
    (hinspect : Inspectable containers) (hlisted : .move (.listed (.ok containers)) ∈ steps) :
    ReportsKept limit containers steps c := by
  have hc := dispatched_of_listed h hinspect hlisted
  have hledger := ledger h
  have hsent := length_sent h
  have hqueued := congrArg List.length hledger.queued
  rw [List.length_append, hsent] at hqueued
  have hworkers := reporters_add_guards c
  have hle := hc.length_workers_le
  obtain ⟨hnodup, hmem⟩ := passing_spec (m := .reported) h (.inl rfl)
  refine ⟨hc.capacity, by omega, ?_, fun _ _ hp => pending_eq h hp, ?_, ⟨hnodup, ?_⟩,
    ⟨?_, hledger.queued⟩, ?_, hangUp?_eq_none h⟩
  · intro left hp
    -- Nothing has been received, so everything that was sent is on the channel.
    rw [hledger.unread (by rw [hp]; rfl), List.length_nil, Nat.zero_add] at hqueued
    have hroster := congrArg List.length hc.roster
    rw [hp, List.length_append, List.length_map] at hroster
    simp only [Phase.left] at hroster
    omega
  · intro i w o hw hs
    have hroom := room_of_guards h hledger (guards_pos hw (by rw [hs]; rfl))
    refine report?_eq_some_iff.mpr ⟨w, o, hw, hs, ?_⟩
    rw [send_of_room (c := c.setStage i (.ended o)) hroom]
    rfl
  · intro i
    rw [hmem, Past]
    simp only [stage?_eq_some_iff, Stage.hasReported_iff]
    constructor
    · rintro ⟨_, ⟨w, hw, rfl⟩, hrank⟩
      exact ⟨w, hw, hrank⟩
    · rintro ⟨w, hw, hrank⟩
      exact ⟨w.stage, ⟨w, hw, rfl⟩, hrank⟩
  · rw [hsent, length_reporting h]
  · intro pending gathered hp
    rw [(hledger.pending pending gathered hp).2, hc.capacity]

/-- A container without a name and without labels. -/
def bare (id : ContainerId) : ListedContainer := { id, name := "", labels := .empty }

/-- The container `a`. -/
def containerA : ListedContainer := bare ⟨"a", by decide, by decide⟩

/-- Two containers. -/
def twoContainers : List ListedContainer := [containerA, bare ⟨"b", by decide, by decide⟩]

/-- The second worker is dropped before it has done anything and has
reported, the first one is in a panic. -/
def droppedFirst : List Step :=
  [.move (.listed (.ok twoContainers)), .spawn 1, .spawn 2, .drop 1, .move .collect,
    .move (.ask 0), .move (.begin 0), .move (.report 1), .move (.conclude 0 (.panicked "boom"))]

/-- The collector waits for two reports, one on the channel and one to
come: the worker that was dropped has reported like any other. -/
theorem reportsKept_droppedFirst :
    ∃ c, Cycle.run? { limit := 5 } droppedFirst = some c ∧ Inspectable twoContainers ∧
      .move (.listed (.ok twoContainers)) ∈ droppedFirst ∧
      c.phase = .collecting 2 .empty ∧ c.reports = [none] ∧ c.guards = 1 ∧
      ReportsKept 5 twoContainers droppedFirst c := by
  have hinspect : Inspectable twoContainers := ⟨by simp [twoContainers], by decide⟩
  refine ⟨_, rfl, hinspect, List.mem_cons_self, rfl, rfl, rfl, ?_⟩
  exact reportsKept rfl hinspect List.mem_cons_self

end Cycle

end NpuAttribution.Poll
