import Mathlib.Algebra.BigOperators.Group.List.Basic
import Mathlib.Algebra.GroupWithZero.Nat
import NpuAttribution.Proofs.Poll.Steps

/-!
# `NpuAttribution.Proofs.Poll.Transitions`: what a step of a cycle can do

`Cycle.Leads` lists everything that a step can lead to, guards included, and
`leads_of_step?` says that the list is complete. It is put together from the lemmas about the
single step functions. The invariants of a cycle are proved by cases on the list, so none of
them looks into the step functions again.

A permit that comes back goes to the worker that has waited longest, if there is one.
Releasing and dropping therefore have two cases each, one for an empty queue and one in
which the permit is passed on.
-/

set_option autoImplicit false

namespace NpuAttribution.Poll.Cycle

section Fields

variable (c : Cycle) (i : Nat) (s : Stage)

@[simp] theorem phase_setStage : (c.setStage i s).phase = c.phase := rfl

@[simp] theorem permits_setStage : (c.setStage i s).permits = c.permits := rfl

@[simp] theorem queue_setStage : (c.setStage i s).queue = c.queue := rfl

@[simp] theorem capacity_setStage : (c.setStage i s).capacity = c.capacity := rfl

/-- No worker comes or goes when one of them gets on. -/
@[simp] theorem length_workers_setStage :
    (c.setStage i s).workers.length = c.workers.length := by
  simp [setStage]

/-- A report concerns the channel only, if there is room in it and
if there is none. -/
@[simp] theorem phase_send (r : Option Assignment) : (c.send r).phase = c.phase := by
  unfold send
  split <;> rfl

@[simp] theorem workers_send (r : Option Assignment) : (c.send r).workers = c.workers := by
  unfold send
  split <;> rfl

@[simp] theorem capacity_send (r : Option Assignment) : (c.send r).capacity = c.capacity := by
  unfold send
  split <;> rfl

/-- Nothing changes about the containers when a worker gets on, because
a worker keeps the container that it was given. -/
@[simp] theorem containers_setStage :
    (c.setStage i s).workers.map (·.container) = c.workers.map (·.container) := by
  apply List.ext_getElem?
  intro j
  simp only [setStage, List.getElem?_map, List.getElem?_modify]
  cases c.workers[j]? with
  | none => rfl
  | some w => split <;> rfl

/-- Only the worker itself gets on, and all others are where they were. -/
theorem stage?_setStage (j : Nat) :
    (c.setStage i s).stage? j = if i = j then (c.stage? j).map fun _ => s else c.stage? j := by
  simp only [stage?, setStage, List.getElem?_modify, Option.map_map]
  split <;> simp [Function.comp_def]

/-- A worker that gets on is where it has got to. -/
theorem stage?_setStage_self {s' : Stage} (h : c.stage? i = some s') :
    (c.setStage i s).stage? i = some s := by
  simp [stage?_setStage, h]

end Fields

/-- Workers are what has a stage, so a stage tells that there is a
worker of this number. -/
theorem stage?_eq_some_iff {c : Cycle} {i : Nat} {s : Stage} :
    c.stage? i = some s ↔ ∃ w, c.workers[i]? = some w ∧ w.stage = s := by
  simp [stage?, Option.map_eq_some_iff]

/-- The sum of what the stages of all workers count for. -/
def total (f : Stage → Nat) (c : Cycle) : Nat := (c.workers.map fun w => f w.stage).sum

/-- The sum changes by the one worker that gets on. It is stated as an
equation of sums, as numbers cannot be taken away from each other freely. -/
theorem total_setStage (f : Stage → Nat) {c : Cycle} {i : Nat} {s : Stage}
    (h : c.stage? i = some s) (s' : Stage) :
    (c.setStage i s').total f + f s = c.total f + f s' := by
  obtain ⟨w, hw, rfl⟩ := stage?_eq_some_iff.mp h
  clear h
  unfold total setStage
  simp only
  generalize c.workers = ws at hw
  -- The worker that gets on is in front or in the rest.
  induction ws generalizing i with
  | nil => simp at hw
  | cons v ws ih =>
    cases i with
    | zero =>
      simp only [List.getElem?_cons_zero, Option.some.injEq] at hw
      subst hw
      simp only [List.modify_zero_cons, List.map_cons, List.sum_cons]
      omega
    | succ i =>
      have hrest := ih (i := i) (by simpa using hw)
      simp only [List.modify_succ_cons, List.map_cons, List.sum_cons]
      omega

/-- Everything that a step can lead to. -/
inductive Leads (c : Cycle) : Step → Cycle → Prop
  | failed (e : RuntimeError) (hp : c.phase = .listing) :
    Leads c (.move (.listed (.error e))) { c with phase := .done }
  | idle (containers : List ListedContainer) (hp : c.phase = .listing)
    (h : containers = [] ∨ Listing.maxContainers < containers.length) :
    Leads c (.move (.listed (.ok containers))) { c with phase := .delivering .empty }
  | listed (containers : List ListedContainer) (hp : c.phase = .listing)
    (hne : containers ≠ []) (hmax : containers.length ≤ Listing.maxContainers) :
    Leads c (.move (.listed (.ok containers)))
      { c with phase := .dispatching containers, capacity := containers.length }
  | spawn (task : Nat) (container : ListedContainer) (left : List ListedContainer)
    (hp : c.phase = .dispatching (container :: left)) :
    Leads c (.spawn task)
      { c with
        phase := .dispatching left
        workers := c.workers ++ [{ container, task, stage := .dispatched }] }
  | collect (hp : c.phase = .dispatching []) :
    Leads c (.move .collect) { c with phase := .collecting c.workers.length .empty }
  | grant (i permits : Nat) (hs : c.stage? i = some .dispatched)
    (hpermits : c.permits = permits + 1) :
    Leads c (.move (.ask i)) { c.setStage i .admitted with permits }
  | enqueue (i : Nat) (hs : c.stage? i = some .dispatched) (hpermits : c.permits = 0) :
    Leads c (.move (.ask i)) { c.setStage i .waiting with queue := c.queue ++ [i] }
  | begin (i : Nat) (hs : c.stage? i = some .admitted) :
    Leads c (.move (.begin i)) (c.setStage i .inspecting)
  | conclude (i : Nat) (o : Outcome) (hs : c.stage? i = some .inspecting) :
    Leads c (.move (.conclude i o)) (c.setStage i (.concluded o))
  | release (i : Nat) (o : Outcome) (hs : c.stage? i = some (.concluded o))
    (hq : c.queue = []) :
    Leads c (.move (.release i))
      { c.setStage i (.released (some o)) with permits := c.permits + 1 }
  | releaseTo (i : Nat) (o : Outcome) (next : Nat) (queue : List Nat)
    (hs : c.stage? i = some (.concluded o)) (hq : c.queue = next :: queue) :
    Leads c (.move (.release i))
      { (c.setStage i (.released (some o))).setStage next .admitted with queue }
  | report (i : Nat) (w : Worker) (o : Option Outcome) (hw : c.workers[i]? = some w)
    (hs : w.stage = .released o) :
    Leads c (.move (.report i)) ((c.setStage i (.ended o)).send (w.message o))
  | receive (pending : Nat) (gathered : Snapshot) (r : Option Assignment)
    (reports : List (Option Assignment)) (hp : c.phase = .collecting (pending + 1) gathered)
    (hr : c.reports = r :: reports) (hl : c.limit ≠ 0) (hpos : pending ≠ 0) :
    Leads c (.move .receive) { c with phase := .collecting pending (gather gathered r), reports }
  | complete (gathered : Snapshot) (r : Option Assignment)
    (reports : List (Option Assignment)) (hp : c.phase = .collecting 1 gathered)
    (hr : c.reports = r :: reports) (hl : c.limit ≠ 0) :
    Leads c (.move .receive) { c with phase := .delivering (gather gathered r), reports }
  | expire (pending : Nat) (gathered : Snapshot) (hp : c.phase = .collecting pending gathered) :
    Leads c (.move .expire) { c with phase := .joining }
  | hangUp (pending : Nat) (gathered : Snapshot)
    (hp : c.phase = .collecting (pending + 1) gathered) (hr : c.reports = [])
    (hall : ∀ w ∈ c.workers, w.stage.hasReported = true) :
    Leads c (.move .hangUp) { c with phase := .delivering gathered }
  | handOver (snapshot : Snapshot) (hp : c.phase = .delivering snapshot) :
    Leads c .handOver { c with phase := .joining }
  | join (i : Nat) (o : Option Outcome) (hp : c.phase = .joining)
    (hs : c.stage? i = some (.ended o)) :
    Leads c (.move (.join i)) (c.setStage i .joined)
  | finish (hp : c.phase = .joining) (hall : ∀ w ∈ c.workers, w.stage = .joined) :
    Leads c (.move .finish) { c with phase := .done }
  | dropIdle (i : Nat) (hs : c.stage? i = some .dispatched) :
    Leads c (.drop i) (c.setStage i (.released none))
  | dropWaiting (i : Nat) (hs : c.stage? i = some .waiting) :
    Leads c (.drop i) { c.setStage i (.released none) with queue := c.queue.erase i }
  | dropBusy (i : Nat) (hs : c.stage? i = some .admitted ∨ c.stage? i = some .inspecting)
    (hq : c.queue = []) :
    Leads c (.drop i) { c.setStage i (.released none) with permits := c.permits + 1 }
  | dropBusyTo (i next : Nat) (queue : List Nat)
    (hs : c.stage? i = some .admitted ∨ c.stage? i = some .inspecting)
    (hq : c.queue = next :: queue) :
    Leads c (.drop i) { (c.setStage i (.released none)).setStage next .admitted with queue }

/-- Returning a permit after a worker has got on. Nobody is admitted by
it if nobody waits, and otherwise the worker in front of the queue is. -/
theorem putPermit_setStage (c : Cycle) (i : Nat) (s : Stage) :
    (c.queue = [] ∧ (c.setStage i s).putPermit = { c.setStage i s with permits := c.permits + 1 }) ∨
    ∃ next queue, c.queue = next :: queue ∧
      (c.setStage i s).putPermit = { (c.setStage i s).setStage next .admitted with queue } := by
  unfold putPermit
  cases hq : c.queue with
  | nil => exact .inl ⟨rfl, by simp [hq]⟩
  | cons next queue => exact .inr ⟨next, queue, rfl, by simp [hq]⟩

/-- A worker that has ended its inspection returns its permit, or the
permit is passed on. These are the two cases of `putPermit_setStage`. -/
theorem leads_release {c c' : Cycle} {i : Nat} (h : c.release? i = some c') :
    Leads c (.move (.release i)) c' := by
  obtain ⟨o, hs, rfl⟩ := release?_eq_some_iff.mp h
  rcases putPermit_setStage c i (.released (some o)) with ⟨hq, hc⟩ | ⟨next, queue, hq, hc⟩
  · rw [hc]
    exact .release i o hs hq
  · rw [hc]
    exact .releaseTo i o next queue hs hq

/-- A worker that is dropped has no permit, waits for one, or
returns the one that it has. The last case is that of
`leads_release`, without an outcome. -/
theorem leads_drop {c c' : Cycle} {i : Nat} (h : c.drop? i = some c') : Leads c (.drop i) c' := by
  rcases drop?_eq_some_iff.mp h with ⟨hs, rfl⟩ | ⟨hs, rfl⟩ | ⟨hs, rfl⟩
  · exact .dropIdle i hs
  · exact .dropWaiting i hs
  · rcases putPermit_setStage c i (.released none) with ⟨hq, hc⟩ | ⟨next, queue, hq, hc⟩
    · rw [hc]
      exact .dropBusy i hs hq
    · rw [hc]
      exact .dropBusyTo i next queue hs hq

/-- A listing ends the cycle, leaves nothing to inspect, or is dispatched. -/
theorem leads_listed {c c' : Cycle} {e : Effect} {r : Except RuntimeError (List ListedContainer)}
    (h : c.listed? r = some (c', e)) : Leads c (.move (.listed r)) c' := by
  cases r with
  | error e =>
    obtain ⟨hp, heq⟩ := listed?_error_eq_some_iff.mp h
    cases heq
    exact .failed e hp
  | ok containers =>
    obtain ⟨hp, ⟨hempty, heq⟩ | ⟨hmany, heq⟩ | ⟨⟨hne, hmax⟩, heq⟩⟩ := listed?_ok_eq_some_iff.mp h
    · cases heq
      exact .idle containers hp (.inl hempty)
    · cases heq
      exact .idle containers hp (.inr hmany)
    · cases heq
      exact .listed containers hp hne hmax

/-- A move leads to nothing that is not listed. The moves are taken
apart by the lemmas about the step functions, and what is left is to
find the transition that has the same guards. -/
theorem leads_of_move? {c c' : Cycle} {m : Move} {e : Effect} (h : c.move? m = some (c', e)) :
    Leads c (.move m) c' := by
  cases m with
  | listed r => exact leads_listed h
  | collect =>
    obtain ⟨hp, rfl⟩ := collect?_eq_some_iff.mp (without_eq_some_iff.mp h).1
    exact .collect hp
  | ask i =>
    -- What comes of a request for a permit depends on whether one is free.
    obtain ⟨hs, ⟨permits, hpermits, rfl⟩ | ⟨hpermits, rfl⟩⟩ :=
      ask?_eq_some_iff.mp (without_eq_some_iff.mp h).1
    · exact .grant i permits hs hpermits
    · exact .enqueue i hs hpermits
  | begin i =>
    obtain ⟨hs, rfl⟩ := begin?_eq_some_iff.mp (without_eq_some_iff.mp h).1
    exact .begin i hs
  | conclude i o =>
    obtain ⟨hs, heq⟩ := conclude?_eq_some_iff.mp h
    cases heq
    exact .conclude i o hs
  | release i => exact leads_release (without_eq_some_iff.mp h).1
  | report i =>
    obtain ⟨w, o, hw, hs, rfl⟩ := report?_eq_some_iff.mp (without_eq_some_iff.mp h).1
    exact .report i w o hw hs
  | receive =>
    -- The last report completes the collection.
    obtain ⟨pending, gathered, r, reports, hp, hr, hl, ⟨rfl, rfl⟩ | ⟨hpos, rfl⟩⟩ :=
      receive?_eq_some_iff.mp (without_eq_some_iff.mp h).1
    · exact .complete gathered r reports hp hr hl
    · exact .receive pending gathered r reports hp hr hl hpos
  | expire =>
    obtain ⟨pending, gathered, hp, heq⟩ := expire?_eq_some_iff.mp h
    cases heq
    exact .expire pending gathered hp
  | hangUp =>
    obtain ⟨pending, gathered, hp, -, hr, hall, heq⟩ := hangUp?_eq_some_iff.mp h
    cases heq
    exact .hangUp pending gathered hp hr hall
  | join i =>
    obtain ⟨w, o, hp, hw, hs, heq⟩ := join?_eq_some_iff.mp h
    cases heq
    exact .join i o hp (stage?_eq_some_iff.mpr ⟨w, hw, hs⟩)
  | finish =>
    obtain ⟨hp, hall, rfl⟩ := finish?_eq_some_iff.mp (without_eq_some_iff.mp h).1
    exact .finish hp hall

/-- A step leads to nothing that is not listed. Moves are the
largest part of it, and the other steps are those in which more than
the cycle has a part. -/
theorem leads_of_step? {c c' : Cycle} {x : Step} (h : c.step? x = some c') : Leads c x c' := by
  cases x with
  | spawn task =>
    obtain ⟨container, left, hp, rfl⟩ := spawn?_eq_some_iff.mp h
    exact .spawn task container left hp
  | move m =>
    obtain ⟨⟨_, e⟩, hm, rfl⟩ := Option.map_eq_some_iff.mp h
    exact leads_of_move? hm
  | handOver =>
    obtain ⟨_, hx, rfl⟩ := Option.map_eq_some_iff.mp h
    obtain ⟨snapshot, hp, rfl⟩ := handOver?_eq_some_iff.mp hx
    exact .handOver snapshot hp
  | drop i => exact leads_drop h

/-- A property of the steps of a cycle and of what they lead to holds if
it holds of a new cycle and every step keeps it. The invariants of cycles
are all proved by this principle, with one case for each transition. -/
theorem run?_induction {motive : List Step → Cycle → Prop} {limit : Nat}
    (new : motive [] { limit := limit })
    (keep : ∀ {steps c x c'}, Cycle.run? { limit := limit } steps = some c → motive steps c →
      Leads c x c' → motive (steps ++ [x]) c') {steps : List Step} {c : Cycle}
    (h : Cycle.run? { limit := limit } steps = some c) : motive steps c :=
  follow_induction new
    (fun _ _ _ _ hrun hold hstep => keep hrun hold (leads_of_step? hstep)) h

end NpuAttribution.Poll.Cycle
