import NpuAttribution.Proofs.Poll.Transitions

/-!
# `NpuAttribution.Proofs.Poll.Permits`: the permits of a cycle

A permit is free or held by a worker, and there are always 64 of them. Workers that wait
stand in the queue, each of them once, and nobody waits while a permit is free.

`permitsKept` proves this for all that can happen to a cycle. Later modules use it in two
places. A permit that is passed on goes to a worker that waits, so passing it on sets
nobody back. And a worker that waits does so because others hold all permits, so somebody
can always get on.
-/

set_option autoImplicit false

namespace NpuAttribution.Poll

/-- The permits that a worker holds. -/
def Stage.permits : Stage → Nat
  | .admitted => 1
  | .inspecting => 1
  | .concluded _ => 1
  | _ => 0

namespace Cycle

/-- The permits of a cycle are in order:

- `total`: none of them is lost and none is made;
- `queued`: the queue consists of the workers that wait;
- `nodup`: none of them stands in it twice;
- `scarce`: nobody waits while a permit is free. -/
structure PermitsKept (c : Cycle) : Prop where
  total : c.permits + c.total Stage.permits = maxInspections
  queued : ∀ i, i ∈ c.queue ↔ c.stage? i = some .waiting
  nodup : c.queue.Nodup
  scarce : c.queue ≠ [] → c.permits = 0

/-- A new cycle has all of its permits, and nobody waits. -/
theorem permitsKept_new (limit : Nat) : PermitsKept { limit := limit } where
  total := rfl
  queued i := by simp [stage?]
  nodup := .nil
  scarce h := absurd rfl h

/-- The stages after one more worker has been dispatched: those of the
others are as before, and it has the stage that it was given. -/
theorem stage?_append (c : Cycle) (phase : Phase) (w : Worker) (i : Nat) :
    ({ c with phase, workers := c.workers ++ [w] } : Cycle).stage? i
      = if i = c.workers.length then some w.stage else c.stage? i := by
  simp only [stage?, List.getElem?_append]
  split
  · rw [if_neg (by omega)]
  · by_cases hi : i = c.workers.length
    · simp [hi]
    · rw [if_neg hi, List.getElem?_eq_none (by simp; omega), List.getElem?_eq_none (by omega)]

/-- A worker that did not wait and does not wait now changes nothing
about who waits. -/
theorem queued_setStage {c : Cycle} (h : PermitsKept c) {i : Nat} {s : Stage}
    (hs : c.stage? i = some s) (hold : s ≠ .waiting) {s' : Stage} (hnew : s' ≠ .waiting)
    (j : Nat) : j ∈ c.queue ↔ (c.setStage i s').stage? j = some .waiting := by
  rw [h.queued, stage?_setStage]
  split
  · rename_i hij
    subst hij
    simp [hs, hold, hnew]
  · rfl

/-- A permit that is passed on goes to a worker that waits. -/
theorem waiting_of_queue {c : Cycle} (h : PermitsKept c) {next : Nat} {queue : List Nat}
    (hq : c.queue = next :: queue) : c.stage? next = some .waiting := by
  rw [← h.queued, hq]
  exact List.mem_cons_self

/-- It still waits when the worker that had the permit before has got
on, as this is another worker. -/
theorem waiting_setStage {c : Cycle} (h : PermitsKept c) {i next : Nat} {queue : List Nat}
    {s : Stage} (hs : c.stage? i = some s) (hold : s ≠ .waiting)
    (hq : c.queue = next :: queue) (s' : Stage) :
    (c.setStage i s').stage? next = some .waiting := by
  have hnext := waiting_of_queue h hq
  have hne : i ≠ next := by
    rintro rfl
    rw [hs, Option.some.injEq] at hnext
    exact hold hnext
  rw [stage?_setStage, if_neg hne, hnext]

/-- A worker that keeps what permits it has and does not wait keeps the
permits in order. Most steps of workers are of this kind. -/
theorem permitsKept_advance {c : Cycle} (h : PermitsKept c) {i : Nat} {s s' : Stage}
    (hs : c.stage? i = some s) (hold : s ≠ .waiting) (hnew : s' ≠ .waiting)
    (hsame : s.permits = s'.permits) : PermitsKept (c.setStage i s') := by
  refine ⟨?_, queued_setStage h hs hold hnew, h.nodup, h.scarce⟩
  -- The sum changes by the difference of the two stages, and they do not differ.
  have htotal := total_setStage Stage.permits hs s'
  have hkept := h.total
  rw [permits_setStage]
  omega

/-- Returning the permit of worker `i` keeps the permits in order if
nobody waits. With somebody in the queue a permit would be free that a
worker waits for. -/
theorem permitsKept_putBack {c : Cycle} (h : PermitsKept c) {i : Nat} {s s' : Stage}
    (hs : c.stage? i = some s) (hold : s.permits = 1) (hnew : s'.permits = 0)
    (hwait : s' ≠ .waiting) (hq : c.queue = []) :
    PermitsKept { c.setStage i s' with permits := c.permits + 1 } := by
  have hnotwait : s ≠ .waiting := by
    rintro rfl
    simp [Stage.permits] at hold
  refine ⟨?_, queued_setStage h hs hnotwait hwait, h.nodup, fun hne => absurd hq hne⟩
  -- One permit more is free, and one less is held.
  show c.permits + 1 + (c.setStage i s').total Stage.permits = maxInspections
  have htotal := total_setStage Stage.permits hs s'
  have hkept := h.total
  omega

/-- Passing the permit of worker `i` on to the first in the queue
keeps the permits in order. No permit is free in between, so that
nobody else can take it. -/
theorem permitsKept_passOn {c : Cycle} (h : PermitsKept c) {i next : Nat} {queue : List Nat}
    {s s' : Stage} (hs : c.stage? i = some s) (hold : s.permits = 1) (hnew : s'.permits = 0)
    (hwait : s' ≠ .waiting) (hq : c.queue = next :: queue) :
    PermitsKept { (c.setStage i s').setStage next .admitted with queue } := by
  have hnotwait : s ≠ .waiting := by
    rintro rfl
    simp [Stage.permits] at hold
  have hnext := waiting_setStage h hs hnotwait hq s'
  have hnodup := h.nodup
  rw [hq, List.nodup_cons] at hnodup
  refine ⟨?_, fun j => ?_, hnodup.2, fun _ => ?_⟩
  -- Worker `i` holds one permit less, and `next` holds one more.
  · show c.permits + ((c.setStage i s').setStage next .admitted).total Stage.permits
      = maxInspections
    have h1 := total_setStage Stage.permits hs s'
    have h2 := total_setStage Stage.permits hnext .admitted
    simp only [Stage.permits] at h2
    have h3 := h.total
    omega
  -- Only `next` leaves the queue, and it waits no longer.
  · show j ∈ queue ↔ ((c.setStage i s').setStage next .admitted).stage? j = some .waiting
    have hj := queued_setStage h hs hnotwait hwait j
    rw [hq, List.mem_cons] at hj
    rw [stage?_setStage]
    split
    · rename_i hjn
      subst hjn
      simp [hnext, hnodup.1]
    · rename_i hjn
      rw [← hj]
      simp [Ne.symm hjn]
  · exact h.scarce (by simp [hq])

/-- A worker that is dispatched holds no permit and does not wait yet. -/
theorem permitsKept_spawn {c : Cycle} (h : PermitsKept c) (phase : Phase)
    (container : ListedContainer) (task : Nat) :
    PermitsKept { c with
      phase, workers := c.workers ++ [{ container, task, stage := .dispatched }] } := by
  refine ⟨?_, fun i => ?_, h.nodup, h.scarce⟩
  · have htotal := h.total
    simpa [Cycle.total, Stage.permits] using htotal
  · rw [stage?_append]
    split
    · rename_i hi
      have hnone : c.stage? i = none := by simp [stage?, hi]
      simp [h.queued, hnone]
    · exact h.queued i

/-- A worker that is granted a permit takes a free one, so the free ones
and those held are as many as before. -/
theorem permitsKept_grant {c : Cycle} (h : PermitsKept c) {i permits : Nat}
    (hs : c.stage? i = some .dispatched) (hpermits : c.permits = permits + 1) :
    PermitsKept { c.setStage i .admitted with permits } := by
  refine ⟨?_, queued_setStage h hs (by simp) (by simp), h.nodup, fun hq => ?_⟩
  · show permits + (c.setStage i .admitted).total Stage.permits = maxInspections
    have htotal := total_setStage Stage.permits hs .admitted
    simp only [Stage.permits] at htotal
    have hkept := h.total
    omega
  · have hscarce := h.scarce hq
    omega

/-- A worker that finds no permit joins the queue, in which it did
not stand before. -/
theorem permitsKept_enqueue {c : Cycle} (h : PermitsKept c) {i : Nat}
    (hs : c.stage? i = some .dispatched) (hpermits : c.permits = 0) :
    PermitsKept { c.setStage i .waiting with queue := c.queue ++ [i] } := by
  have hi : i ∉ c.queue := by simp [h.queued, hs]
  refine ⟨?_, fun j => ?_, ?_, fun _ => hpermits⟩
  · show c.permits + (c.setStage i .waiting).total Stage.permits = maxInspections
    have htotal := total_setStage Stage.permits hs .waiting
    simp only [Stage.permits] at htotal
    have hkept := h.total
    omega
  · show j ∈ c.queue ++ [i] ↔ (c.setStage i .waiting).stage? j = some .waiting
    rw [stage?_setStage, List.mem_append, List.mem_singleton, h.queued]
    split
    · rename_i hij
      subst hij
      simp [hs]
    · rename_i hij
      simp [Ne.symm hij]
  · rw [List.nodup_append]
    refine ⟨h.nodup, by simp, fun a ha b hb hab => ?_⟩
    rw [List.mem_singleton] at hb
    exact hi (by rwa [hab, hb] at ha)

/-- A report that is put on the channel changes nothing about permits. -/
theorem permitsKept_send {c : Cycle} (h : PermitsKept c) (r : Option Assignment) :
    PermitsKept (c.send r) := by
  unfold send
  split
  · exact ⟨h.total, h.queued, h.nodup, h.scarce⟩
  · exact h

/-- A worker that is dropped while it waits leaves the queue. -/
theorem permitsKept_leave {c : Cycle} (h : PermitsKept c) {i : Nat}
    (hs : c.stage? i = some .waiting) :
    PermitsKept { c.setStage i (.released none) with queue := c.queue.erase i } := by
  refine ⟨?_, fun j => ?_, h.nodup.erase i, fun hq => ?_⟩
  · show c.permits + (c.setStage i (.released none)).total Stage.permits = maxInspections
    have htotal := total_setStage Stage.permits hs (.released none)
    simp only [Stage.permits] at htotal
    have hkept := h.total
    omega
  · show j ∈ c.queue.erase i ↔ (c.setStage i (.released none)).stage? j = some .waiting
    rw [h.nodup.mem_erase_iff, stage?_setStage, h.queued]
    split
    · rename_i hij
      subst hij
      simp [hs]
    · rename_i hij
      simp [Ne.symm hij]
  -- A queue that is not empty now was not empty before.
  · refine h.scarce fun hnil => hq ?_
    rw [hnil]
    rfl

/-- Every step keeps the permits in order. A worker that gets on without
a permit being granted or returned is a case of `permitsKept_advance`,
and the other steps have lemmas of their own. -/
theorem permitsKept_step {c c' : Cycle} {x : Step} (h : PermitsKept c) (hx : Leads c x c') :
    PermitsKept c' := by
  cases hx with
  | spawn task container left => exact permitsKept_spawn h (.dispatching left) container task
  | grant i permits hs hpermits => exact permitsKept_grant h hs hpermits
  | enqueue i hs hpermits => exact permitsKept_enqueue h hs hpermits
  | begin i hs => exact permitsKept_advance h hs (by simp) (by simp) rfl
  | conclude i o hs => exact permitsKept_advance h hs (by simp) (by simp) rfl
  | release i o hs hq => exact permitsKept_putBack h hs rfl rfl (by simp) hq
  | releaseTo i o next queue hs hq => exact permitsKept_passOn h hs rfl rfl (by simp) hq
  | report i w o hw hs =>
    have hended : PermitsKept (c.setStage i (.ended o)) :=
      permitsKept_advance h (stage?_eq_some_iff.mpr ⟨w, hw, hs⟩) (by simp) (by simp) rfl
    exact permitsKept_send hended (w.message o)
  | join i o hp hs => exact permitsKept_advance h hs (by simp) (by simp) rfl
  | dropIdle i hs => exact permitsKept_advance h hs (by simp) (by simp) rfl
  | dropWaiting i hs => exact permitsKept_leave h hs
  | dropBusy i hs hq =>
    rcases hs with hs | hs <;> exact permitsKept_putBack h hs rfl rfl (by simp) hq
  | dropBusyTo i next queue hs hq =>
    rcases hs with hs | hs <;> exact permitsKept_passOn h hs rfl rfl (by simp) hq
  | failed | idle | listed | collect | receive | complete | expire | hangUp | handOver | finish =>
    exact ⟨h.total, h.queued, h.nodup, h.scarce⟩

/-- The permits of a cycle are always in order, along every run and with
workers dropped at any time. -/
theorem permitsKept {limit : Nat} {steps : List Step} {c : Cycle}
    (h : Cycle.run? { limit := limit } steps = some c) : PermitsKept c :=
  run?_induction (motive := fun _ c => PermitsKept c) (permitsKept_new limit)
    (fun _ hkept hx => permitsKept_step hkept hx) h

end Cycle

end NpuAttribution.Poll
