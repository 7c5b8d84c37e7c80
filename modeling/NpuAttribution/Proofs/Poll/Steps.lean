import NpuAttribution.Proofs.Poll.Runs

/-!
# `NpuAttribution.Proofs.Poll.Steps`: when a step is possible, and what it does

A step of a cycle is a partial function: it is undefined where the step is not possible. For
each of them there is one lemma here. It says exactly when the step is possible, and what the
cycle is afterwards and what is told to the outside if it is. The lemmas are equivalences, so
they serve to take a step apart as well as to show that it can be made.

No other module looks into the step functions in order to find out what a step has done.
`Transitions` puts the lemmas together to one list of all transitions.
-/

set_option autoImplicit false

namespace NpuAttribution.Poll.Cycle

variable {c c' : Cycle} {i : Nat} {r : Cycle × Effect}

/-- A step without an effect outside of the cycle is possible if it is
possible in the cycle. -/
theorem without_eq_some_iff {d : Option Cycle} {e : Effect} :
    Effect.without d = some (c', e) ↔ d = some c' ∧ e = {} := by
  unfold Effect.without
  rw [Option.map_eq_some_iff]
  constructor
  · rintro ⟨_, hd, heq⟩
    cases heq
    exact ⟨hd, rfl⟩
  · rintro ⟨hd, rfl⟩
    exact ⟨c', hd, rfl⟩

/-- A listing that has failed ends the cycle, and its error is reported. -/
theorem listed?_error_eq_some_iff {e : RuntimeError} :
    c.listed? (.error e) = some r ↔
      c.phase = .listing ∧
        r = ({ c with phase := .done }, { error := some (.runtime e) }) := by
  simp only [listed?, Option.ite_none_right_eq_some, Option.some.injEq, eq_comm (a := r)]

/-- A listing that has succeeded leads to one of three things. Without
any containers and with too many of them there is nothing to inspect,
and the empty snapshot is to be delivered; only in the second case the
journal is told. Otherwise the containers are to be dispatched, and the
channel has room for one report of each. -/
theorem listed?_ok_eq_some_iff {containers : List ListedContainer} :
    c.listed? (.ok containers) = some r ↔
      c.phase = .listing ∧
        (containers = [] ∧ r = ({ c with phase := .delivering .empty }, {}) ∨
         Listing.maxContainers < containers.length ∧
          r = ({ c with phase := .delivering .empty }, { lines := [tooMany containers.length] }) ∨
         (containers ≠ [] ∧ containers.length ≤ Listing.maxContainers) ∧
          r = ({ c with
            phase := .dispatching containers
            capacity := containers.length }, {})) := by
  simp only [listed?, Option.ite_none_right_eq_some, List.isEmpty_iff]
  refine and_congr_right fun _ => ?_
  by_cases hempty : containers = []
  · -- An empty list is not too long, so only the first case is left.
    subst hempty
    simp [eq_comm]
  · by_cases hmany : Listing.maxContainers < containers.length
    · simp [hempty, hmany, Nat.not_le.mpr hmany, eq_comm]
    · simp [hempty, hmany, Nat.le_of_not_lt hmany, eq_comm]

/-- The next container is dispatched to a new worker, which comes
after all others. -/
theorem spawn?_eq_some_iff {task : Nat} :
    c.spawn? task = some c' ↔
      ∃ container left, c.phase = .dispatching (container :: left) ∧
        c' = { c with
          phase := .dispatching left
          workers := c.workers ++ [{ container, task, stage := .dispatched }] } := by
  unfold spawn?
  constructor
  · intro h
    split at h
    · exact ⟨_, _, ‹_›, (Option.some.inj h).symm⟩
    · cases h
  · rintro ⟨container, left, hp, rfl⟩
    rw [hp]

/-- The collection begins when no container is left to dispatch. It waits for
as many reports as there are workers, and it has gathered nothing so far. -/
theorem collect?_eq_some_iff :
    c.collect? = some c' ↔
      c.phase = .dispatching [] ∧ c' = { c with phase := .collecting c.workers.length .empty } := by
  unfold collect?
  constructor
  · intro h
    split at h
    · exact ⟨‹_›, (Option.some.inj h).symm⟩
    · cases h
  · rintro ⟨hp, rfl⟩
    rw [hp]

/-- A worker that asks for a permit gets it if one is free, and else is
the last in the queue. -/
theorem ask?_eq_some_iff :
    c.ask? i = some c' ↔
      c.stage? i = some .dispatched ∧
        ((∃ permits, c.permits = permits + 1 ∧ c' = { c.setStage i .admitted with permits }) ∨
         c.permits = 0 ∧ c' = { c.setStage i .waiting with queue := c.queue ++ [i] }) := by
  unfold ask?
  constructor
  · intro h
    split at h
    · split at h
      · exact ⟨‹_›, .inl ⟨_, ‹_›, (Option.some.inj h).symm⟩⟩
      · exact ⟨‹_›, .inr ⟨‹_›, (Option.some.inj h).symm⟩⟩
    · cases h
  · rintro ⟨hs, ⟨permits, hpermits, rfl⟩ | ⟨hpermits, rfl⟩⟩
    · simp only [hs, hpermits]
    · simp only [hs, hpermits]

/-- A worker begins its inspection when it has a permit. The permit
stays with it until the inspection has ended. -/
theorem begin?_eq_some_iff :
    c.begin? i = some c' ↔ c.stage? i = some .admitted ∧ c' = c.setStage i .inspecting := by
  unfold begin?
  constructor
  · intro h
    split at h
    · exact ⟨‹_›, (Option.some.inj h).symm⟩
    · cases h
  · rintro ⟨hs, rfl⟩
    rw [hs]

/-- An inspection can end with any outcome. If it has failed, its error
is reported at once. -/
theorem conclude?_eq_some_iff {o : Outcome} :
    c.conclude? i o = some r ↔
      c.stage? i = some .inspecting ∧
        r = (c.setStage i (.concluded o), { error := o.error? }) := by
  unfold conclude?
  constructor
  · intro h
    split at h
    · exact ⟨‹_›, (Option.some.inj h).symm⟩
    · cases h
  · rintro ⟨hs, rfl⟩
    rw [hs]

/-- A worker returns its permit when its inspection has ended. What
becomes of the permit is a matter of the queue, and `putPermit` says it. -/
theorem release?_eq_some_iff :
    c.release? i = some c' ↔
      ∃ o, c.stage? i = some (.concluded o) ∧
        c' = (c.setStage i (.released (some o))).putPermit := by
  unfold release?
  constructor
  · intro h
    split at h
    · exact ⟨_, ‹_›, (Option.some.inj h).symm⟩
    · cases h
  · rintro ⟨o, hs, rfl⟩
    rw [hs]

/-- A worker can be dropped until its inspection has ended. If it waits,
it leaves the queue; if it has a permit, the permit comes back. -/
theorem drop?_eq_some_iff :
    c.drop? i = some c' ↔
      c.stage? i = some .dispatched ∧ c' = c.setStage i (.released none) ∨
      c.stage? i = some .waiting ∧
        c' = { c.setStage i (.released none) with queue := c.queue.erase i } ∨
      (c.stage? i = some .admitted ∨ c.stage? i = some .inspecting) ∧
        c' = (c.setStage i (.released none)).putPermit := by
  unfold drop?
  constructor
  · intro h
    split at h
    · exact .inl ⟨‹_›, (Option.some.inj h).symm⟩
    · exact .inr (.inl ⟨‹_›, (Option.some.inj h).symm⟩)
    · exact .inr (.inr ⟨.inl ‹_›, (Option.some.inj h).symm⟩)
    · exact .inr (.inr ⟨.inr ‹_›, (Option.some.inj h).symm⟩)
    · cases h
  · rintro (⟨hs, rfl⟩ | ⟨hs, rfl⟩ | ⟨hs | hs, rfl⟩) <;> rw [hs]

/-- A worker reports when it has nothing else to do, whatever has become
of its inspection. -/
theorem report?_eq_some_iff :
    c.report? i = some c' ↔
      ∃ w o, c.workers[i]? = some w ∧ w.stage = .released o ∧
        c' = (c.setStage i (.ended o)).send (w.message o) := by
  unfold report?
  constructor
  · intro h
    split at h
    · split at h
      · exact ⟨_, _, ‹_›, ‹_›, (Option.some.inj h).symm⟩
      · cases h
    · cases h
  · rintro ⟨w, o, hw, hs, rfl⟩
    simp only [hw, hs]

/-- The collector receives the oldest report if it has any time at all
and still waits for one. With the last report that it waits for, the
snapshot is complete. -/
theorem receive?_eq_some_iff :
    c.receive? = some c' ↔
      ∃ pending gathered r reports, c.phase = .collecting (pending + 1) gathered ∧
        c.reports = r :: reports ∧ c.limit ≠ 0 ∧
        (pending = 0 ∧
          c' = { c with phase := .delivering (gather gathered r), reports } ∨
         pending ≠ 0 ∧
          c' = { c with phase := .collecting pending (gather gathered r), reports }) := by
  unfold receive?
  constructor
  · intro h
    split at h
    · rename_i pending gathered r reports hp hr
      refine ⟨pending, gathered, r, reports, hp, hr, ?_⟩
      split at h
      · cases h
      · split at h
        · exact ⟨‹_›, .inl ⟨‹_›, (Option.some.inj h).symm⟩⟩
        · exact ⟨‹_›, .inr ⟨‹_›, (Option.some.inj h).symm⟩⟩
    · cases h
  · rintro ⟨pending, gathered, r, reports, hp, hr, hl, ⟨hz, rfl⟩ | ⟨hz, rfl⟩⟩
    · simp only [hp, hr, if_neg hl, if_pos hz]
    · simp only [hp, hr, if_neg hl, if_neg hz]

/-- The collector can run out of time as long as it is collecting.
The error says how many reports are missing, and what has been
gathered is dropped. -/
theorem expire?_eq_some_iff :
    c.expire? = some r ↔
      ∃ pending gathered, c.phase = .collecting pending gathered ∧
        r = ({ c with phase := .joining }, { error := some (c.timeoutError pending) }) := by
  unfold expire?
  constructor
  · intro h
    split at h
    · exact ⟨_, _, ‹_›, (Option.some.inj h).symm⟩
    · cases h
  · rintro ⟨pending, gathered, hp, rfl⟩
    rw [hp]

/-- The collector gives up waiting when it has time, but the channel is
empty and no worker is left that could report. -/
theorem hangUp?_eq_some_iff :
    c.hangUp? = some r ↔
      ∃ pending gathered, c.phase = .collecting (pending + 1) gathered ∧ c.limit ≠ 0 ∧
        c.reports = [] ∧ (∀ w ∈ c.workers, w.stage.hasReported = true) ∧
        r = ({ c with phase := .delivering gathered },
          { lines := [neverReported (pending + 1)] }) := by
  unfold hangUp?
  constructor
  · intro h
    split at h
    · rename_i pending gathered hp
      rw [Option.ite_none_right_eq_some] at h
      obtain ⟨⟨hl, hr, hall⟩, h⟩ := h
      exact ⟨pending, gathered, hp, hl, hr, List.all_eq_true.mp hall, (Option.some.inj h).symm⟩
    · cases h
  · rintro ⟨pending, gathered, hp, hl, hr, hall, rfl⟩
    simp only [hp]
    rw [if_pos ⟨hl, hr, List.all_eq_true.mpr hall⟩]

/-- A snapshot is handed over when it is to be delivered, and the
cycle has it no more. -/
theorem handOver?_eq_some_iff {h : Snapshot × Cycle} :
    c.handOver? = some h ↔
      ∃ snapshot, c.phase = .delivering snapshot ∧
        h = (snapshot, { c with phase := .joining }) := by
  unfold handOver?
  constructor
  · intro hx
    split at hx
    · exact ⟨_, ‹_›, (Option.some.inj hx).symm⟩
    · cases hx
  · rintro ⟨snapshot, hp, rfl⟩
    rw [hp]

/-- The end of a worker is taken note of when the collection is over and
the worker has ended. It is reported if the worker has failed. -/
theorem join?_eq_some_iff :
    c.join? i = some r ↔
      ∃ w o, c.phase = .joining ∧ c.workers[i]? = some w ∧ w.stage = .ended o ∧
        r = (c.setStage i .joined,
          { error := (Worker.failure? o).map (.workerPanicked w.task) }) := by
  unfold join?
  constructor
  · intro h
    split at h
    · split at h
      · exact ⟨_, _, ‹_›, ‹_›, ‹_›, (Option.some.inj h).symm⟩
      · cases h
    · cases h
  · rintro ⟨w, o, hp, hw, hs, rfl⟩
    simp only [hp, hw, hs]

/-- The cycle is over when the end of every worker has been taken note
of. With no workers at all it is over at once. -/
theorem finish?_eq_some_iff :
    c.finish? = some c' ↔
      c.phase = .joining ∧ (∀ w ∈ c.workers, w.stage = .joined) ∧
        c' = { c with phase := .done } := by
  simp only [finish?, Option.ite_none_right_eq_some, List.all_eq_true, decide_eq_true_eq,
    Option.some.injEq, and_assoc, eq_comm (a := c')]

end NpuAttribution.Poll.Cycle
