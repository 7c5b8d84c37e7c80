import Mathlib.Data.List.Pairwise
import NpuAttribution.Proofs.Poll.Endings

/-!
# `NpuAttribution.Proofs.Poll.Outcomes`: what the moves of a run say

What a cycle has done can be read off its moves in a run. A worker passes a milestone in one
move only (`eq_of_passed?`), a listing ends only once (`eq_of_listed`), and the time of a
cycle is over exactly if the cycle says so (`timeouts_of_expire`, `timeouts_of_intime`).

Statements about a cycle are easier to read if they name the outcome of each inspection, as
a function of the worker. No run is left out by this: an inspection ends once, so its end in
the run is the outcome (`exists_follows`).
-/

set_option autoImplicit false

namespace NpuAttribution.Poll

/-- An inspection is behind a worker when it ends, whatever it comes to. -/
theorem Milestone.passed?_concluded {x : Step} {i : Nat} :
    Milestone.concluded.passed? x = some i ↔ ∃ o, x = .move (.conclude i o) := by
  constructor
  · intro h
    cases x with
    | spawn | handOver | drop => cases h
    | move m =>
      cases m with
      | conclude j o =>
        cases h
        exact ⟨o, rfl⟩
      | _ => cases h
  · rintro ⟨o, rfl⟩
    rfl

/-- A worker is behind its cycle when its end has been taken note of. -/
theorem Milestone.passed?_joined {x : Step} {i : Nat} :
    Milestone.joined.passed? x = some i ↔ x = .move (.join i) := by
  constructor
  · intro h
    cases x with
    | spawn | handOver | drop => cases h
    | move m =>
      cases m with
      | join j =>
        cases h
        rfl
      | _ => cases h
  · rintro rfl
    rfl

namespace Cycle

variable {limit : Nat} {steps : List Step} {c : Cycle} {m : Milestone} {x y : Step} {i : Nat}

/-- The workers that pass a milestone, by the steps in which they do.
Whether a step passes a milestone does not depend on the state, so that
no run has to be followed to see it. -/
theorem passing_eq_filterMap (h : Cycle.run? { limit := limit } steps = some c) :
    along step? (passing m) { limit := limit } steps = steps.filterMap m.passed? := by
  refine run?_induction (motive := fun steps _ =>
    along step? (passing m) { limit := limit } steps = steps.filterMap m.passed?) rfl ?_ h
  intro steps c x c' hrun ih hx
  rw [along_append_singleton _ hrun, ih, List.filterMap_append]
  unfold passing
  cases hp : m.passed? x <;> simp [hp]

/-- No worker passes a milestone in two different steps: the workers
that pass it are different from each other (`passing_spec`), and this is
the same said of steps. -/
theorem eq_of_passed? (h : Cycle.run? { limit := limit } steps = some c)
    (hdrop : m.isLate = true ∨ ∀ x ∈ steps, x.drops = false) (hx : x ∈ steps) (hy : y ∈ steps)
    (hxi : m.passed? x = some i) (hyi : m.passed? y = some i) : x = y := by
  have hnodup := (passing_spec (m := m) h hdrop).1
  rw [passing_eq_filterMap h, List.Nodup, List.pairwise_filterMap] at hnodup
  by_contra hne
  -- Two different steps pass it with different workers, whichever of them comes first.
  have hsymm : Std.Symm fun x y : Step =>
      ∀ i, m.passed? x = some i → ∀ j, m.passed? y = some j → i ≠ j :=
    ⟨fun _ _ hxy i hi j hj => (hxy j hj i hi).symm⟩
  exact hnodup.forall hx hy hne i hxi i hyi rfl

/-- The inspections that have ended are those whose end is among the moves. -/
theorem mem_passing_concluded (h : Cycle.run? { limit := limit } steps = some c) :
    i ∈ along step? (passing .concluded) { limit := limit } steps
      ↔ ∃ o, .move (.conclude i o) ∈ steps := by
  rw [passing_eq_filterMap h, List.mem_filterMap]
  constructor
  · rintro ⟨x, hx, hxi⟩
    obtain ⟨o, rfl⟩ := Milestone.passed?_concluded.mp hxi
    exact ⟨o, hx⟩
  · rintro ⟨o, ho⟩
    exact ⟨_, ho, rfl⟩

/-- The workers of whose end the cycle has taken note are those for
which there is such a move. -/
theorem mem_passing_joined (h : Cycle.run? { limit := limit } steps = some c) :
    i ∈ along step? (passing .joined) { limit := limit } steps ↔ .move (.join i) ∈ steps := by
  rw [passing_eq_filterMap h, List.mem_filterMap]
  constructor
  · rintro ⟨x, hx, hxi⟩
    rwa [Milestone.passed?_joined.mp hxi] at hx
  · exact fun hjoin => ⟨_, hjoin, rfl⟩

/-- The inspection of a worker that has reported has ended, as it
stands behind the milestone of the report. A worker that is dropped
reports without this. -/
theorem concluded_of_reported (h : Cycle.run? { limit := limit } steps = some c)
    (hdrop : ∀ x ∈ steps, x.drops = false)
    (hi : i ∈ along step? (passing .reported) { limit := limit } steps) :
    ∃ o, .move (.conclude i o) ∈ steps := by
  rw [← mem_passing_concluded h]
  obtain ⟨s, hstage, hrank⟩ := ((passing_spec (m := .reported) h (.inl rfl)).2 i).mp hi
  refine ((passing_spec (m := .concluded) h (.inr hdrop)).2 i).mpr ⟨s, hstage, ?_⟩
  exact Nat.le_trans (by decide) hrank

/-- A cycle lists containers once: a second listing could only say the same. -/
theorem eq_of_listed (h : Cycle.run? { limit := limit } steps = some c)
    {r r' : Except RuntimeError (List ListedContainer)} (hr : .move (.listed r) ∈ steps)
    (hr' : .move (.listed r') ∈ steps) : r = r' := by
  cases origin_of_run? h with
  | new => cases hr
  | failed | idle | idleDelivered | idleDone =>
    simp at hr hr'
    rw [hr, hr']
  | dispatched containers rest _ _ honce _ =>
    -- The listing is the first step and not among the rest.
    have hfirst {r : Except RuntimeError (List ListedContainer)}
        (hr : .move (.listed r) ∈ Step.move (.listed (.ok containers)) :: rest) :
        r = .ok containers := by
      rcases List.mem_cons.mp hr with heq | hrest
      · cases heq
        rfl
      · exact absurd hrest (honce r)
    rw [hfirst hr, hfirst hr']

/-- A cycle whose time is over has said so once, with the number of
reports that it still waited for. These reports and those that were
received are all, and no snapshot has been delivered. -/
theorem timeouts_of_expire (h : Cycle.run? { limit := limit } steps = some c)
    (hlate : .move .expire ∈ steps) :
    ∃ pending, pending ≠ 0 ∧
      pending + (along step? received { limit := limit } steps).length = c.capacity ∧
      along step? delivered { limit := limit } steps = [] ∧ c.phase.isOver = true ∧
      along step? timeouts { limit := limit } steps = [.timeout limit pending c.capacity] := by
  obtain ⟨u, v, hoccurs⟩ := occurs_of_mem h hlate
  obtain ⟨-, -, -, -, hstep⟩ := id hoccurs
  -- Only a collector finds its time over, and it says so.
  obtain ⟨pending, gathered, hp⟩ : ∃ pending gathered, u.phase = .collecting pending gathered := by
    cases leads_of_step? hstep with
    | expire pending gathered hp => exact ⟨pending, gathered, hp⟩
  have hsaid : u.timeoutError pending ∈ along step? timeouts { limit := limit } steps := by
    refine mem_along_of_occurs hoccurs ?_
    simp [timeouts, errors, move?, expire?, hp, timeoutError, MonitorError.isTimeout]
  by_cases hover : c.phase.isOver = true
  · cases (collected h).ended hover with
    | timedOut pending hpos count kept said _ => exact ⟨pending, hpos, count, kept, hover, said⟩
    | delivered _ silent | unlisted _ _ silent =>
      rw [silent] at hsaid
      cases hsaid
  · rw [((collected h).before (by simpa using hover)).2] at hsaid
    cases hsaid

/-- A cycle whose time is not over does not say that it is, whatever
else it reports. -/
theorem timeouts_of_intime (h : Cycle.run? { limit := limit } steps = some c)
    (hintime : .move .expire ∉ steps) : along step? timeouts { limit := limit } steps = [] := by
  by_cases hover : c.phase.isOver = true
  · cases (collected h).ended hover with
    | timedOut _ _ _ _ _ expired => exact absurd expired hintime
    | delivered _ silent | unlisted _ _ silent => exact silent
  · exact ((collected h).before (by simpa using hover)).2

/-- The steps of a cycle give every inspection an outcome that they
follow. For an inspection that has ended it is the outcome that it had,
which there is only one of; for the others it can be any. -/
theorem exists_follows (h : Cycle.run? { limit := limit } steps = some c)
    (hdrop : ∀ x ∈ steps, x.drops = false) : ∃ outcome, ∀ x ∈ steps, x.Follows outcome := by
  have hone (i : Nat) : ∃ o, ∀ o', .move (.conclude i o') ∈ steps → o' = o := by
    by_cases hended : ∃ o, .move (.conclude i o) ∈ steps
    · obtain ⟨o, ho⟩ := hended
      refine ⟨o, fun o' ho' => ?_⟩
      have hsame := eq_of_passed? (m := .concluded) (i := i) h (.inr hdrop) ho' ho rfl rfl
      cases hsame
      rfl
    · exact ⟨.unassigned, fun o' ho' => absurd ⟨o', ho'⟩ hended⟩
  choose outcome houtcome using hone
  refine ⟨outcome, fun x hx => ?_⟩
  cases x with
  | spawn | handOver => trivial
  | drop i =>
    have hno := hdrop _ hx
    cases hno
  | move m =>
    cases m with
    | conclude i o => exact houtcome i o hx
    | _ => trivial

end Cycle

namespace State

variable {s t : State} {es : List Event} {k : Nat}

/-- The moves of a cycle in a run are those among its steps. -/
theorem mem_stepsOf_iff (h : s.run? es = some t) {m : Move} :
    .move m ∈ s.stepsOf k es ↔ .move k m ∈ es :=
  ⟨fun hm => (mem_of_mem_stepsOf h hm).2 m rfl, mem_stepsOf_of_move h⟩

/-- No worker is dropped in a run: this is a step of a cycle, but no
event of the monitor. -/
theorem drops_stepsOf (h : s.run? es = some t) : ∀ x ∈ s.stepsOf k es, x.drops = false :=
  fun _ hx => (mem_of_mem_stepsOf h hx).1

/-- Something is seen only of cycles that have been started. -/
theorem lt_of_mem_observe {α : Type} {see : Cycle → Step → List α} {a : α}
    (h : s.run? es = some t) (ha : a ∈ s.observe k see es) : k < t.cycles.length := by
  revert ha
  refine follow_induction
    (motive := fun es t => a ∈ s.observe k see es → k < t.cycles.length) nofun ?_ h
  intro es u e v hrun ih hstep ha
  have hle := length_cycles_le hstep
  have hsee : s.observe k see (es ++ [e]) = s.observe k see es ++ watch k see u e :=
    along_append_singleton _ hrun
  rw [hsee] at ha
  rcases List.mem_append.mp ha with hold | hnew
  · have hlt := ih hold
    omega
  · obtain ⟨c, -, hc, -⟩ := mem_watch hnew
    have hlt := (List.getElem?_eq_some_iff.mp hc).1
    omega

end State

end NpuAttribution.Poll
