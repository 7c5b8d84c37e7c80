import NpuAttribution.Proofs.Poll.Permits

/-!
# `NpuAttribution.Proofs.Poll.Milestones`: every worker passes every milestone once

A worker begins its inspection, ends it, reports, and has its end taken note of. Each of
these is one kind of step, and the stage of a worker tells which of them are behind it.
`passing_spec` makes this precise for all of them at once: the workers that pass a milestone
along the steps of a cycle are different from each other, and they are the workers whose
stage is beyond the milestone.

A worker that is dropped goes past the inspection without having begun or ended it. For
these two milestones the statements therefore need that no worker is dropped. It still
reports and is joined like any other.
-/

set_option autoImplicit false

namespace NpuAttribution.Poll

/-- How far along its way a worker is in a stage. -/
def Stage.rank : Stage → Nat
  | .dispatched => 0
  | .waiting => 1
  | .admitted => 2
  | .inspecting => 3
  | .concluded _ => 4
  | .released _ => 5
  | .ended _ => 6
  | .joined => 7

/-- How far along the way a milestone stands. -/
def Milestone.rank : Milestone → Nat
  | .begun => 3
  | .concluded => 4
  | .reported => 6
  | .joined => 7

/-- Whether a worker that is dropped passes a milestone like any other. -/
def Milestone.isLate : Milestone → Bool
  | .reported => true
  | .joined => true
  | _ => false

/-- The stages of a worker that has reported are those past the
milestone of the report. -/
theorem Stage.hasReported_iff (s : Stage) :
    s.hasReported = true ↔ Milestone.reported.rank ≤ s.rank := by
  cases s <;> simp [hasReported, rank, Milestone.rank]

/-- The stages between which a step takes the worker that makes it. -/
inductive Advance : Step → Nat → Stage → Stage → Prop
  | grant (i : Nat) : Advance (.move (.ask i)) i .dispatched .admitted
  | enqueue (i : Nat) : Advance (.move (.ask i)) i .dispatched .waiting
  | begin (i : Nat) : Advance (.move (.begin i)) i .admitted .inspecting
  | conclude (i : Nat) (o : Outcome) :
    Advance (.move (.conclude i o)) i .inspecting (.concluded o)
  | release (i : Nat) (o : Outcome) :
    Advance (.move (.release i)) i (.concluded o) (.released (some o))
  | report (i : Nat) (o : Option Outcome) : Advance (.move (.report i)) i (.released o) (.ended o)
  | join (i : Nat) (o : Option Outcome) : Advance (.move (.join i)) i (.ended o) .joined
  | dropIdle (i : Nat) : Advance (.drop i) i .dispatched (.released none)
  | dropWaiting (i : Nat) : Advance (.drop i) i .waiting (.released none)
  | dropAdmitted (i : Nat) : Advance (.drop i) i .admitted (.released none)
  | dropInspecting (i : Nat) : Advance (.drop i) i .inspecting (.released none)

/-- No worker goes back: every step takes the worker that makes it
to a later stage. -/
theorem Advance.rank_lt {x : Step} {i : Nat} {s s' : Stage} (h : Advance x i s s') :
    s.rank < s'.rank := by
  cases h <;> simp [Stage.rank]

/-- A worker passes the milestones that stand between the two stages and
no others. This is where the numbers of stages and milestones are
compared; it fails for a worker that is dropped and a milestone of the
inspection, which is why these two are excluded. -/
theorem Advance.passed?_iff {m : Milestone} {x : Step} {i : Nat} {s s' : Stage}
    (h : Advance x i s s') (hdrop : x.drops = true → m.isLate = true) (j : Nat) :
    m.passed? x = some j ↔ i = j ∧ s.rank < m.rank ∧ m.rank ≤ s'.rank := by
  cases h <;> cases m <;>
    simp_all [Milestone.passed?, Milestone.rank, Milestone.isLate, Stage.rank, Step.drops]

namespace Cycle

/-- A worker has passed a milestone. -/
def Past (m : Milestone) (c : Cycle) (i : Nat) : Prop :=
  ∃ s, c.stage? i = some s ∧ m.rank ≤ s.rank

/-- The worker that passes the milestone in a step, if there is one, is
the only change to who has passed it, and had not passed it before. -/
def Passes (m : Milestone) (x : Step) (c c' : Cycle) : Prop :=
  ∀ j, (Past m c' j ↔ Past m c j ∨ m.passed? x = some j) ∧
    (m.passed? x = some j → ¬ Past m c j)

/-- A step that passes no milestone and leaves the stages of all workers
alone changes nothing about who is past the milestone. -/
theorem passes_of_stages {m : Milestone} {x : Step} {c c' : Cycle} (hx : m.passed? x = none)
    (hs : ∀ j, c'.stage? j = c.stage? j) : Passes m x c c' := by
  intro j
  simp [Past, hs, hx]

/-- A worker that gets on passes the milestones on its way, and nobody
else passes any. -/
theorem passes_setStage {m : Milestone} {x : Step} {c : Cycle} {i : Nat} {s s' : Stage}
    (hs : c.stage? i = some s) (h : Advance x i s s') (hdrop : x.drops = true → m.isLate = true) :
    Passes m x c (c.setStage i s') := by
  intro j
  rw [h.passed?_iff hdrop]
  have hon := h.rank_lt
  -- Only worker `i` gets on. It was not past any milestone on its way.
  by_cases hj : i = j
  · subst hj
    simp only [Past, stage?_setStage_self c i s' hs, hs, Option.some.injEq, exists_eq_left',
      true_and]
    exact ⟨by omega, by omega⟩
  · simp [Past, stage?_setStage, hj]

/-- Getting on from waiting to being admitted passes no milestone, since
the first one stands behind that. -/
theorem past_admitted {m : Milestone} {c : Cycle} {i : Nat} (hs : c.stage? i = some .waiting)
    (j : Nat) : Past m (c.setStage i .admitted) j ↔ Past m c j := by
  by_cases hj : i = j
  · subst hj
    simp only [Past, stage?_setStage_self c i .admitted hs, hs, Option.some.injEq,
      exists_eq_left']
    cases m <;> simp [Milestone.rank, Stage.rank]
  · simp [Past, stage?_setStage, hj]

/-- Passing the permit of a worker on to the first in the queue passes
what the worker itself passes. Two workers get on in such a step, but
the one that is admitted passes nothing. -/
theorem passes_passOn {m : Milestone} {x : Step} {c : Cycle} (hkept : PermitsKept c)
    {i next : Nat} {queue : List Nat} {s s' : Stage} (hs : c.stage? i = some s)
    (hwait : s ≠ .waiting) (h : Advance x i s s') (hdrop : x.drops = true → m.isLate = true)
    (hq : c.queue = next :: queue) :
    Passes m x c { (c.setStage i s').setStage next .admitted with queue } := by
  have hnext := waiting_setStage hkept hs hwait hq s'
  have hpasses := passes_setStage hs h hdrop
  intro j
  refine ⟨?_, (hpasses j).2⟩
  -- Beyond what worker `i` passes, `next` is admitted, which passes nothing.
  show Past m ((c.setStage i s').setStage next .admitted) j ↔ _
  rw [past_admitted hnext, (hpasses j).1]

/-- Every step passes the milestones that it is said to pass. Most steps
are one worker getting on, so what is left to say in each case is
between which stages. -/
theorem passes_of_leads {m : Milestone} {c c' : Cycle} {x : Step} (hkept : PermitsKept c)
    (hdrop : x.drops = true → m.isLate = true) (hx : Leads c x c') : Passes m x c c' := by
  cases hx with
  | spawn task container left hp =>
    intro j
    have hnone : m.passed? (.spawn task) = none := by cases m <;> rfl
    simp only [Past, stage?_append, hnone]
    split
    · rename_i hj
      have hno : c.stage? j = none := by simp [stage?, hj]
      cases m <;> simp [hno, Milestone.rank, Stage.rank]
    · simp
  | grant i permits hs hpermits => exact passes_setStage hs (.grant i) hdrop
  | enqueue i hs hpermits => exact passes_setStage hs (.enqueue i) hdrop
  | begin i hs => exact passes_setStage hs (.begin i) hdrop
  | conclude i o hs => exact passes_setStage hs (.conclude i o) hdrop
  | release i o hs hq => exact passes_setStage hs (.release i o) hdrop
  -- Two workers get on if a permit is passed on.
  | releaseTo i o next queue hs hq =>
    exact passes_passOn hkept hs (by simp) (.release i o) hdrop hq
  | report i w o hw hs =>
    have h := passes_setStage (stage?_eq_some_iff.mpr ⟨w, hw, hs⟩) (.report i o) hdrop
    unfold send
    split
    · exact h
    · exact h
  | join i o hp hs => exact passes_setStage hs (.join i o) hdrop
  | dropIdle i hs => exact passes_setStage hs (.dropIdle i) hdrop
  | dropWaiting i hs => exact passes_setStage hs (.dropWaiting i) hdrop
  | dropBusy i hs hq =>
    rcases hs with hs | hs
    · exact passes_setStage hs (.dropAdmitted i) hdrop
    · exact passes_setStage hs (.dropInspecting i) hdrop
  | dropBusyTo i next queue hs hq =>
    rcases hs with hs | hs
    · exact passes_passOn hkept hs (by simp) (.dropAdmitted i) hdrop hq
    · exact passes_passOn hkept hs (by simp) (.dropInspecting i) hdrop hq
  | failed | idle | listed | collect | receive | complete | expire | hangUp | handOver | finish =>
    exact passes_of_stages (by cases m <;> rfl) fun _ => rfl

/-- The workers that pass a milestone are different from each other, and
they are the workers that are past it. By induction on the run: in one
step nobody passes the milestone, or somebody who was not past it before
and is past it now. -/
theorem passing_spec {limit : Nat} {steps : List Step} {c : Cycle} {m : Milestone}
    (h : Cycle.run? { limit := limit } steps = some c)
    (hdrop : m.isLate = true ∨ ∀ x ∈ steps, x.drops = false) :
    (along step? (passing m) { limit := limit } steps).Nodup ∧
      ∀ i, i ∈ along step? (passing m) { limit := limit } steps ↔ Past m c i := by
  revert hdrop
  refine run?_induction (motive := fun steps c =>
    (m.isLate = true ∨ ∀ x ∈ steps, x.drops = false) →
      (along step? (passing m) { limit := limit } steps).Nodup ∧
      ∀ i, i ∈ along step? (passing m) { limit := limit } steps ↔ Past m c i) ?_ ?_ h
  · intro _
    refine ⟨List.nodup_nil, fun i => ?_⟩
    simp [along, Past, stage?]
  · intro steps c x c' hrun ih hx hdrop
    obtain ⟨hnodup, hmem⟩ := ih (hdrop.imp_right fun h y hy => h y (List.mem_append_left _ hy))
    have hpasses : Passes m x c c' := by
      refine passes_of_leads (permitsKept hrun) (fun hd => ?_) hx
      rcases hdrop with hm | hno
      · exact hm
      · rw [hno x (by simp)] at hd
        cases hd
    rw [along_append_singleton _ hrun]
    unfold passing at hnodup hmem ⊢
    -- The workers so far are those that were past the milestone, by induction. In this step
    -- nobody passes it, or somebody who was not past it.
    cases hp : m.passed? x with
    | none =>
      refine ⟨by simpa using hnodup, fun i => ?_⟩
      simpa [hp, hmem] using ((hpasses i).1).symm
    | some k =>
      refine ⟨?_, fun i => ?_⟩
      · rw [List.nodup_append]
        refine ⟨hnodup, by simp, fun a ha b hb hab => ?_⟩
        simp only [Option.toList_some, List.mem_singleton] at hb
        subst hb hab
        -- A worker that has passed the milestone before cannot pass it now.
        exact (hpasses a).2 hp ((hmem a).mp ha)
      · rw [(hpasses i).1, List.mem_append, hmem, hp]
        simp [eq_comm]

/-- The number of elements with a property, counted by their
positions. Workers are seen by their positions, but it is the workers
that are to be counted. -/
theorem length_filter_range {α : Type} (p : α → Bool) (l : List α) :
    ((List.range l.length).filter fun i => l[i]?.any p).length = l.countP p := by
  -- Positions are counted from the front, so the list is taken apart at its end.
  induction l using List.reverseRecOn with
  | nil => rfl
  | append_singleton l a ih =>
    have hold : (List.range l.length).filter (fun i => (l ++ [a])[i]?.any p)
        = (List.range l.length).filter fun i => l[i]?.any p := by
      apply List.filter_congr
      intro i hi
      rw [List.getElem?_append_left (List.mem_range.mp hi)]
    rw [List.length_append, List.length_singleton, List.range_succ, List.filter_append, hold,
      List.length_append, ih, List.countP_append]
    cases hp : p a <;> simp [hp]

/-- The workers that pass a milestone, in whatever order they do, are
the workers that are past it. If all workers are past it, then this is a
permutation of all of them. -/
theorem passing_perm {limit : Nat} {steps : List Step} {c : Cycle} {m : Milestone}
    (h : Cycle.run? { limit := limit } steps = some c)
    (hdrop : m.isLate = true ∨ ∀ x ∈ steps, x.drops = false) :
    (along step? (passing m) { limit := limit } steps).Perm
      ((List.range c.workers.length).filter fun i =>
        c.workers[i]?.any fun w => m.rank ≤ w.stage.rank) := by
  obtain ⟨hnodup, hmem⟩ := passing_spec h hdrop
  -- Neither list repeats itself, so they only need to have the same members.
  rw [List.perm_ext_iff_of_nodup hnodup (List.nodup_range.filter _)]
  intro i
  rw [hmem, List.mem_filter, List.mem_range, Past]
  simp only [stage?_eq_some_iff]
  constructor
  · rintro ⟨_, ⟨w, hw, rfl⟩, hm⟩
    exact ⟨(List.getElem?_eq_some_iff.mp hw).1, by simpa [hw] using hm⟩
  · rintro ⟨hi, hany⟩
    obtain ⟨w, hw, hm⟩ := (Option.any_eq_true _ _).mp hany
    exact ⟨w.stage, ⟨w, hw, rfl⟩, by simpa using hm⟩

/-- So many workers have passed a milestone along the steps as are
past it in the end. -/
theorem length_passing {limit : Nat} {steps : List Step} {c : Cycle} {m : Milestone}
    (h : Cycle.run? { limit := limit } steps = some c)
    (hdrop : m.isLate = true ∨ ∀ x ∈ steps, x.drops = false) :
    (along step? (passing m) { limit := limit } steps).length
      = c.workers.countP fun w => m.rank ≤ w.stage.rank := by
  rw [(passing_perm h hdrop).length_eq, length_filter_range]

end Cycle

end NpuAttribution.Poll
