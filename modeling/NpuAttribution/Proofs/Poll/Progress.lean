import NpuAttribution.Proofs.Poll.Reports

/-!
# `NpuAttribution.Proofs.Poll.Progress`: every cycle comes to its end

Two facts together say that a cycle ends whatever order its steps take. `toGo` bounds the
steps that a cycle has before it, and every step makes it smaller, so there are only so many
of them (`length_add_toGo_le`). And before the end some step is always possible
(`exists_orderly_step`), even if no worker is dropped and time does not run out.

The second fact is about permits and reports. A worker that waits for a permit cannot get on
by itself, but then some other worker holds a permit and can. A collector without reports
waits for a worker that has not reported, and such a worker can get on, or again another one
can.
-/

set_option autoImplicit false

namespace NpuAttribution.Poll

/-- The steps that a worker has before it, at most. -/
def Stage.toGo (s : Stage) : Nat := 7 - s.rank

/-- The steps that a cycle itself has before it, at most, with those of
the workers that it still has to dispatch. -/
def Phase.toGo (workers : Nat) : Phase → Nat
  | .listing => 9 * Listing.maxContainers + workers + 4
  | .dispatching left => 9 * left.length + workers + 3
  | .collecting pending _ => pending + 2
  | .delivering _ => 2
  | .joining => 1
  | .done => 0

namespace Cycle

/-- The steps that a cycle and its workers have before them, at most. -/
def toGo (c : Cycle) : Nat := c.phase.toGo c.workers.length + c.total Stage.toGo

/-- A worker that gets on has fewer steps before it, and the others have
as many as before. -/
theorem total_toGo_lt {c : Cycle} {x : Step} {i : Nat} {s s' : Stage}
    (hs : c.stage? i = some s) (h : Advance x i s s') :
    (c.setStage i s').total Stage.toGo < c.total Stage.toGo := by
  -- The sum changes by this worker alone, whose rank grows up to the largest one.
  have htotal := total_setStage Stage.toGo hs s'
  have hrank := h.rank_lt
  have hmax : s'.rank ≤ 7 := by cases s' <;> simp [Stage.rank]
  unfold Stage.toGo at htotal ⊢
  omega

/-- So has the cycle if nothing else happens to it that counts: permits,
queue and reports do not. -/
theorem toGo_setStage_lt {c c' : Cycle} {x : Step} {i : Nat} {s s' : Stage}
    (hs : c.stage? i = some s) (h : Advance x i s s') (hphase : c'.phase = c.phase)
    (hworkers : c'.workers = (c.setStage i s').workers) : c'.toGo < c.toGo := by
  have hlt := total_toGo_lt hs h
  have hlength := length_workers_setStage c i s'
  unfold toGo total at *
  rw [hphase, hworkers, hlength]
  omega

/-- Passing a permit on brings two workers nearer to their end, the one
that returns it and the one that is admitted. -/
theorem toGo_passOn_lt {c c' : Cycle} (hkept : PermitsKept c) {x : Step} {i next : Nat}
    {queue : List Nat} {s s' : Stage} (hs : c.stage? i = some s) (hwait : s ≠ .waiting)
    (h : Advance x i s s') (hq : c.queue = next :: queue) (hphase : c'.phase = c.phase)
    (hworkers : c'.workers = ((c.setStage i s').setStage next .admitted).workers) :
    c'.toGo < c.toGo := by
  have hnext := waiting_setStage hkept hs hwait hq s'
  have hlt := total_toGo_lt hs h
  have hgrant := total_setStage Stage.toGo hnext .admitted
  have hlength : c'.workers.length = c.workers.length := by simp [hworkers]
  -- One worker gets on by its step and the other by being admitted.
  simp only [Stage.toGo, Stage.rank] at hgrant
  unfold toGo total at *
  rw [hphase, hlength, hworkers]
  omega

/-- Every step brings the cycle nearer to its end. The steps of a worker
lower its own number, and the steps of the cycle lower the number of its
phase, which is large enough to pay for the workers that are still to be
dispatched and for the reports that are still to be received. -/
theorem toGo_lt {c c' : Cycle} {x : Step} (hkept : PermitsKept c) (hx : Leads c x c') :
    c'.toGo < c.toGo := by
  cases hx with
  | spawn task container left hp =>
    -- A dispatch costs nine steps and gives a worker seven and a report one.
    simp only [toGo, hp, Phase.toGo, total, List.length_append, List.length_cons,
      List.length_nil, List.map_append, List.sum_append, List.map_cons, List.map_nil,
      List.sum_cons, List.sum_nil, Stage.toGo, Stage.rank]
    omega
  | failed | idle | collect | receive | complete | expire | hangUp | handOver | finish =>
    simp [toGo, *, Phase.toGo, total]
  | listed containers hp hne hmax =>
    simp only [toGo, hp, Phase.toGo, total]
    omega
  | grant i _ hs => exact toGo_setStage_lt hs (.grant i) rfl rfl
  | enqueue i hs => exact toGo_setStage_lt hs (.enqueue i) rfl rfl
  | begin i hs => exact toGo_setStage_lt hs (.begin i) rfl rfl
  | conclude i o hs => exact toGo_setStage_lt hs (.conclude i o) rfl rfl
  | release i o hs => exact toGo_setStage_lt hs (.release i o) rfl rfl
  | releaseTo i o next queue hs hq =>
    exact toGo_passOn_lt hkept hs (by simp) (.release i o) hq rfl rfl
  | report i w o hw hs =>
    have hs' := stage?_eq_some_iff.mpr ⟨w, hw, hs⟩
    unfold send
    split
    · exact toGo_setStage_lt hs' (.report i o) rfl rfl
    · exact toGo_setStage_lt hs' (.report i o) rfl rfl
  | join i o hp hs => exact toGo_setStage_lt hs (.join i o) rfl rfl
  | dropIdle i hs => exact toGo_setStage_lt hs (.dropIdle i) rfl rfl
  | dropWaiting i hs => exact toGo_setStage_lt hs (.dropWaiting i) rfl rfl
  | dropBusy i hs hq =>
    rcases hs with hs | hs
    · exact toGo_setStage_lt hs (.dropAdmitted i) rfl rfl
    · exact toGo_setStage_lt hs (.dropInspecting i) rfl rfl
  | dropBusyTo i next queue hs hq =>
    rcases hs with hs | hs
    · exact toGo_passOn_lt hkept hs (by simp) (.dropAdmitted i) hq rfl rfl
    · exact toGo_passOn_lt hkept hs (by simp) (.dropInspecting i) hq rfl rfl

/-- However long a cycle has gone on, this many steps are the most that
it can make. It is the bound for the largest listing that there can be,
and holds for every other one as well. -/
theorem length_add_toGo_le {limit : Nat} {steps : List Step} {c : Cycle}
    (h : Cycle.run? { limit := limit } steps = some c) :
    steps.length + c.toGo ≤ 9 * Listing.maxContainers + 4 := by
  refine run?_induction
    (motive := fun steps c => steps.length + c.toGo ≤ 9 * Listing.maxContainers + 4) ?_ ?_ h
  · exact Nat.le_of_eq (by simp [toGo, Phase.toGo, total])
  · intro steps c x c' hrun ih hx
    have hlt := toGo_lt (permitsKept hrun) hx
    rw [List.length_append, List.length_singleton]
    omega

end Cycle

/-- A step that neither drops a worker nor finds the time over. A worker
that it dispatches is the task with the given number, and an inspection
that it ends has the given outcome. -/
def Step.Orderly (task : Nat) (outcome : Nat → Outcome) : Step → Prop
  | .spawn t => t = task
  | .move .expire => False
  | .move (.conclude i o) => o = outcome i
  | .drop _ => False
  | _ => True

namespace Cycle

/-- A step of the given kind is possible. -/
def CanStep (task : Nat) (outcome : Nat → Outcome) (c : Cycle) : Prop :=
  ∃ x c', x.Orderly task outcome ∧ c.step? x = some c'

section

variable {task : Nat} {outcome : Nat → Outcome} {limit : Nat} {steps : List Step} {c : Cycle}

/-- A worker that holds a permit can get on: nothing that it does next
has to wait for anybody. -/
theorem canStep_of_permit {i : Nat} {s : Stage} (hs : c.stage? i = some s)
    (h : 0 < s.permits) : c.CanStep task outcome := by
  cases s with
  | admitted =>
    exact ⟨.move (.begin i), c.setStage i .inspecting, trivial,
      by simp [step?, move?, Effect.without, begin?, hs]⟩
  | inspecting =>
    exact ⟨.move (.conclude i (outcome i)), c.setStage i (.concluded (outcome i)), rfl,
      by simp [step?, move?, conclude?, hs]⟩
  | concluded o =>
    exact ⟨.move (.release i), (c.setStage i (.released (some o))).putPermit, trivial,
      by simp [step?, move?, Effect.without, release?, hs]⟩
  | dispatched | waiting | released | ended | joined => simp [Stage.permits] at h

/-- If all permits are gone, then somebody holds one, since they
have not been lost. -/
theorem exists_holder (hkept : PermitsKept c) (h : c.permits = 0) :
    ∃ i s, c.stage? i = some s ∧ 0 < s.permits := by
  -- Otherwise the permits would add up to none at all.
  by_contra hno
  push Not at hno
  have hzero : c.total Stage.permits = 0 := by
    unfold total
    refine List.sum_eq_zero fun n hn => ?_
    obtain ⟨w, hw, rfl⟩ := List.mem_map.mp hn
    obtain ⟨i, hi⟩ := List.mem_iff_getElem?.mp hw
    have := hno i w.stage (stage?_eq_some_iff.mpr ⟨w, hi, rfl⟩)
    omega
  have htotal := hkept.total
  rw [h, hzero] at htotal
  exact absurd htotal (by decide)

/-- If a worker has not reported, then it can get on, or another one
can. Only a worker that waits for a permit is stuck, and then the
permits are with others that are not. -/
theorem canStep_of_unreported (hkept : PermitsKept c) {i : Nat} {w : Worker}
    (hw : c.workers[i]? = some w) (h : w.stage.hasReported = false) :
    c.CanStep task outcome := by
  have hs : c.stage? i = some w.stage := stage?_eq_some_iff.mpr ⟨w, hw, rfl⟩
  cases hstage : w.stage with
  | dispatched =>
    rw [hstage] at hs
    cases hp : c.permits with
    | zero =>
      exact ⟨.move (.ask i), { c.setStage i .waiting with queue := c.queue ++ [i] }, trivial,
        by simp [step?, move?, Effect.without, ask?, hs, hp]⟩
    | succ permits =>
      exact ⟨.move (.ask i), { c.setStage i .admitted with permits }, trivial,
        by simp [step?, move?, Effect.without, ask?, hs, hp]⟩
  | waiting =>
    -- The worker itself is stuck, but only as long as others hold all permits.
    rw [hstage] at hs
    have hmem := (hkept.queued i).mpr hs
    have hfree := hkept.scarce (List.ne_nil_of_mem hmem)
    obtain ⟨j, s, hj, hpos⟩ := exists_holder hkept hfree
    exact canStep_of_permit hj hpos
  | admitted | inspecting | concluded =>
    rw [hstage] at hs
    exact canStep_of_permit hs (by simp [Stage.permits])
  | released o =>
    exact ⟨.move (.report i), (c.setStage i (.ended o)).send (w.message o), trivial,
      by simp [step?, move?, Effect.without, report?, hw, hstage]⟩
  | ended | joined =>
    rw [hstage] at h
    cases h

/-- The collector can receive a report, or a worker on whose report it
waits can get on, if there is any time at all. With a time limit of zero
a collector receives nothing, even if reports are there. -/
theorem canStep_of_collecting (hrun : Cycle.run? { limit := limit } steps = some c)
    {pending : Nat} {gathered : Snapshot} (hp : c.phase = .collecting pending gathered)
    (hl : c.limit ≠ 0) : c.CanStep task outcome := by
  -- A collector does not wait for nothing, so one more report can be received.
  have hne := ((ledger hrun).pending pending gathered hp).1
  obtain ⟨n, rfl⟩ := Nat.exists_eq_succ_of_ne_zero hne
  cases hr : c.reports with
  | cons r reports =>
    by_cases hn : n = 0
    · exact ⟨.move .receive, { c with phase := .delivering (gather gathered r), reports }, trivial,
        by simp [step?, move?, Effect.without, receive?, hp, hr, hl, hn]⟩
    · exact ⟨.move .receive, { c with phase := .collecting n (gather gathered r), reports },
        trivial, by simp [step?, move?, Effect.without, receive?, hp, hr, hl, hn]⟩
  | nil =>
    -- No report is on the channel, so somebody has to get on first.
    obtain ⟨i, w, hw, hno⟩ := exists_unreported hrun hp hr
    exact canStep_of_unreported (permitsKept hrun) hw hno

/-- A cycle that waits for its workers can take note of the end of one
of them, or one of them can get on, or the cycle can end. -/
theorem canStep_of_joining (hkept : PermitsKept c) (hp : c.phase = .joining) :
    c.CanStep task outcome := by
  by_cases hall : ∀ w ∈ c.workers, w.stage = .joined
  · exact ⟨.move .finish, { c with phase := .done }, trivial,
      by simpa [step?, move?, Effect.without, finish?, hp] using hall⟩
  · push Not at hall
    obtain ⟨w, hmem, hw⟩ := hall
    obtain ⟨i, hi⟩ := List.mem_iff_getElem?.mp hmem
    cases hstage : w.stage with
    | ended o =>
      exact ⟨.move (.join i), c.setStage i .joined, trivial,
        by simp [step?, move?, join?, hp, hi, hstage]⟩
    | joined => exact absurd hstage hw
    | dispatched | waiting | admitted | inspecting | concluded | released =>
      exact canStep_of_unreported hkept hi (by rw [hstage]; rfl)

/-- Before its end a cycle can always make another step: it does not
need its workers to be dropped or its time to be over for this, except
if it has no time. Together with `length_add_toGo_le` this is why
every cycle ends. -/
theorem exists_orderly_step (task : Nat) (outcome : Nat → Outcome)
    (hrun : Cycle.run? { limit := limit } steps = some c)
    (hlisted : c.phase ≠ .listing) (hdone : c.phase ≠ .done) :
    c.CanStep task outcome ∨
      limit = 0 ∧ ∃ pending gathered, c.phase = .collecting pending gathered := by
  cases hp : c.phase with
  | listing => exact absurd hp hlisted
  | done => exact absurd hp hdone
  | dispatching left =>
    left
    -- All containers have a worker and the collection begins, or the next one gets
    -- its own.
    cases left with
    | nil =>
      exact ⟨.move .collect, { c with phase := .collecting c.workers.length .empty }, trivial,
        by simp [step?, move?, Effect.without, collect?, hp]⟩
    | cons container left =>
      exact ⟨.spawn task, _, rfl, by simp only [step?, spawn?, hp]; rfl⟩
  | collecting pending gathered =>
    by_cases hl : limit = 0
    · exact .inr ⟨hl, pending, gathered, rfl⟩
    · refine .inl (canStep_of_collecting hrun hp ?_)
      rw [limit_of_run? hrun]
      exact hl
  | delivering snapshot =>
    exact .inl ⟨.handOver, { c with phase := .joining }, trivial,
      by simp [step?, handOver?, hp]⟩
  | joining => exact .inl (canStep_of_joining (permitsKept hrun) hp)

end

end Cycle

end NpuAttribution.Poll
