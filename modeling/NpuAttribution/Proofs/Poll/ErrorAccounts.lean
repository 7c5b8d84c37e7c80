import NpuAttribution.Proofs.Poll.ErrorQueue
import NpuAttribution.Proofs.Poll.Outcomes

/-!
# `NpuAttribution.Proofs.Poll.ErrorAccounts`: no error disappears silently

A cycle reports an error if it cannot list containers, if its time is over, for each
inspection that fails, and for each worker whose task ends in a panic. Each of these is
reported once, and nothing else is (`errors_perm`). What is reported is then queued or
dropped, which is what `ErrorQueue` is about.

`errors_accounted` puts both together for one cycle among others. If it is the only one and
nobody receives errors, then those in the queue and the lines about dropped ones can be
counted: there is one for each container that fails, and one more if the cycle as a whole
has failed.
-/

set_option autoImplicit false

namespace NpuAttribution.Poll

/-- What is seen in the same way in each of the given steps is seen
along them in the same way, from whatever state the steps are made. -/
theorem along_congr {σ ε α : Type} {step : σ → ε → Option σ} {see see' : σ → ε → List α}
    {es : List ε} (h : ∀ e ∈ es, ∀ s, see s e = see' s e) (s : σ) :
    along step see s es = along step see' s es := by
  induction es generalizing s with
  | nil => rfl
  | cons e es ih =>
    have hrest := ih fun e' he' => h e' (List.mem_cons_of_mem e he')
    simp only [along, h e List.mem_cons_self, hrest]

/-- If each element counts once in one of two ways or not at all, then
those that count are counted in both ways together. This adds up
inspections that end with an error and workers that end in a panic. -/
theorem length_flatMap_add {α : Type} {f g : Nat → List α} {p : Nat → Bool} {l : List Nat}
    (h : ∀ i ∈ l, (f i).length + (g i).length = (p i).toNat) :
    (l.flatMap f).length + (l.flatMap g).length = l.countP p := by
  induction l with
  | nil => rfl
  | cons i l ih =>
    have hrest := ih fun j hj => h j (List.mem_cons_of_mem i hj)
    have hfirst := h i List.mem_cons_self
    have hcount : (if p i = true then 1 else 0) = (p i).toNat := by cases p i <;> rfl
    rw [List.flatMap_cons, List.flatMap_cons, List.length_append, List.length_append,
      List.countP_cons, hcount]
    omega

/-- Whether an inspection has failed, with an error or in a panic. -/
def Outcome.fails : Outcome → Bool
  | .failed _ => true
  | .panicked _ => true
  | _ => false

namespace Cycle

/-- The numbers of the workers' tasks. -/
def tasks (c : Cycle) : List Nat := c.workers.map (·.task)

/-- The error that a cycle reports about the end of a worker, if the
inspection has the given outcome. -/
def panics (outcome : Nat → Outcome) (c : Cycle) (i : Nat) : List MonitorError :=
  (c.tasks[i]?.bind fun task =>
    (Worker.failure? (some (outcome i))).map (.workerPanicked task)).toList

section

variable {limit : Nat} {outcome : Nat → Outcome} {steps : List Step} {c c' : Cycle} {x : Step}

/-- The stage that a worker is in does not matter for its task. -/
@[simp] theorem tasks_setStage (c : Cycle) (i : Nat) (s : Stage) :
    (c.setStage i s).tasks = c.tasks := by
  unfold tasks
  apply List.ext_getElem?
  intro j
  simp only [setStage, List.getElem?_map, List.getElem?_modify]
  cases c.workers[j]? with
  | none => rfl
  | some w => split <;> rfl

/-- A report does not change the task of any worker. -/
@[simp] theorem tasks_send (c : Cycle) (r : Option Assignment) : (c.send r).tasks = c.tasks := by
  unfold tasks
  rw [workers_send]

/-- Workers keep their tasks: a step dispatches one more worker at most,
behind those that are there already. -/
theorem tasks_step (hx : Leads c x c') : c.tasks <+: c'.tasks := by
  cases hx with
  | spawn task container left hp => simp [tasks]
  | report i w o hw hs => simp
  | releaseTo i o next queue | dropBusyTo i next queue =>
    show c.tasks <+: ((c.setStage i _).setStage next .admitted).tasks
    simp
  | grant i | enqueue i | release i | dropWaiting i | dropBusy i =>
    show c.tasks <+: (c.setStage i _).tasks
    simp
  | begin | conclude | join | dropIdle => simp
  | failed | idle | listed | collect | receive | complete | expire | hangUp | handOver | finish =>
    exact List.prefix_refl _

/-- The error about a worker stays the same when more workers are
dispatched, as it depends on the worker's task and on its outcome only. -/
theorem panics_of_prefix (h : c.tasks <+: c'.tasks) {i : Nat} (hi : i < c.tasks.length) :
    panics outcome c' i = panics outcome c i := by
  unfold panics
  rw [List.prefix_iff_getElem?.mp h i hi, List.getElem?_eq_getElem hi]

/-- The errors of a step other than a failed listing: the time is over,
an inspection ends with an error, or a worker has ended in a panic. At
most one of the three lists is not empty, and it has one element then. -/
theorem errors_step (h : Agrees outcome c) (hfollows : x.Follows outcome)
    (hlisted : ∀ e, x ≠ .move (.listed (.error e))) (hx : Leads c x c') :
    errors c x = timeouts c x
      ++ (passing .concluded c x).flatMap (fun i => (outcome i).error?.toList)
      ++ (passing .joined c x).flatMap (panics outcome c') := by
  have htimeouts := timeouts_step hx
  cases hx with
  | failed e => exact absurd rfl (hlisted e)
  | expire pending gathered hp =>
    simp [timeouts, errors, move?, expire?, hp, timeoutError, MonitorError.isTimeout, passing,
      Milestone.passed?]
  | conclude i o hs =>
    have ho : o = outcome i := hfollows
    rw [htimeouts (by simp)]
    simp [errors, move?, conclude?, hs, passing, Milestone.passed?, ho]
  | join i o hp hs =>
    -- A worker that has ended has the outcome that it is said to have.
    have ho : o = some (outcome i) := h i (.ended o) hs
    obtain ⟨w, hw, hstage⟩ := stage?_eq_some_iff.mp hs
    have htask : c.tasks[i]? = some w.task := by
      rw [tasks, List.getElem?_map, hw]
      rfl
    rw [htimeouts (by simp)]
    simp [errors, move?, join?, hp, hw, hstage, passing, Milestone.passed?, panics, htask, ho]
  | _ =>
    rw [htimeouts (by simp)]
    exact errors_eq_nil c rfl

/-- The errors of a cycle that could list its containers: that its time
was over, those of the inspections that have ended, and those of the
workers whose end it has taken note of. By induction on the run with
`errors_step`. It is a permutation and not an equation, because the
three kinds of errors come in between each other. -/
theorem errors_perm (h : Cycle.run? { limit := limit } steps = some c)
    (hfollows : ∀ x ∈ steps, x.Follows outcome)
    (hlisted : ∀ e, .move (.listed (.error e)) ∉ steps) :
    (along step? errors { limit := limit } steps).Perm
      (along step? timeouts { limit := limit } steps
        ++ (along step? (passing .concluded) { limit := limit } steps).flatMap
          (fun i => (outcome i).error?.toList)
        ++ (along step? (passing .joined) { limit := limit } steps).flatMap
          (panics outcome c)) := by
  revert hfollows hlisted
  refine run?_induction (motive := fun steps c => (∀ x ∈ steps, x.Follows outcome) →
    (∀ e, .move (.listed (.error e)) ∉ steps) →
    (along step? errors { limit := limit } steps).Perm
      (along step? timeouts { limit := limit } steps
        ++ (along step? (passing .concluded) { limit := limit } steps).flatMap
          (fun i => (outcome i).error?.toList)
        ++ (along step? (passing .joined) { limit := limit } steps).flatMap
          (panics outcome c))) (fun _ _ => .refl _) ?_ h
  intro steps c x c' hrun ih hx hfollows hlisted
  have hfollows' : ∀ y ∈ steps, y.Follows outcome := fun y hy =>
    hfollows y (List.mem_append_left _ hy)
  have hold := ih hfollows' fun e he => hlisted e (List.mem_append_left _ he)
  -- The workers that have been joined are there, so the errors about them do not change.
  have hsame : (along step? (passing .joined) { limit := limit } steps).flatMap (panics outcome c')
      = (along step? (passing .joined) { limit := limit } steps).flatMap (panics outcome c) := by
    refine List.flatMap_congr fun i hi => panics_of_prefix (tasks_step hx) ?_
    obtain ⟨s, hs, -⟩ := ((passing_spec (m := .joined) hrun (.inl rfl)).2 i).mp hi
    obtain ⟨w, hw, -⟩ := stage?_eq_some_iff.mp hs
    simpa [tasks] using (List.getElem?_eq_some_iff.mp hw).1
  -- What is reported in the new step is counted together with what was reported
  -- before.
  have hnew := errors_step (agrees hrun hfollows') (hfollows x (by simp))
    (fun e he => hlisted e (by simp [he])) hx
  refine List.perm_iff_count.mpr fun e => ?_
  have hcount := hold.count_eq e
  rw [along_append_singleton _ hrun, along_append_singleton _ hrun, along_append_singleton _ hrun,
    along_append_singleton _ hrun, List.flatMap_append, List.flatMap_append, hsame, hnew]
  simp only [List.count_append] at hcount ⊢
  omega

/-- A cycle that could not list its containers reports this and nothing
else: it has no workers, and it never comes to a collection that could
run out of time. -/
theorem errors_of_unlisted (h : Cycle.run? { limit := limit } steps = some c)
    {e : RuntimeError} (he : .move (.listed (.error e)) ∈ steps) :
    along step? errors { limit := limit } steps = [.runtime e] ∧ c.workers = [] ∧
      .move .expire ∉ steps := by
  cases origin_of_run? h with
  | new => cases he
  | failed e' =>
    have hsame := eq_of_listed h he (List.mem_singleton_self _)
    cases hsame
    exact ⟨rfl, rfl, by simp⟩
  | idle containers | idleDelivered containers | idleDone containers | dispatched containers =>
    have hsame := eq_of_listed h he List.mem_cons_self
    cases hsame

/-- A cycle ends when it has taken note of the end of all workers. It is
an invariant of runs: the step to the end asks for it, and afterwards no
worker can make a step. -/
theorem joined_of_done (h : Cycle.run? { limit := limit } steps = some c)
    (hdone : c.phase = .done) : ∀ w ∈ c.workers, w.stage = .joined := by
  revert hdone
  refine run?_induction (motive := fun _ c =>
    c.phase = .done → ∀ w ∈ c.workers, w.stage = .joined) nofun ?_ h
  intro steps c x c' hrun ih hx hdone
  have hstage (hdone : c.phase = .done) {i : Nat} {s : Stage} (hs : c.stage? i = some s) :
      s = .joined := by
    obtain ⟨w, hw, rfl⟩ := stage?_eq_some_iff.mp hs
    exact ih hdone w (List.mem_of_getElem? hw)
  cases hx with
  | failed e hp =>
    obtain ⟨rfl, rfl⟩ := new_of_listing hrun hp
    nofun
  | finish hp hall => exact hall
  | idle | listed | spawn | collect | receive | complete | expire | hangUp | handOver =>
    cases hdone
  | join i o hp hs =>
    rw [phase_setStage, hp] at hdone
    cases hdone
  -- All workers have been joined, so none of them makes another step.
  | report i w o hw hs =>
    rw [phase_send] at hdone
    cases hstage hdone (stage?_eq_some_iff.mpr ⟨w, hw, hs⟩)
  | grant i _ hs | enqueue i hs | begin i hs | conclude i _ hs | release i _ hs
  | releaseTo i _ _ _ hs | dropIdle i hs | dropWaiting i hs =>
    cases hstage hdone hs
  | dropBusy i hs | dropBusyTo i _ _ hs =>
    rcases hs with hs | hs <;> cases hstage hdone hs

/-- When a cycle has ended, all workers have passed all milestones, each
of them once. Of the milestones that a dropped worker leaves out this is
true only if no worker is dropped. -/
theorem passing_perm_of_done (h : Cycle.run? { limit := limit } steps = some c)
    (hdone : c.phase = .done) {m : Milestone}
    (hdrop : m.isLate = true ∨ ∀ x ∈ steps, x.drops = false) :
    (along step? (passing m) { limit := limit } steps).Perm (List.range c.workers.length) := by
  have hperm := passing_perm h hdrop
  rwa [List.filter_eq_self.mpr ?_] at hperm
  intro i hi
  have hlt := List.mem_range.mp hi
  have hjoined := joined_of_done h hdone _ (List.getElem_mem hlt)
  rw [List.getElem?_eq_getElem hlt]
  simp only [Option.any_some, hjoined]
  cases m <;> decide

/-- An error is reported in a move that is possible, so that there is
a state after it. -/
theorem leads_of_mem_errors {e : MonitorError} (he : e ∈ errors c x) : ∃ c', Leads c x c' := by
  cases x with
  | spawn | handOver | drop => cases he
  | move m =>
    obtain ⟨⟨c', effect⟩, hm, -⟩ := Option.bind_eq_some_iff.mp (Option.mem_toList.mp he)
    exact ⟨c', leads_of_move? hm⟩

/-- A worker's panic is reported when the collection is over: a cycle
looks at the ends of its workers after it has handed over its snapshot,
and nowhere else. -/
theorem joining_of_panicked {task : Nat} {failure : TaskFailure}
    (he : .workerPanicked task failure ∈ errors c x) : c.phase = .joining := by
  obtain ⟨c', hx⟩ := leads_of_mem_errors he
  cases hx with
  | join i o hp hs => exact hp
  | failed e hp => simp [errors, move?, listed?, hp] at he
  | expire pending gathered hp => simp [errors, move?, expire?, hp, timeoutError] at he
  | conclude i o hs =>
    cases o with
    | failed e =>
      cases e <;> simp [errors, move?, conclude?, hs, Outcome.error?,
        InspectionError.toMonitorError] at he
    | assigned | unassigned | panicked =>
      simp [errors, move?, conclude?, hs, Outcome.error?] at he
  | _ =>
    rw [errors_eq_nil c rfl] at he
    cases he

/-- A cycle that has run out of time has a worker for each container,
and its channel room for the report of each. So the number of workers in
the error is the number of containers. -/
theorem capacity_of_expire (h : Cycle.run? { limit := limit } steps = some c)
    (hlate : .move .expire ∈ steps) : c.capacity = c.workers.length := by
  obtain ⟨-, -, -, -, hover, -⟩ := timeouts_of_expire h hlate
  have hleft : c.phase.left = [] := by
    cases hp : c.phase with
    | dispatching left =>
      rw [hp] at hover
      cases hover
    | _ => rfl
  cases origin_of_run? h with
  | new | failed | idle | idleDelivered | idleDone => simp at hlate
  | dispatched containers rest _ _ _ hc => rw [hc.capacity, hc.length_workers hleft]

/-- When a cycle has ended, it has reported one error for each container
that fails, and one more if its time was over. The errors are known by
`errors_perm` and the workers that have passed each milestone by
`passing_perm_of_done`; what is left is to count. -/
theorem length_errors_of_done (h : Cycle.run? { limit := limit } steps = some c)
    (hfollows : ∀ x ∈ steps, x.Follows outcome) (hdrop : ∀ x ∈ steps, x.drops = false)
    (hlisted : ∀ e, .move (.listed (.error e)) ∉ steps) (hdone : c.phase = .done) :
    (along step? errors { limit := limit } steps).length
      = (along step? timeouts { limit := limit } steps).length
        + (List.range c.workers.length).countP fun i => (outcome i).fails := by
  have hconcluded := passing_perm_of_done (m := .concluded) h hdone (.inr hdrop)
  have hjoined := passing_perm_of_done (m := .joined) h hdone (.inl rfl)
  have hlength := (errors_perm h hfollows hlisted).length_eq
  rw [List.length_append, List.length_append, (hconcluded.flatMap_right _).length_eq,
    (hjoined.flatMap_right _).length_eq, Nat.add_assoc] at hlength
  rw [hlength, length_flatMap_add]
  -- An inspection fails with an error of its own, or its worker's end is an error, not both.
  intro i hi
  have hlt : i < c.tasks.length := by simpa [tasks] using hi
  rw [panics, List.getElem?_eq_getElem hlt]
  cases outcome i <;> rfl

end

end Cycle

namespace State

variable {outcome : Nat → Outcome} {s t u : State} {es : List Event} {e : Event} {k : Nat}
  {c : Cycle}

/-- A cycle reports errors in its moves only, and in no event of another cycle. -/
theorem watch_errors_eq_nil (hmove : ∀ m, e ≠ .move k m) (u : State) :
    watch k Cycle.errors u e = [] := by
  rw [List.eq_nil_iff_forall_not_mem]
  intro err herr
  obtain ⟨c, x, -, hx, hmem⟩ := mem_watch herr
  rcases event_of_stepOf? hx with ⟨-, rfl⟩ | ⟨m, he, -⟩ | ⟨-, rfl, -⟩
  · cases hmem
  · exact hmove m he
  · cases hmem

/-- If no other cycle moves, then what is reported are the errors of
this one, in the same order. -/
theorem reported_eq_observe (hone : ∀ j m, .move j m ∈ es → j = k) (s : State) :
    along step? reported s es = s.observe k Cycle.errors es := by
  refine along_congr (fun e he u => ?_) s
  cases e with
  | move j m =>
    obtain rfl := hone j m he
    rfl
  | _ => exact (watch_errors_eq_nil (by simp) u).symm

/-- The cycle as a whole has failed: it could not list containers, or
its time was over. -/
def Disrupted (k : Nat) (es : List Event) : Prop :=
  (∃ e, .move k (.listed (.error e)) ∈ es) ∨ .move k .expire ∈ es

/-- The errors of a cycle are accounted for, if it is one of those in a
run:

- `queue`: whatever is reported in the run is queued or dropped, and so
  on;
- `unlisted`: if the cycle could not list containers, then it reports
  this and nothing else;
- `others`: otherwise it reports that its time was over, the errors of
  inspections that have ended, the ends of workers that were in a panic,
  and nothing else;
- `late`, `intime`: it reports once that its time was over, if it was;
- `inspections`, `ends`: no inspection ends twice, and of no worker is
  taken note twice;
- `afterwards`: that a worker was in a panic is reported when the
  collection is over;
- `everyone`: when the cycle has ended, all inspections have ended, and
  it has taken note of all workers;
- `counted`: if the queue was empty, no other cycle moves and no error
  is received, then the errors in the queue and the lines about dropped
  ones are as many as containers that fail, and one more if the cycle as
  a whole has failed. -/
structure ErrorsAccounted (outcome : Nat → Outcome) (s : State) (es : List Event) (t : State)
    (k : Nat) (c : Cycle) : Prop where
  queue : ErrorsQueued s es t
  unlisted : ∀ e, .move k (.listed (.error e)) ∈ es →
    s.observe k Cycle.errors es = [.runtime e]
  others : (∀ e, .move k (.listed (.error e)) ∉ es) →
    (s.observe k Cycle.errors es).Perm
      (s.observe k Cycle.timeouts es
        ++ (s.observe k (Cycle.passing .concluded) es).flatMap
          (fun i => (outcome i).error?.toList)
        ++ (s.observe k (Cycle.passing .joined) es).flatMap (Cycle.panics outcome c))
  late : .move k .expire ∈ es → ∃ pending, pending ≠ 0 ∧
    s.observe k Cycle.timeouts es = [.timeout c.limit pending c.workers.length]
  intime : .move k .expire ∉ es → s.observe k Cycle.timeouts es = []
  inspections : (s.observe k (Cycle.passing .concluded) es).Nodup ∧
    ∀ i, i ∈ s.observe k (Cycle.passing .concluded) es ↔ .move k (.conclude i (outcome i)) ∈ es
  ends : (s.observe k (Cycle.passing .joined) es).Nodup ∧
    ∀ i, i ∈ s.observe k (Cycle.passing .joined) es ↔ .move k (.join i) ∈ es
  afterwards : ∀ e u task failure, .workerPanicked task failure ∈ watch k Cycle.errors u e →
    ∃ d, u.cycles[k]? = some d ∧ d.phase = .joining
  everyone : c.phase = .done →
    (s.observe k (Cycle.passing .concluded) es).Perm (List.range c.workers.length) ∧
    (s.observe k (Cycle.passing .joined) es).Perm (List.range c.workers.length)
  counted : s.mailbox.errors = [] → (∀ j m, .move j m ∈ es → j = k) → .takeError ∉ es →
    c.phase = .done →
    (Disrupted k es → t.mailbox.errors.length + (along step? complaints s es).length
      = ((List.range c.workers.length).countP fun i => (outcome i).fails) + 1) ∧
    (¬ Disrupted k es → t.mailbox.errors.length + (along step? complaints s es).length
      = (List.range c.workers.length).countP fun i => (outcome i).fails)

/-- Without a receipt, the errors in the queue and the lines about
dropped ones are as many as errors were reported: what was queued is
still there, and about each of the others there is a line. -/
theorem length_reported (h : s.run? es = some t) (hq : ErrorsQueued s es t)
    (hempty : s.mailbox.errors = []) (htake : .takeError ∉ es) :
    t.mailbox.errors.length + (along step? complaints s es).length
      = (along step? reported s es).length := by
  -- Nothing is received, as this would be an event of its own.
  have hnone : along step? takenErrors s es = [] := by
    rw [List.eq_nil_iff_forall_not_mem]
    intro err herr
    obtain ⟨e, u, v, ⟨before, after, rfl, -, -⟩, hmem⟩ := occurs_of_mem_along h herr
    cases e with
    | takeError => simp at htake
    | _ => cases hmem
  have hqueued := hq.inOrder
  rw [hempty, hnone, List.nil_append, List.nil_append] at hqueued
  obtain ⟨dropped, hperm, hlines⟩ := hq.split
  rw [hperm.length_eq, hlines, hqueued, List.length_append, List.length_map]

/-- A cycle that has ended has reported an error for each container that
fails, and one more if it has failed as a whole. If it could not list
containers, there are no workers to count. -/
theorem length_errors_observed (h : s.run? es = some t) (hk : s.cycles.length ≤ k)
    (hc : t.cycles[k]? = some c) (houtcome : ∀ i o, .move k (.conclude i o) ∈ es → o = outcome i)
    (hdone : c.phase = .done) :
    (Disrupted k es → (s.observe k Cycle.errors es).length
      = ((List.range c.workers.length).countP fun i => (outcome i).fails) + 1) ∧
    (¬ Disrupted k es → (s.observe k Cycle.errors es).length
      = (List.range c.workers.length).countP fun i => (outcome i).fails) := by
  obtain ⟨limit, hrun, hobserve⟩ := run?_stepsOf h hk hc
  have hmoves {m : Move} : .move m ∈ s.stepsOf k es ↔ .move k m ∈ es := mem_stepsOf_iff h
  rw [hobserve]
  by_cases hfailed : ∃ e, .move k (.listed (.error e)) ∈ es
  · -- Nobody was dispatched, and nothing else has been reported.
    obtain ⟨e, he⟩ := hfailed
    obtain ⟨honly, hnobody, -⟩ := Cycle.errors_of_unlisted hrun (hmoves.mpr he)
    rw [honly, hnobody]
    exact ⟨fun _ => rfl, fun hnot => absurd (.inl ⟨e, he⟩) hnot⟩
  · have hlength := Cycle.length_errors_of_done hrun (follows_of_outcomes h houtcome)
      (drops_stepsOf h) (fun e he => hfailed ⟨e, hmoves.mp he⟩) hdone
    rw [hlength]
    refine ⟨fun hdisrupted => ?_, fun hnot => ?_⟩
    · have hexpire := hmoves.mpr (hdisrupted.resolve_left hfailed)
      obtain ⟨pending, -, -, -, -, hsaid⟩ := Cycle.timeouts_of_expire hrun hexpire
      rw [hsaid, List.length_singleton, Nat.add_comm]
    · have hintime := Cycle.timeouts_of_intime hrun fun hmem => hnot (.inr (hmoves.mp hmem))
      rw [hintime, List.length_nil, Nat.zero_add]

/-- Every error of a cycle is reported once, and is then received, waits
in the queue, or has been dropped because the queue was full. What the
cycle reports follows from its steps (`errors_perm`,
`errors_of_unlisted`), and what becomes of it from the queue
(`errorsQueued`). -/
theorem errors_accounted (h : s.run? es = some t)
    (hroom : s.mailbox.errors.length ≤ Mailbox.errorCapacity) (hk : s.cycles.length ≤ k)
    (hc : t.cycles[k]? = some c) (houtcome : ∀ i o, .move k (.conclude i o) ∈ es → o = outcome i) :
    ErrorsAccounted outcome s es t k c := by
  obtain ⟨limit, hrun, hobserve⟩ := run?_stepsOf h hk hc
  have hfollows := follows_of_outcomes h houtcome
  have hdrop := drops_stepsOf (k := k) h
  have hmoves {m : Move} : .move m ∈ s.stepsOf k es ↔ .move k m ∈ es := mem_stepsOf_iff h
  have hqueue := errorsQueued h hroom
  have hlisted (hno : ∀ e, .move k (.listed (.error e)) ∉ es) (e : RuntimeError) :
      .move (.listed (.error e)) ∉ s.stepsOf k es := fun he => hno e (hmoves.mp he)
  have hlate (hexpire : .move k .expire ∈ es) : ∃ pending, pending ≠ 0 ∧
      s.observe k Cycle.timeouts es = [.timeout c.limit pending c.workers.length] := by
    obtain ⟨pending, hpos, -, -, -, hsaid⟩ := Cycle.timeouts_of_expire hrun (hmoves.mpr hexpire)
    rw [hobserve, hsaid, Cycle.capacity_of_expire hrun (hmoves.mpr hexpire),
      Cycle.limit_of_run? hrun]
    exact ⟨pending, hpos, rfl⟩
  have hintime (hexpire : .move k .expire ∉ es) : s.observe k Cycle.timeouts es = [] := by
    rw [hobserve]
    exact Cycle.timeouts_of_intime hrun fun hmem => hexpire (hmoves.mp hmem)
  refine ⟨hqueue, ?_, ?_, hlate, hintime, ⟨?_, ?_⟩, ⟨?_, ?_⟩, ?_, ?_, ?_⟩
  · intro e he
    rw [hobserve]
    exact (Cycle.errors_of_unlisted hrun (hmoves.mpr he)).1
  · intro hno
    simp only [hobserve]
    exact Cycle.errors_perm hrun hfollows (hlisted hno)
  · rw [hobserve]
    exact (Cycle.passing_spec (m := .concluded) hrun (.inr hdrop)).1
  · intro i
    rw [hobserve, Cycle.mem_passing_concluded hrun]
    constructor
    · rintro ⟨o, hx⟩
      have ho := hmoves.mp hx
      rwa [houtcome i o ho] at ho
    · exact fun ho => ⟨_, hmoves.mpr ho⟩
  · rw [hobserve]
    exact (Cycle.passing_spec (m := .joined) hrun (.inl rfl)).1
  · intro i
    rw [hobserve, Cycle.mem_passing_joined hrun, hmoves]
  · intro e u task failure hmem
    obtain ⟨d, x, hd, -, he⟩ := mem_watch hmem
    exact ⟨d, hd, Cycle.joining_of_panicked he⟩
  · intro hdone
    rw [hobserve, hobserve]
    exact ⟨Cycle.passing_perm_of_done hrun hdone (.inr hdrop),
      Cycle.passing_perm_of_done hrun hdone (.inl rfl)⟩
  · intro hempty hone htake hdone
    rw [length_reported h hqueue hempty htake, reported_eq_observe hone]
    exact length_errors_observed h hk hc houtcome hdone

/-- The first inspection fails, as its container has no name, and the
second one is in a panic. -/
def unnamedOrPanic (i : Nat) : Outcome :=
  if i = 0 then .failed (.missingName Cycle.containerA.id) else .panicked "boom"

/-- Both workers report to the collector, and then the cycle takes
note of their ends. -/
def failingTwice : List Event :=
  [.start 5, .move 0 (.listed (.ok Cycle.twoContainers)), .spawn 0, .spawn 0, .move 0 .collect,
    .move 0 (.ask 0), .move 0 (.begin 0), .move 0 (.ask 1), .move 0 (.begin 1),
    .move 0 (.conclude 1 (unnamedOrPanic 1)), .move 0 (.release 1), .move 0 (.report 1),
    .move 0 (.conclude 0 (unnamedOrPanic 0)), .move 0 (.release 0), .move 0 (.report 0),
    .move 0 .receive, .move 0 .receive, .deliver 0, .move 0 (.join 0), .move 0 (.join 1),
    .move 0 .finish]

/-- Two containers fail, and two errors are in the queue: one about a
name that is missing, and one about a worker that was in a panic. -/
theorem errors_accounted_failingTwice :
    ∃ t c, State.run? {} failingTwice = some t ∧ t.cycles[0]? = some c ∧ c.phase = .done ∧
      t.mailbox.errors = [.missingName Cycle.containerA.id, .workerPanicked 2 (.panicked "boom")] ∧
      ErrorsAccounted unnamedOrPanic {} failingTwice t 0 c := by
  have hend : (State.run? {} failingTwice).any fun t => t.cycles[0]?.any fun c =>
      c.phase = .done ∧ t.mailbox.errors
        = [.missingName Cycle.containerA.id, .workerPanicked 2 (.panicked "boom")] := by
    decide +kernel
  obtain ⟨t, ht, hend⟩ := (Option.any_eq_true _ _).mp hend
  obtain ⟨c, hc, hend⟩ := (Option.any_eq_true _ _).mp hend
  obtain ⟨hdone, herrors⟩ := of_decide_eq_true hend
  refine ⟨t, c, ht, hc, hdone, herrors, errors_accounted ht (by decide) (by decide) hc ?_⟩
  intro i o ho
  simp only [failingTwice, List.mem_cons, reduceCtorEq, Event.move.injEq, Move.conclude.injEq,
    true_and, false_or, or_false, and_false, List.not_mem_nil] at ho
  rcases ho with ⟨rfl, rfl⟩ | ⟨rfl, rfl⟩ <;> rfl

end State

end NpuAttribution.Poll
