import NpuAttribution.Proofs.Poll.Transitions

/-!
# `NpuAttribution.Proofs.Poll.Origin`: what a cycle has come from

The first step of a cycle is the end of its listing, and there is no second one. What the
listing was decides what the cycle does from then on. `Origin` tells the cases apart, and
`origin_of_run?` proves that there are no others: the listing failed, or there was nothing
to inspect, or workers are dispatched. In the first two cases the few steps that can follow
are listed. In the last one, `Dispatched` says how the workers and the room for reports
relate to the listing.
-/

set_option autoImplicit false

namespace NpuAttribution.Poll

/-- The containers that still have to get a worker. -/
def Phase.left : Phase → List ListedContainer
  | .dispatching left => left
  | _ => []

namespace Cycle

/-- A cycle dispatches workers for the given containers, or has done so:

- `limit`: it has the given time limit;
- `capacity`: there is room for one report of each container;
- `roster`: the containers with a worker and then those without one are
  the listing;
- `listed`: the listing is over. -/
structure Dispatched (limit : Nat) (containers : List ListedContainer) (c : Cycle) : Prop where
  limit : c.limit = limit
  capacity : c.capacity = containers.length
  roster : c.workers.map (·.container) ++ c.phase.left = containers
  listed : c.phase ≠ .listing

/-- A listing that leads to the dispatch of workers. -/
def Inspectable (containers : List ListedContainer) : Prop :=
  containers ≠ [] ∧ containers.length ≤ Listing.maxContainers

/-- What the listing of a cycle was, what has been done since, and what
the cycle is now. -/
inductive Origin (limit : Nat) : List Step → Cycle → Prop
  | new : Origin limit [] { limit := limit }
  | failed (e : RuntimeError) :
    Origin limit [.move (.listed (.error e))] { limit := limit, phase := .done }
  | idle (containers : List ListedContainer) (h : ¬ Inspectable containers) :
    Origin limit [.move (.listed (.ok containers))]
      { limit := limit, phase := .delivering .empty }
  | idleDelivered (containers : List ListedContainer) (h : ¬ Inspectable containers) :
    Origin limit [.move (.listed (.ok containers)), .handOver]
      { limit := limit, phase := .joining }
  | idleDone (containers : List ListedContainer) (h : ¬ Inspectable containers) :
    Origin limit [.move (.listed (.ok containers)), .handOver, .move .finish]
      { limit := limit, phase := .done }
  | dispatched (containers : List ListedContainer) (rest : List Step) (c : Cycle)
    (h : Inspectable containers) (once : ∀ r, .move (.listed r) ∉ rest)
    (hc : Dispatched limit containers c) :
    Origin limit (.move (.listed (.ok containers)) :: rest) c

section

variable {limit : Nat} {containers : List ListedContainer} {c c' : Cycle}

/-- All containers have a worker once the dispatch is over. -/
theorem Dispatched.length_workers (h : Dispatched limit containers c)
    (hleft : c.phase.left = []) : c.workers.length = containers.length := by
  have hroster := congrArg List.length h.roster
  simpa [hleft] using hroster

/-- There is never more than one worker for each container, so the
channel has room for the reports of all of them. -/
theorem Dispatched.length_workers_le (h : Dispatched limit containers c) :
    c.workers.length ≤ c.capacity := by
  have hroster := congrArg List.length h.roster
  rw [List.length_append, List.length_map] at hroster
  rw [h.capacity]
  omega

/-- The container of a worker is the one in its place of the listing. So
a worker is known by its place alone. -/
theorem Dispatched.container (h : Dispatched limit containers c) {i : Nat} {w : Worker}
    (hw : c.workers[i]? = some w) : containers[i]? = some w.container := by
  have hlt := (List.getElem?_eq_some_iff.mp hw).1
  rw [← h.roster, List.getElem?_append_left (by simpa using hlt), List.getElem?_map, hw]
  rfl

/-- A worker that gets on changes nothing about the dispatch, as it
keeps its container. -/
theorem Dispatched.setStage (h : Dispatched limit containers c) (i : Nat) (s : Stage) :
    Dispatched limit containers (c.setStage i s) :=
  ⟨h.limit, h.capacity, by simpa using h.roster, h.listed⟩

/-- Neither does another phase after the dispatch, in which nobody is
left to get a worker. -/
theorem Dispatched.setPhase (h : Dispatched limit containers c) (hleft : c.phase.left = [])
    {phase : Phase} (hphase : phase.left = []) (hlisted : phase ≠ .listing)
    {reports : List (Option Assignment)} :
    Dispatched limit containers { c with phase, reports } := by
  refine ⟨h.limit, h.capacity, ?_, hlisted⟩
  have hroster := h.roster
  rw [hleft] at hroster
  show c.workers.map (·.container) ++ phase.left = containers
  rw [hphase, hroster]

/-- Every step keeps the dispatch of the given containers. The one step
that has something to do with it takes a container from those without a
worker to those with one. -/
theorem dispatched_step {x : Step} (h : Dispatched limit containers c) (hx : Leads c x c') :
    Dispatched limit containers c' := by
  cases hx with
  | failed e hp => exact absurd hp h.listed
  | idle containers hp hno => exact absurd hp h.listed
  | listed containers hp hne hmax => exact absurd hp h.listed
  | spawn task container left hp =>
    -- The container in front of those without a worker becomes the last one with a worker.
    refine ⟨h.limit, h.capacity, ?_, by simp⟩
    have hroster := h.roster
    rw [hp] at hroster
    simpa [Phase.left] using hroster
  | collect hp => exact h.setPhase (by rw [hp]; rfl) rfl (by simp)
  | receive pending gathered r reports hp => exact h.setPhase (by rw [hp]; rfl) rfl (by simp)
  | complete gathered r reports hp => exact h.setPhase (by rw [hp]; rfl) rfl (by simp)
  | expire pending gathered hp => exact h.setPhase (by rw [hp]; rfl) rfl (by simp)
  | hangUp pending gathered hp => exact h.setPhase (by rw [hp]; rfl) rfl (by simp)
  | handOver snapshot hp => exact h.setPhase (by rw [hp]; rfl) rfl (by simp)
  | finish hp => exact h.setPhase (by rw [hp]; rfl) rfl (by simp)
  | report i w o hw hs =>
    have hset := h.setStage i (.ended o)
    unfold send
    split
    · exact ⟨hset.limit, hset.capacity, hset.roster, hset.listed⟩
    · exact hset
  | begin i hs => exact h.setStage i _
  | conclude i o hs => exact h.setStage i _
  | join i o hp hs => exact h.setStage i _
  | dropIdle i hs => exact h.setStage i _
  | grant | enqueue | release | releaseTo | dropWaiting | dropBusy | dropBusyTo =>
    exact ⟨h.limit, h.capacity, by simpa using h.roster, h.listed⟩

/-- Only a cycle that is about to list containers can list them. -/
theorem phase_of_listed {r : Except RuntimeError (List ListedContainer)}
    (hx : Leads c (.move (.listed r)) c') : c.phase = .listing := by
  cases hx <;> assumption

/-- No worker is in any stage if there are no workers. -/
theorem stage?_eq_none (hw : c.workers = []) (i : Nat) : c.stage? i = none := by
  simp [stage?, hw]

/-- What can happen to a cycle in which there is nobody to do anything:
it hands over its snapshot, or it finishes. All other steps are made by
a worker or belong to another phase. -/
theorem leads_without_workers {x : Step} (hw : c.workers = []) (hp : c.phase.left = [])
    (hlisting : c.phase ≠ .listing) (hcollecting : ∀ pending g, c.phase ≠ .collecting pending g)
    (hdispatching : c.phase ≠ .dispatching []) (hx : Leads c x c') :
    (∃ snapshot, c.phase = .delivering snapshot ∧ x = .handOver ∧
      c' = { c with phase := .joining }) ∨
    (c.phase = .joining ∧ x = .move .finish ∧ c' = { c with phase := .done }) := by
  cases hx with
  | failed e hp => exact absurd hp hlisting
  | idle containers hp hno => exact absurd hp hlisting
  | listed containers hp hne hmax => exact absurd hp hlisting
  | spawn task container left hq =>
    rw [hq] at hp
    cases hp
  | collect hq => exact absurd hq hdispatching
  | receive pending gathered r reports hq => exact absurd hq (hcollecting _ _)
  | complete gathered r reports hq => exact absurd hq (hcollecting _ _)
  | expire pending gathered hq => exact absurd hq (hcollecting _ _)
  | hangUp pending gathered hq => exact absurd hq (hcollecting _ _)
  | handOver snapshot hq => exact .inl ⟨snapshot, hq, rfl, rfl⟩
  | finish hq hall => exact .inr ⟨hq, rfl, rfl⟩
  | report i w o hi hs => simp [hw] at hi
  | grant i _ hs | enqueue i hs | begin i hs | conclude i _ hs | release i _ hs
  | releaseTo i _ _ _ hs | join i _ _ hs | dropIdle i hs | dropWaiting i hs =>
    simp [stage?_eq_none hw] at hs
  | dropBusy i hs | dropBusyTo i _ _ hs => simp [stage?_eq_none hw] at hs

end

/-- A cycle has come from one of the listings that `Origin` lists. By
induction on the run: each of the ways that are listed is continued by
each of the steps that are possible there. -/
theorem origin_of_run? {limit : Nat} {steps : List Step} {c : Cycle}
    (h : Cycle.run? { limit := limit } steps = some c) : Origin limit steps c := by
  refine run?_induction (motive := Origin limit) .new ?_ h
  intro steps c x c' _ ih hx
  cases ih with
  | new =>
    cases hx with
    | failed e hp => exact .failed e
    | idle containers hp hno =>
      refine .idle containers fun hinspect => ?_
      rcases hno with rfl | hmany
      · exact hinspect.1 rfl
      · have := hinspect.2
        omega
    | listed containers hp hne hmax =>
      exact .dispatched containers [] _ ⟨hne, hmax⟩ (by simp) ⟨rfl, rfl, rfl, by simp⟩
    | spawn _ _ _ hp | collect hp | receive _ _ _ _ hp | complete _ _ _ hp | expire _ _ hp
    | hangUp _ _ hp | handOver _ hp | join _ _ hp | finish hp => cases hp
    | report i w o hi hs => simp at hi
    | grant i _ hs | enqueue i hs | begin i hs | conclude i _ hs | release i _ hs
    | releaseTo i _ _ _ hs | dropIdle i hs | dropWaiting i hs =>
      simp [stage?] at hs
    | dropBusy i hs | dropBusyTo i _ _ hs => simp [stage?] at hs
  | failed e =>
    rcases leads_without_workers rfl rfl (by simp) (by simp) (by simp) hx with
      ⟨_, hp, _⟩ | ⟨hp, _⟩ <;> cases hp
  | idle containers hno =>
    -- Without workers nothing can happen but that the empty snapshot is handed over.
    rcases leads_without_workers rfl rfl (by simp) (by simp) (by simp) hx with
      ⟨_, _, rfl, rfl⟩ | ⟨hp, _⟩
    · exact .idleDelivered containers hno
    · cases hp
  | idleDelivered containers hno =>
    rcases leads_without_workers rfl rfl (by simp) (by simp) (by simp) hx with
      ⟨_, hp, _⟩ | ⟨_, rfl, rfl⟩
    · cases hp
    · exact .idleDone containers hno
  | idleDone containers hno =>
    rcases leads_without_workers rfl rfl (by simp) (by simp) (by simp) hx with
      ⟨_, hp, _⟩ | ⟨hp, _⟩ <;> cases hp
  | dispatched containers rest _ hinspect honce hc =>
    -- A second listing is not possible, as the first one has changed the phase.
    refine .dispatched containers (rest ++ [x]) _ hinspect (fun r hr => ?_) (dispatched_step hc hx)
    rcases List.mem_append.mp hr with hr | hr
    · exact honce r hr
    · exact hc.listed (phase_of_listed (List.mem_singleton.mp hr ▸ hx))

/-- A cycle that is about to list containers is new: it has made no step. -/
theorem new_of_listing {limit : Nat} {steps : List Step} {c : Cycle}
    (h : Cycle.run? { limit := limit } steps = some c) (hp : c.phase = .listing) :
    steps = [] ∧ c = { limit := limit } := by
  cases origin_of_run? h with
  | new => exact ⟨rfl, rfl⟩
  | failed | idle | idleDelivered | idleDone => cases hp
  | dispatched containers rest _ hinspect honce hc => exact absurd hp hc.listed

/-- A cycle keeps its time limit, whatever it does. -/
theorem limit_of_run? {limit : Nat} {steps : List Step} {c : Cycle}
    (h : Cycle.run? { limit := limit } steps = some c) : c.limit = limit := by
  cases origin_of_run? h with
  | new | failed | idle | idleDelivered | idleDone => rfl
  | dispatched containers rest _ hinspect honce hc => exact hc.limit

/-- A cycle has dispatched workers, or is about to, or there is nobody
to do anything, and then it neither dispatches nor collects. -/
theorem dispatched_or_idle {limit : Nat} {steps : List Step} {c : Cycle}
    (h : Cycle.run? { limit := limit } steps = some c) :
    (∃ containers, Inspectable containers ∧ .move (.listed (.ok containers)) ∈ steps ∧
      Dispatched limit containers c) ∨
    (c.workers = [] ∧ (∀ left, c.phase ≠ .dispatching left) ∧
      ∀ pending gathered, c.phase ≠ .collecting pending gathered) := by
  cases origin_of_run? h with
  | new | failed | idle | idleDelivered | idleDone => exact .inr ⟨rfl, by simp, by simp⟩
  | dispatched containers rest _ hinspect honce hc =>
    exact .inl ⟨containers, hinspect, List.mem_cons_self, hc⟩

/-- A cycle that has listed containers which it can inspect has
dispatched workers for them, or is about to. As it lists only once,
nothing else can have been listed. -/
theorem dispatched_of_listed {limit : Nat} {steps : List Step} {c : Cycle}
    (h : Cycle.run? { limit := limit } steps = some c) {containers : List ListedContainer}
    (hinspect : Inspectable containers) (hlisted : .move (.listed (.ok containers)) ∈ steps) :
    Dispatched limit containers c := by
  cases origin_of_run? h with
  | new => simp at hlisted
  | failed e => simp at hlisted
  | idle containers' hno | idleDelivered containers' hno | idleDone containers' hno =>
    simp at hlisted
    exact absurd (hlisted ▸ hinspect) hno
  | dispatched containers' rest _ hinspect' honce hc =>
    rcases List.mem_cons.mp hlisted with heq | hrest
    -- There is only one listing, so it is the one that the cycle has come from.
    · cases heq
      exact hc
    · exact absurd hrest (honce _)

end Cycle

end NpuAttribution.Poll
