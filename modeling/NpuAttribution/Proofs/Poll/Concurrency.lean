import NpuAttribution.Proofs.Poll.ErrorAccounts

/-!
# `NpuAttribution.Proofs.Poll.Concurrency`: inspections are bounded, and none is left out

A cycle inspects at most 64 containers at once, and it does not end before all of them have
been inspected. `inspections_bounded` says both about one cycle in a run of the monitor with
any number of other cycles, whatever the inspections come to, and whether the cycle's time
runs out or not.

The first part is about permits. They are never lost (`permitsKept`), and an inspection that
goes on is one whose worker holds a permit, so the inspections that go on are bounded by the
permits. What an observer can count are beginnings and ends of inspections; `begun_eq`
relates these counts to the stages of the workers.

The second part is about the end of a cycle. Running out of time only ends the collection.
The cycle itself ends when it has taken note of the end of every worker, and a worker that
has come to its end has inspected its container.
-/

set_option autoImplicit false

namespace NpuAttribution.Poll

namespace Cycle

/-- The inspections that are going on. -/
def inFlight (c : Cycle) : Nat := c.workers.countP fun w => w.stage = .inspecting

/-- An inspection that is going on takes up a permit. There may be more
permits held than inspections, as a worker holds one before it begins
and after it has ended. -/
theorem inFlight_le_total (c : Cycle) : c.inFlight ≤ c.total Stage.permits := by
  unfold inFlight total
  induction c.workers with
  | nil => exact Nat.le_refl 0
  | cons w ws ih =>
    rw [List.countP_cons, List.map_cons, List.sum_cons]
    by_cases hw : w.stage = .inspecting
    · have hheld : w.stage.permits = 1 := by rw [hw]; rfl
      rw [if_pos (decide_eq_true hw)]
      omega
    · rw [if_neg (by simpa using hw)]
      omega

/-- What is past the beginning of an inspection is past its end or in
the midst of it. -/
theorem countP_begun (ws : List Worker) :
    (ws.countP fun w => Milestone.begun.rank ≤ w.stage.rank)
      = (ws.countP fun w => Milestone.concluded.rank ≤ w.stage.rank)
        + ws.countP fun w => w.stage = .inspecting := by
  induction ws with
  | nil => rfl
  | cons w ws ih =>
    simp only [List.countP_cons, ih]
    cases w.stage <;> simp [Milestone.rank, Stage.rank] <;> omega

/-- As many inspections have begun as have ended and as are going on.
Workers must not have been dropped, since the inspection of a dropped
worker never ends. -/
theorem begun_eq {limit : Nat} {steps : List Step} {c : Cycle}
    (h : Cycle.run? { limit := limit } steps = some c) (hdrop : ∀ x ∈ steps, x.drops = false) :
    (along step? (passing .begun) { limit := limit } steps).length
      = (along step? (passing .concluded) { limit := limit } steps).length + c.inFlight := by
  rw [length_passing (m := .begun) h (.inr hdrop), length_passing (m := .concluded) h (.inr hdrop)]
  exact countP_begun c.workers

/-- Whoever begins an inspection holds a permit. -/
theorem permit_of_begin {c c' : Cycle} {i : Nat} (hx : Leads c (.move (.begin i)) c') :
    ∃ stage, c.stage? i = some stage ∧ stage.permits = 1 := by
  cases hx with
  | begin i hs => exact ⟨.admitted, hs, rfl⟩

end Cycle

namespace State

/-- The inspections of a cycle are bounded and none is left out, if it
is one of those in a run:

- `permits`: the permits that are free and those that workers hold are
  64 together;
- `counted`: the inspections going on are those that have begun and not
  ended;
- `bounded`: there are at most 64 of them;
- `once`: no inspection begins twice;
- `admitted`: a worker that begins its inspection holds a permit;
- `returned`: when a cycle that has dispatched workers has ended, there
  is a worker for each container, all workers have ended, and so many
  inspections have begun as there are containers, one for each. All of
  them have ended. -/
structure InspectionsBounded (s : State) (es : List Event) (k : Nat) (c : Cycle) : Prop where
  permits : c.permits + c.total Stage.permits = maxInspections
  counted : (s.observe k (Cycle.passing .begun) es).length
    = (s.observe k (Cycle.passing .concluded) es).length + c.inFlight
  bounded : c.inFlight ≤ maxInspections
  once : (s.observe k (Cycle.passing .begun) es).Nodup
  admitted : ∀ i u v, Occurs step? s es (.move k (.begin i)) u v →
    ∃ d stage, u.cycles[k]? = some d ∧ d.stage? i = some stage ∧ stage.permits = 1
  returned : ∀ containers, .move k (.listed (.ok containers)) ∈ es →
    Cycle.Inspectable containers → c.phase = .done →
      c.workers.map (·.container) = containers ∧ (∀ w ∈ c.workers, w.stage = .joined) ∧
      (s.observe k (Cycle.passing .begun) es).length = containers.length ∧
      (s.observe k (Cycle.passing .begun) es).Perm (List.range containers.length) ∧
      (s.observe k (Cycle.passing .concluded) es).Perm (List.range containers.length)

/-- Whatever happens to the inspections of a cycle, and in whatever
order: at most 64 of them go on at once, and when the cycle has ended
every container has been inspected. The bound is that of the permits
(`permitsKept`), since whoever inspects holds one, and the rest follows
from the milestones that every worker has passed in the end. -/
theorem inspections_bounded {s t : State} {es : List Event} {k : Nat} {c : Cycle}
    (h : s.run? es = some t) (hk : s.cycles.length ≤ k) (hc : t.cycles[k]? = some c) :
    InspectionsBounded s es k c := by
  obtain ⟨limit, hrun, hobserve⟩ := run?_stepsOf h hk hc
  have hdrop := drops_stepsOf (k := k) h
  have hkept := Cycle.permitsKept hrun
  have htotal := hkept.total
  have hflight := c.inFlight_le_total
  constructor
  case permits => exact htotal
  case counted =>
    rw [hobserve, hobserve]
    exact Cycle.begun_eq hrun hdrop
  case bounded => omega
  case once =>
    rw [hobserve]
    exact (Cycle.passing_spec (m := .begun) hrun (.inr hdrop)).1
  case admitted =>
    intro i u v hoccurs
    obtain ⟨before, after, -, -, hv⟩ := hoccurs
    obtain ⟨d, d', effect, hd, hm, -⟩ := move?_eq_some hv
    obtain ⟨stage, hstage, hpermit⟩ := Cycle.permit_of_begin (Cycle.leads_of_move? hm)
    exact ⟨d, stage, hd, hstage, hpermit⟩
  case returned =>
    intro containers hlisted hinspect hdone
    have hmem := mem_stepsOf_of_move h hlisted
    have hdispatched := Cycle.dispatched_of_listed hrun hinspect hmem
    have hleft : c.phase.left = [] := by rw [hdone]; rfl
    have hlength := hdispatched.length_workers hleft
    have hroster := hdispatched.roster
    rw [hleft, List.append_nil] at hroster
    -- At the end every worker is past every milestone, the beginning included.
    have hbegun := Cycle.passing_perm_of_done (m := .begun) hrun hdone (.inr hdrop)
    have hconcluded := Cycle.passing_perm_of_done (m := .concluded) hrun hdone (.inr hdrop)
    rw [hlength, ← hobserve] at hbegun hconcluded
    refine ⟨hroster, Cycle.joined_of_done hrun hdone, ?_, hbegun, hconcluded⟩
    rw [hbegun.length_eq, List.length_range]

/-- One container more than there are permits. -/
def manyContainers : List ListedContainer := List.replicate 65 Cycle.containerA

/-- The first 64 workers begin, the first of them ends in a panic and
lets the last one begin, and then the time is over. All workers come to
their end after that. -/
def panicBeforeTimeout : List Event :=
  [.start 5, .move 0 (.listed (.ok manyContainers))]
    ++ List.replicate 65 (.spawn 0) ++ [.move 0 .collect]
    ++ (List.range 65).map (fun i => .move 0 (.ask i))
    ++ (List.range 64).map (fun i => .move 0 (.begin i))
    ++ [.move 0 (.conclude 0 (.panicked "boom")), .move 0 (.release 0), .move 0 (.report 0),
      .move 0 (.begin 64), .move 0 .expire]
    ++ (List.range' 1 64).flatMap (fun i => [.move 0 (.conclude i .unassigned),
      .move 0 (.release i), .move 0 (.report i)])
    ++ (List.range 65).map (fun i => .move 0 (.join i)) ++ [.move 0 .finish]

/-- A cycle with more workers than permits has run out of time and
inspected every container, one of them in a panic. -/
theorem inspections_bounded_panicBeforeTimeout :
    ∃ t c, State.run? {} panicBeforeTimeout = some t ∧ ({} : State).cycles.length ≤ 0 ∧
      t.cycles[0]? = some c ∧ InspectionsBounded {} panicBeforeTimeout 0 c ∧
      .move 0 (.listed (.ok manyContainers)) ∈ panicBeforeTimeout ∧
      Cycle.Inspectable manyContainers ∧ c.phase = .done ∧
      (State.observe {} 0 (Cycle.passing .begun) panicBeforeTimeout).length = 65 := by
  have hend : (State.run? {} panicBeforeTimeout).any
      (fun t => t.cycles[0]?.any fun c => c.phase = .done) = true := by
    decide +kernel
  obtain ⟨t, ht, hend⟩ := (Option.any_eq_true _ _).mp hend
  obtain ⟨c, hc, hdone⟩ := (Option.any_eq_true _ _).mp hend
  have hphase := of_decide_eq_true hdone
  have hlisted : Event.move 0 (.listed (.ok manyContainers)) ∈ panicBeforeTimeout := by
    simp [panicBeforeTimeout]
  have hinspect : Cycle.Inspectable manyContainers := by
    unfold Cycle.Inspectable manyContainers
    exact ⟨by simp, by decide⟩
  have hbounded := inspections_bounded ht (Nat.le_refl 0) hc
  obtain ⟨-, -, hcount, -⟩ := hbounded.returned manyContainers hlisted hinspect hphase
  exact ⟨t, c, ht, Nat.le_refl 0, hc, hbounded, hlisted, hinspect, hphase, hcount⟩

end State

end NpuAttribution.Poll
