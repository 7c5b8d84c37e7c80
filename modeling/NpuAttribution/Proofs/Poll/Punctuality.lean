import NpuAttribution.Proofs.Poll.Thread

/-!
# `NpuAttribution.Proofs.Poll.Punctuality`: workers keep to the timetable

`Roster` compares the workers of a cycle with its timetable at a moment at which one of them,
or none, has the thread. Nobody has been admitted too early, and nobody waits any longer whose
time has come. Workers are admitted in the order of the listing: those before some place have
been, and the others wait in this order or have not asked yet.

The turn of a worker is taken apart into what it does: ask, begin, conclude, return the permit
and report. Each of these keeps the roster. A permit that becomes free is what admissions hang
on, so `Roster.admitted_le` counts the workers that still hold one. The collector is not
concerned by any of this but the report; `Course` says how far it has got, and when.
-/

set_option autoImplicit false

namespace NpuAttribution.Poll

/-- How a worker stands to its times in the timetable. It is ready as
soon as it can do something, unless it is the one that has the thread.
One that inspects is woken when it is to report. -/
def Timetable.Punctual (x : Timetable) (k : Nat) (acting : Option Nat) (s : Schedule) (i : Nat) :
    Stage → Prop
  | .dispatched => s.now ≤ x.admitted i
  | .waiting => s.now ≤ x.admitted i
  | .admitted => x.admitted i = s.now ∧ (acting = some i ∨ .worker k i ∈ s.ready)
  | .inspecting =>
    s.now ≤ x.report i ∧ acting = some i ∨ x.report i = s.now ∧ .worker k i ∈ s.ready ∨
    s.now < x.report i ∧ ⟨x.report i, .worker k i⟩ ∈ s.timers
  | .concluded _ => x.report i = s.now ∧ acting = some i
  | .released _ => x.report i = s.now ∧ acting = some i
  | .ended _ => x.report i ≤ s.now
  | .joined => x.report i ≤ s.now

/-- The workers of a cycle keep to the timetable:

- `delays`: their inspections take as long as it says;
- `punctual`: each of them is on time;
- `ordered`, `queue`, `dispatched`: those before `p` have been admitted,
  those from there to `m` wait, in this order, and the others have not
  asked for a permit yet;
- `inspections`: the inspections that go on end when it says;
- `recorded`: so there is one for each worker that inspects, unless it
  has the thread. -/
structure Roster (x : Timetable) (k : Nat) (acting : Option Nat) (p m : Nat) (s : Schedule)
    (c : Cycle) : Prop where
  delays : c.workers.map (fun w => (s.backend.inspect w.container).delay) = x.delays
  punctual : ∀ i stage, c.stage? i = some stage → x.Punctual k acting s i stage
  ordered : p ≤ m ∧ m ≤ x.delays.length
  queue : c.queue = List.range' p (m - p)
  dispatched : ∀ i, c.stage? i = some .dispatched ↔ m ≤ i ∧ i < x.delays.length
  inspections : ∀ u ∈ s.inspections, u.what.cycle = k ∧ u.due = x.report u.what.worker
  recorded : ∀ i, acting ≠ some i → c.stage? i = some .inspecting →
    ∃ u ∈ s.inspections, u.what.worker = i

/-- The collection has come to what the timetable says: the collector
has received the reports that are not late, and if some are late then
the time is over. -/
def Timetable.Settled (x : Timetable) (s : Schedule) (c : Cycle) : Prop :=
  c.outstanding = x.late ∧ (x.late ≠ 0 → x.deadline ≤ s.now)

/-- How far the collection has got. The cycle has the thread or is ready
as soon as it can do something, and this is the meaning of `awake`. -/
def Timetable.Progress (x : Timetable) (k : Nat) (awake : Prop) (s : Schedule) (c : Cycle) :
    Phase → Prop
  | .collecting _ _ =>
    s.now < x.deadline ∧ ⟨x.deadline, .cycle k⟩ ∈ s.timers ∧ (c.reports ≠ [] → awake) ∨
    s.now = x.deadline ∧ awake ∧ c.outstanding = x.late
  | .delivering _ => awake ∧ c.outstanding = 0 ∧ x.late = 0
  | .joining => (awake ∨ s.endings = [] ∧ 0 < c.guards) ∧ x.Settled s c
  | .done => x.Settled s c
  | _ => False

/-- The collection of a cycle keeps to the timetable:

- `limit`: the cycle has the time limit that it says;
- `slot`: until the collection is over there is room for the snapshot;
- `endings`, `nodup`: the ends that are to be taken note of are those of
  the workers that have ended;
- `progress`: the collection has got as far as it says. -/
structure Course (x : Timetable) (k : Nat) (awake : Prop) (s : Schedule) (c : Cycle) : Prop where
  limit : c.limit = x.limit
  slot : c.phase.isOver = false → s.state.mailbox.slot = .free
  endings : ∀ e, e ∈ s.endings ↔ e.1 = k ∧ ∃ o, c.stage? e.2 = some (.ended o)
  nodup : s.endings.Nodup
  progress : x.Progress k awake s c c.phase

/-- The turns that are left at most, with the timers that will give
somebody a turn. -/
def Schedule.weight (s : Schedule) (c : Cycle) : Nat :=
  s.ready.length + 2 * s.timers.length + 2 * c.toGo

/-- A schedule goes on at the same time, and nothing that is to be
done is forgotten. -/
structure Schedule.Carries (k : Nat) (s s' : Schedule) : Prop where
  backend : s'.backend = s.backend
  now : s'.now = s.now
  timers : ∀ u ∈ s.timers, u ∈ s'.timers
  ready : ∀ i, .worker k i ∈ s.ready → .worker k i ∈ s'.ready

section

variable {x : Timetable} {o : State} {k : Nat} {acting : Option Nat} {awake awake' : Prop}
  {p m i : Nat} {s s' : Schedule} {c c' : Cycle} {stage stage' : Stage}

/-- A schedule in which nothing happens goes on. -/
theorem Schedule.Carries.refl (s : Schedule) : s.Carries k s :=
  ⟨rfl, rfl, fun _ => id, fun _ => id⟩

/-- An event does not make time pass, and nobody has to do anything else
after it. -/
theorem Schedule.Carries.act (s : Schedule) (e : Event) : s.Carries k (s.act e) where
  backend := backend_act
  now := now_act
  timers u hu := by rwa [timers_act]
  ready i hi := by rwa [ready_act]

/-- Nor has anybody when a task is woken. -/
theorem Schedule.Carries.wake (h : s.Carries k s') (t : Task) : s.Carries k (s'.wake t) where
  backend := by rw [backend_wake, h.backend]
  now := by rw [now_wake, h.now]
  timers u hu := by
    rw [timers_wake]
    exact h.timers u hu
  ready i hi := mem_ready_wake.mpr (.inr (h.ready i hi))

/-! ## The roster -/

/-- Whoever is on time remains so while time stands still, as long as it
stays ready if it was, and its timer stays set if it was. -/
theorem Timetable.Punctual.carry (h : x.Punctual k acting s i stage) (hs : s.Carries k s') :
    x.Punctual k acting s' i stage := by
  cases stage with
  | dispatched | waiting | ended | joined =>
    unfold Punctual at h ⊢
    rw [hs.now]
    exact h
  | admitted =>
    unfold Punctual at h ⊢
    rw [hs.now]
    exact ⟨h.1, h.2.imp_right (hs.ready i)⟩
  | inspecting =>
    unfold Punctual at h ⊢
    rw [hs.now]
    rcases h with hacts | ⟨hnow, hready⟩ | ⟨hlater, htimer⟩
    · exact .inl hacts
    · exact .inr (.inl ⟨hnow, hs.ready i hready⟩)
    · exact .inr (.inr ⟨hlater, hs.timers _ htimer⟩)
  | concluded | released =>
    unfold Punctual at h ⊢
    rw [hs.now]
    exact h

/-- It makes no difference for the others who has the thread. -/
theorem Timetable.Punctual.rest (h : x.Punctual k acting s i stage) (hi : acting ≠ some i) :
    x.Punctual k none s i stage := by
  cases stage with
  | dispatched | waiting | ended | joined => exact h
  | admitted => exact ⟨h.1, h.2.imp_left fun hacts => absurd hacts hi⟩
  | inspecting =>
    rcases h with hacts | hlater
    · exact absurd hacts.2 hi
    · exact .inr hlater
  | concluded | released => exact absurd h.2 hi

namespace Roster

/-- There is a worker for each delay. -/
theorem length_workers (h : Roster x k acting p m s c) : c.workers.length = x.delays.length := by
  rw [← h.delays, List.length_map]

/-- So every place of the listing has a worker in some stage. -/
theorem exists_stage (h : Roster x k acting p m s c) (hi : i < x.delays.length) :
    ∃ stage, c.stage? i = some stage := by
  rw [← h.length_workers] at hi
  exact ⟨_, Cycle.stage?_eq_some_iff.mpr ⟨_, List.getElem?_eq_getElem hi, rfl⟩⟩

/-- Conversely a worker has its place in the listing. -/
theorem lt_of_stage (h : Roster x k acting p m s c) (hs : c.stage? i = some stage) :
    i < x.delays.length := by
  obtain ⟨w, hw, -⟩ := Cycle.stage?_eq_some_iff.mp hs
  rw [← h.length_workers]
  exact (List.getElem?_eq_some_iff.mp hw).1

/-- A worker reports when its own inspection has taken its time, counted
from its admission. -/
theorem report_eq (h : Roster x k acting p m s c) {w : Worker} (hw : c.workers[i]? = some w) :
    x.report i = x.admitted i + (s.backend.inspect w.container).delay := by
  have hdelay : x.delays[i]? = some (s.backend.inspect w.container).delay := by
    rw [← h.delays, List.getElem?_map, hw]
    rfl
  unfold Timetable.report
  rw [List.getD_eq_getElem?_getD, hdelay]
  rfl

/-- Whoever has reported did so at its time, which is not in the future. -/
theorem report_le (h : Roster x k acting p m s c) (hs : c.stage? i = some stage)
    (hreported : stage.hasReported = true) : x.report i ≤ s.now := by
  have hpunctual := h.punctual i stage hs
  cases stage with
  | ended | joined => exact hpunctual
  | dispatched | waiting | admitted | inspecting | concluded | released => cases hreported

/-- Whoever has been admitted and still has to report holds a
permit: it has asked and does not wait, and it returns the permit
only when it reports. -/
theorem exists_permit (h : Roster x k acting p m s c) (hkept : c.PermitsKept) (hi : i < p)
    (hlater : s.now < x.report i) : ∃ stage, c.stage? i = some stage ∧ 0 < stage.permits := by
  have hordered := h.ordered
  obtain ⟨stage, hs⟩ := h.exists_stage (i := i) (by omega)
  have hpunctual := h.punctual i stage hs
  refine ⟨stage, hs, ?_⟩
  cases stage with
  | dispatched =>
    have hasked := ((h.dispatched i).mp hs).1
    omega
  | waiting =>
    have hqueued := (hkept.queued i).mpr hs
    rw [h.queue, List.mem_range'_1] at hqueued
    omega
  | admitted | inspecting | concluded => exact Nat.one_pos
  | released =>
    have hnow := hpunctual.1
    omega
  | ended | joined =>
    have hpast : x.report i ≤ s.now := hpunctual
    omega

/-- The next worker is admitted now or was to be admitted before, if
fewer than 64 permits are held in a cycle in which all of the workers
before it that still have to report hold one. These are then fewer than
64, and this is what the timetable asks for. -/
theorem admitted_le (h : Roster x k acting p m s c) (hstart : x.start ≤ s.now) {d : Cycle}
    (hlength : d.workers.length = c.workers.length)
    (hheld : ∀ j < p, s.now < x.report j →
      ∃ stage, d.stage? j = some stage ∧ 0 < stage.permits)
    (hfree : d.total Stage.permits < maxInspections) : x.admitted p ≤ s.now := by
  have hordered := h.ordered
  have hworkers := h.length_workers
  have hcount := Cycle.countP_le_total (c := d) (p := p) (f := fun j => s.now < x.report j)
    (by omega) fun j hj hlater => hheld j hj (of_decide_eq_true hlater)
  rw [Timetable.admitted_le_iff x (by omega) hstart]
  omega

/-- Those that wait begin with the first worker that has not been
admitted, so the one that gets the next permit is known. -/
theorem queue_cons (h : Roster x k acting p m s c) {next : Nat} {queue : List Nat}
    (hq : c.queue = next :: queue) :
    p = next ∧ p < m ∧ queue = List.range' (p + 1) (m - (p + 1)) := by
  have hrange := h.queue
  rw [hq] at hrange
  have hpm : p < m := by
    by_contra hnot
    rw [Nat.sub_eq_zero_of_le (by omega)] at hrange
    cases hrange
  rw [show m - p = m - (p + 1) + 1 by omega, List.range'_succ] at hrange
  cases hrange
  exact ⟨rfl, hpm, rfl⟩

/-- Nothing happens to the workers, so the roster remains. -/
theorem carry (h : Roster x k acting p m s c) (hs : s.Carries k s')
    (hinspections : s'.inspections = s.inspections) (hworkers : c'.workers = c.workers)
    (hqueue : c'.queue = c.queue) : Roster x k acting p m s' c' where
  delays := by
    rw [hworkers, hs.backend]
    exact h.delays
  punctual i stage hi := by
    unfold Cycle.stage? at hi
    rw [hworkers] at hi
    exact (h.punctual i stage hi).carry hs
  ordered := h.ordered
  queue := hqueue.trans h.queue
  dispatched i := by
    unfold Cycle.stage?
    rw [hworkers]
    exact h.dispatched i
  inspections := hinspections ▸ h.inspections
  recorded i hi hs := by
    unfold Cycle.stage? at hs
    rw [hworkers] at hs
    rw [hinspections]
    exact h.recorded i hi hs

end Roster

/-- What holds of the stages of all workers holds when one of them gets
on, if it holds of its new stage. -/
theorem Cycle.forall_stage_setStage {P : Nat → Stage → Prop}
    (h : ∀ j t, j ≠ i → c.stage? j = some t → P j t) (hi : P i stage') (j : Nat) (t : Stage)
    (hj : (c.setStage i stage').stage? j = some t) : P j t := by
  rw [Cycle.stage?_setStage] at hj
  split at hj
  · rename_i hij
    subst hij
    obtain ⟨_, -, rfl⟩ := Option.map_eq_some_iff.mp hj
    exact hi
  · rename_i hij
    exact h j t (Ne.symm hij) hj

/-- The delays are those of the containers, which remain the same. -/
theorem Cycle.delays_setStage (c : Cycle) (i : Nat) (stage : Stage) (f : ListedContainer → Nat) :
    (c.setStage i stage).workers.map (fun w => f w.container)
      = c.workers.map fun w => f w.container := by
  have h := congrArg (List.map f) (Cycle.containers_setStage c i stage)
  simpa only [List.map_map, Function.comp_def] using h

namespace Roster

/-- A worker gets on and is on time. What this means for the order of
admissions is left to say: who has been admitted, who waits and who has
not asked yet. The lemmas below are cases of this. -/
theorem restage (h : Roster x k acting p m s c) (hcarries : s.Carries k s')
    (hinspections : s'.inspections = s.inspections) (hpunctual : x.Punctual k acting s' i stage')
    (hrecorded : stage' = .inspecting → acting = some i) {p' m' : Nat}
    (hordered : p' ≤ m' ∧ m' ≤ x.delays.length)
    (hdispatched : ∀ j, (c.setStage i stage').stage? j = some .dispatched ↔
      m' ≤ j ∧ j < x.delays.length) {queue : List Nat} (hqueue : queue = List.range' p' (m' - p'))
    (permits : Nat) :
    Roster x k acting p' m' s' { c.setStage i stage' with permits, queue } where
  delays := by
    rw [hcarries.backend]
    exact (Cycle.delays_setStage c i stage' fun ct => (s.backend.inspect ct).delay).trans h.delays
  punctual := Cycle.forall_stage_setStage (P := x.Punctual k acting s')
    (fun j t _ hj => (h.punctual j t hj).carry hcarries) hpunctual
  ordered := hordered
  queue := hqueue
  dispatched := hdispatched
  inspections := hinspections ▸ h.inspections
  recorded j hacting hj := by
    rw [hinspections]
    refine Cycle.forall_stage_setStage
      (P := fun j t => acting ≠ some j → t = .inspecting → ∃ u ∈ s.inspections, u.what.worker = j)
      (fun j t _ hj hacting ht => h.recorded j hacting (ht ▸ hj)) ?_ j _ hj hacting rfl
    exact fun hne ht => absurd (hrecorded ht) hne

/-- The workers that have not asked yet are those that had not, but for
one that gets on. -/
theorem dispatched_setStage (h : Roster x k acting p m s c) (hnew : stage' ≠ .dispatched)
    (j : Nat) : (c.setStage i stage').stage? j = some .dispatched ↔
      j ≠ i ∧ m ≤ j ∧ j < x.delays.length := by
  rw [← h.dispatched j, Cycle.stage?_setStage]
  split
  · rename_i hij
    subst hij
    simp [hnew]
  · rename_i hij
    simp [Ne.symm hij]

/-- A worker gets on that has asked for a permit already and keeps its
place, so nothing changes about who waits. -/
theorem setStage (h : Roster x k acting p m s c) (hs : c.stage? i = some stage)
    (hold : stage ≠ .dispatched) (hnew : stage' ≠ .dispatched) (hcarries : s.Carries k s')
    (hinspections : s'.inspections = s.inspections) (hpunctual : x.Punctual k acting s' i stage')
    (hrecorded : stage' = .inspecting → acting = some i) (permits : Nat) :
    Roster x k acting p m s' { c.setStage i stage' with permits } := by
  refine h.restage hcarries hinspections hpunctual hrecorded h.ordered (fun j => ?_) h.queue permits
  have hasked : ¬(m ≤ i ∧ i < x.delays.length) := by
    rw [← h.dispatched i, hs, Option.some.injEq]
    exact hold
  rw [h.dispatched_setStage hnew]
  constructor
  · exact And.right
  · rintro hj
    exact ⟨fun hij => hasked (hij ▸ hj), hj⟩

/-- A worker asks and has to wait. It is the next of the listing, so the
queue remains in the order of the listing. -/
theorem enqueue (h : Roster x k acting p m s c) (hs : c.stage? m = some .dispatched)
    (hcarries : s.Carries k s') (hinspections : s'.inspections = s.inspections) :
    Roster x k acting p (m + 1) s' { c.setStage m .waiting with queue := c.queue ++ [m] } := by
  have hordered := h.ordered
  have hm := (h.dispatched m).mp hs
  have hearly : x.Punctual k acting s' m .waiting :=
    (h.punctual m .dispatched hs).carry hcarries
  refine h.restage hcarries hinspections hearly (by simp) (by omega) (fun j => ?_) ?_ c.permits
  · rw [h.dispatched_setStage (by simp)]
    omega
  · rw [h.queue, show m + 1 - p = m - p + 1 by omega, List.range'_concat]
    simp
    omega

/-- A worker is admitted whose time has come. It is the next of the
listing, and has waited or just asked: in the first case the queue
becomes shorter, in the second one it is empty. -/
theorem promote (h : Roster x k acting p m s c) {m' : Nat}
    (hm : p < m ∧ m' = m ∨ p = m ∧ m' = m + 1) (hp : p < x.delays.length)
    (hcarries : s.Carries k s') (hinspections : s'.inspections = s.inspections)
    (hnow : x.admitted p = s'.now) (hturn : acting = some p ∨ .worker k p ∈ s'.ready)
    {queue : List Nat} (hqueue : queue = List.range' (p + 1) (m' - (p + 1))) (permits : Nat) :
    Roster x k acting (p + 1) m' s' { c.setStage p .admitted with permits, queue } := by
  have hordered := h.ordered
  have hpunctual : x.Punctual k acting s' p .admitted := ⟨hnow, hturn⟩
  refine h.restage hcarries hinspections hpunctual (by simp) (by omega) (fun j => ?_) hqueue permits
  rw [h.dispatched_setStage (by simp)]
  omega

/-- A worker gives the thread back when it has nothing to do. It then
has to be on time by itself: it waits, or has a timer, or has ended. -/
theorem rest (h : Roster x k (some i) p m s c)
    (hpunctual : ∀ stage, c.stage? i = some stage → x.Punctual k none s i stage)
    (hrecorded : c.stage? i = some .inspecting → ∃ u ∈ s.inspections, u.what.worker = i) :
    Roster x k none p m s c where
  delays := h.delays
  punctual j t hj := by
    by_cases hij : i = j
    · subst hij
      exact hpunctual t hj
    · exact (h.punctual j t hj).rest (by simpa using hij)
  ordered := h.ordered
  queue := h.queue
  dispatched := h.dispatched
  inspections := h.inspections
  recorded j _ hj := by
    by_cases hij : i = j
    · subst hij
      exact hrecorded hj
    · exact h.recorded j (by simpa using hij) hj

end Roster

/-! ## The course of the collection -/

/-- The collection does not get any further if no report is sent or
received, and what it waits for is still set. -/
theorem Timetable.Progress.carry {phase : Phase} (h : x.Progress k awake s c phase)
    (hcarries : s.Carries k s') (hendings : s'.endings = s.endings) (hawake : awake → awake')
    (hreports : c'.reports = c.reports) (hguards : c'.guards = c.guards) :
    x.Progress k awake' s' c' phase := by
  -- Nothing is sent or received, so as much is outstanding.
  have houtstanding : c'.outstanding = c.outstanding := by
    unfold Cycle.outstanding
    rw [hreports, hguards]
  cases phase with
  | listing | dispatching => exact h
  | collecting pending gathered =>
    unfold Progress at h ⊢
    rw [hcarries.now, hreports, houtstanding]
    rcases h with ⟨hnow, htimer, hturn⟩ | ⟨hnow, hturn, hlate⟩
    · exact .inl ⟨hnow, hcarries.timers _ htimer, fun hne => hawake (hturn hne)⟩
    · exact .inr ⟨hnow, hawake hturn, hlate⟩
  | delivering snapshot =>
    unfold Progress at h ⊢
    rw [houtstanding]
    exact ⟨hawake h.1, h.2⟩
  | joining =>
    unfold Progress Settled at h ⊢
    rw [hcarries.now, houtstanding, hendings, hguards]
    exact ⟨h.1.imp_left hawake, h.2⟩
  | done =>
    unfold Progress Settled at h ⊢
    rw [hcarries.now, houtstanding]
    exact h

/-- What is outstanding remains so, and the cycle is ready whatever it
waits for. A worker that reports brings this about. -/
theorem Timetable.Progress.wakes {phase : Phase} (h : x.Progress k awake s c phase)
    (hcarries : s.Carries k s') (houtstanding : c'.outstanding = c.outstanding)
    (hawake : awake') : x.Progress k awake' s' c' phase := by
  cases phase with
  | listing | dispatching => exact h
  | collecting pending gathered =>
    unfold Progress at h ⊢
    rw [hcarries.now, houtstanding]
    rcases h with ⟨hnow, htimer, -⟩ | ⟨hnow, -, hlate⟩
    · exact .inl ⟨hnow, hcarries.timers _ htimer, fun _ => hawake⟩
    · exact .inr ⟨hnow, hawake, hlate⟩
  | delivering snapshot =>
    unfold Progress at h ⊢
    rw [houtstanding]
    exact ⟨hawake, h.2⟩
  | joining =>
    unfold Progress Settled at h ⊢
    rw [hcarries.now, houtstanding]
    exact ⟨.inl hawake, h.2⟩
  | done =>
    unfold Progress Settled at h ⊢
    rw [hcarries.now, houtstanding]
    exact h

/-- All workers have been dispatched when the timetable begins to apply. -/
theorem Timetable.Progress.left_eq_nil {phase : Phase} (h : x.Progress k awake s c phase) :
    phase.left = [] := by
  cases phase with
  | listing | dispatching => exact h.elim
  | collecting | delivering | joining | done => rfl

/-- The collection gets on, and the workers do not. -/
theorem Course.setPhase (h : Course x k awake s c) (hendings : s'.endings = s.endings)
    (hworkers : c'.workers = c.workers) (hlimit : c'.limit = c.limit)
    (hslot : c'.phase.isOver = false → s'.state.mailbox.slot = .free)
    (hprogress : x.Progress k awake' s' c' c'.phase) : Course x k awake' s' c' where
  limit := hlimit.trans h.limit
  slot := hslot
  endings := by
    unfold Cycle.stage?
    rw [hworkers, hendings]
    exact h.endings
  nodup := hendings ▸ h.nodup
  progress := hprogress

/-- Nothing happens to the cycle, so the collection has got as far as before. -/
theorem Course.carry (h : Course x k awake s c) (hcarries : s.Carries k s')
    (hendings : s'.endings = s.endings) (hslot : s'.state.mailbox.slot = s.state.mailbox.slot)
    (hawake : awake → awake') : Course x k awake' s' c :=
  h.setPhase hendings rfl rfl (hslot ▸ h.slot)
    (h.progress.carry hcarries hendings hawake rfl rfl)

/-- A worker gets on without reporting, and the collector cannot tell. -/
theorem Course.setStage (h : Course x k awake s c) (hs : c.stage? i = some stage)
    (hold : stage.hasReported = false) (hnew : stage'.hasReported = false)
    (hcarries : s.Carries k s') (hendings : s'.endings = s.endings)
    (hslot : s'.state.mailbox.slot = s.state.mailbox.slot) (permits : Nat) (queue : List Nat) :
    Course x k awake s' { c.setStage i stage' with permits, queue } where
  limit := h.limit
  slot := by
    rw [hslot]
    exact h.slot
  endings e := by
    show _ ↔ e.1 = k ∧ ∃ o, (c.setStage i stage').stage? e.2 = some (.ended o)
    rw [hendings, h.endings, Cycle.stage?_setStage]
    split
    · -- The worker had not ended before, and has not ended now.
      rename_i hi
      rw [← hi, hs]
      have hne (o : Option Outcome) : stage ≠ .ended o := by
        rintro rfl
        cases hold
      have hne' (o : Option Outcome) : stage' ≠ .ended o := by
        rintro rfl
        cases hnew
      simp [hne, hne']
    · rfl
  nodup := by
    rw [hendings]
    exact h.nodup
  progress := by
    have hguards : (c.setStage i stage').guards = c.guards :=
      Cycle.guards_setStage hs (by rw [hold, hnew])
    exact h.progress.carry hcarries hendings id rfl hguards

/-- A worker reports, and its end is to be taken note of. What is
outstanding remains so, since the report is on the channel now instead
of being with the worker. -/
theorem Course.report (h : Course x k awake s c) {outcome : Option Outcome}
    (hs : c.stage? i = some (.released outcome)) (hcarries : s.Carries k s')
    (hendings : s'.endings = s.endings ++ [(k, i)])
    (hslot : s'.state.mailbox.slot = s.state.mailbox.slot) (hawake : awake')
    {reports : List (Option Assignment)}
    (houtstanding : ({ c.setStage i (.ended outcome) with reports } : Cycle).outstanding
      = c.outstanding) :
    Course x k awake' s' { c.setStage i (.ended outcome) with reports } where
  limit := h.limit
  slot := by
    rw [hslot]
    exact h.slot
  endings e := by
    show _ ↔ e.1 = k ∧ ∃ o, (c.setStage i (.ended outcome)).stage? e.2 = some (.ended o)
    rw [hendings, List.mem_append, List.mem_singleton, h.endings, Cycle.stage?_setStage]
    split
    · rename_i hi
      rw [← hi, hs]
      simp [Prod.ext_iff, hi]
    · rename_i hi
      simp [Prod.ext_iff, Ne.symm hi]
  nodup := by
    -- The worker has not ended before, so its end is a new one.
    have hnew : (k, i) ∉ s.endings := by
      rw [h.endings, hs]
      simp
    rw [hendings]
    exact h.nodup.append (List.nodup_singleton _) (by simpa using hnew)
  progress := h.progress.wakes hcarries houtstanding hawake

/-- The end of a worker is taken note of, so it is no longer among
those that are to be. -/
theorem Course.join (h : Course x k awake s c) {outcome : Option Outcome}
    (hp : c.phase = .joining) (hs : c.stage? i = some (.ended outcome))
    (hcarries : s.Carries k s') (hendings : s'.endings = s.endings.erase (k, i))
    (hawake : awake') : Course x k awake' s' (c.setStage i .joined) where
  limit := h.limit
  slot hnot := by
    rw [Cycle.phase_setStage, hp] at hnot
    cases hnot
  endings e := by
    rw [hendings, h.nodup.mem_erase_iff, h.endings, Cycle.stage?_setStage]
    split
    · rename_i hi
      rw [← hi, hs]
      simp [Prod.ext_iff, hi]
    · rename_i hi
      simp [Prod.ext_iff, Ne.symm hi]
  nodup := by
    rw [hendings]
    exact h.nodup.erase _
  progress := by
    -- The worker has reported, so it is not one of those that still have to.
    have hguards : (c.setStage i .joined).guards = c.guards := Cycle.guards_setStage hs rfl
    have hprogress := h.progress
    rw [hp] at hprogress
    rw [Cycle.phase_setStage, hp]
    refine ⟨.inl hawake, ?_, fun hlate => ?_⟩
    · rw [← hprogress.2.1]
      unfold Cycle.outstanding
      rw [hguards]
      rfl
    · rw [hcarries.now]
      exact hprogress.2.2 hlate

end

/-- The cycle keeps to the timetable in all respects. -/
structure OnTime (x : Timetable) (o : State) (k : Nat) (acting : Option Nat) (awake : Prop)
    (p m : Nat) (s : Schedule) (c : Cycle) : Prop where
  thread : Thread x o k s c
  roster : Roster x k acting p m s c
  course : Course x k awake s c

/-- A schedule has gone on for a while, and a cycle with it. The turns that
are left have not become more, and whoever was ready is still in front. -/
structure Schedule.Onward (s : Schedule) (c : Cycle) (s' : Schedule) (c' : Cycle) : Prop where
  weight : s'.weight c' ≤ s.weight c
  ready : s.ready <+: s'.ready

namespace Schedule

variable {s s' s'' : Schedule} {c c' c'' : Cycle}

/-- What goes on for a while and then for another while goes on for both. -/
theorem Onward.trans (h : s.Onward c s' c') (h' : s'.Onward c' s'' c'') : s.Onward c s'' c'' :=
  ⟨Nat.le_trans h'.weight h.weight, h.ready.trans h'.ready⟩

/-- A schedule in which nobody has become ready goes on if it has not
more turns left. -/
theorem Onward.of_ready_eq (hweight : s'.weight c' ≤ s.weight c) (hready : s'.ready = s.ready) :
    s.Onward c s' c' :=
  ⟨hweight, hready ▸ List.prefix_refl _⟩

/-- Only the tasks count, those that are ready and those that will be. -/
theorem weight_congr (hready : s'.ready = s.ready) (htimers : s'.timers = s.timers) (c : Cycle) :
    s'.weight c = s.weight c := by
  unfold weight
  rw [hready, htimers]

/-- A task that is woken costs one turn, if it was not ready before. -/
theorem weight_wake_le (s : Schedule) (t : Task) (c : Cycle) :
    (s.wake t).weight c ≤ s.weight c + 1 := by
  have hlength := length_ready_wake_le (s := s) (t := t)
  unfold weight
  rw [timers_wake]
  omega

/-- A timer costs two turns: the task is woken when it fires, and
then has a turn. -/
theorem weight_setTimer (s : Schedule) (due : Nat) (t : Task) (c : Cycle) :
    (s.setTimer due t).weight c = s.weight c + 2 := by
  show s.ready.length + 2 * (Timed.insert ⟨due, t⟩ s.timers).length + 2 * c.toGo = _
  rw [Timed.length_insert]
  unfold weight
  omega

end Schedule

/-- A move pays for two turns, as the cycle has fewer steps before it.
So the task that moves can wake another one, or set a timer. -/
theorem Thread.weight_act_move {x : Timetable} {o : State} {k : Nat} {s : Schedule} {c c' : Cycle}
    (h : Thread x o k s c) {mv : Move} {effect : Effect} (hm : c.move? mv = some (c', effect)) :
    (s.act (.move k mv)).weight c' + 2 ≤ s.weight c := by
  have hless := h.toGo_lt hm
  unfold Schedule.weight
  rw [Schedule.ready_act, Schedule.timers_act]
  omega

namespace OnTime

variable {x : Timetable} {o : State} {k : Nat} {acting : Option Nat} {awake awake' : Prop}
  {p m i : Nat} {s s' : Schedule} {c c' : Cycle} {stage stage' : Stage}

/-- Nothing happens to the cycle. -/
theorem carry (h : OnTime x o k acting awake p m s c) (hthread : Thread x o k s' c)
    (hcarries : s.Carries k s') (hinspections : s'.inspections = s.inspections)
    (hendings : s'.endings = s.endings) (hslot : s'.state.mailbox.slot = s.state.mailbox.slot)
    (hawake : awake → awake') : OnTime x o k acting awake' p m s' c where
  thread := hthread
  roster := h.roster.carry hcarries hinspections rfl rfl
  course := h.course.carry hcarries hendings hslot hawake

/-- What is told to the journal has nothing to do with the timetable. -/
theorem note (h : OnTime x o k acting awake p m s c) (lines : List Line) :
    OnTime x o k acting awake p m (s.act (.note lines)) c :=
  h.carry (h.thread.act_note lines) (.act s _) rfl rfl rfl id

/-- What is recorded and counted has nothing to do with the timetable either. -/
theorem tally (h : OnTime x o k acting awake p m s c) (requests : List Request)
    (inspected inFlight maxInFlight : Nat) :
    OnTime x o k acting awake p m { s with requests, inspected, inFlight, maxInFlight } c :=
  h.carry (h.thread.congr rfl rfl rfl rfl h.thread.ready)
    ⟨rfl, rfl, fun _ => id, fun _ => id⟩ rfl rfl rfl id

/-- The cycle is woken, and is awake then. -/
theorem wake (h : OnTime x o k acting awake p m s c) :
    OnTime x o k acting (.cycle k ∈ (s.wake (.cycle k)).ready) p m (s.wake (.cycle k)) c :=
  h.carry (h.thread.wake (.inl rfl)) ((Schedule.Carries.refl s).wake (.cycle k)) (by simp)
    (by simp) (by simp) fun _ => Schedule.mem_ready_wake.mpr (.inl rfl)

/-- Whether the cycle has to be ready depends on how far the collection
has got, and on nothing else. -/
theorem rouse (h : OnTime x o k acting awake p m s c)
    (hprogress : x.Progress k awake' s c c.phase) : OnTime x o k acting awake' p m s c where
  thread := h.thread
  roster := h.roster
  course := h.course.setPhase rfl rfl rfl h.course.slot hprogress

/-- A worker gets on that has asked for a permit already and does not
report yet. Of the timetable this concerns the worker alone. -/
theorem setStage (h : OnTime x o k acting awake p m s c) (hs : c.stage? i = some stage)
    {mv : Move} {permits : Nat} {effect : Effect}
    (hm : c.move? mv = some ({ c.setStage i stage' with permits }, effect))
    (hold : stage ≠ .dispatched ∧ stage.hasReported = false)
    (hnew : stage' ≠ .dispatched ∧ stage'.hasReported = false)
    (hpunctual : x.Punctual k acting s i stage')
    (hrecorded : stage' = .inspecting → acting = some i) :
    OnTime x o k acting awake p m (s.act (.move k mv)) { c.setStage i stage' with permits } := by
  obtain ⟨hthread, hslot⟩ := h.thread.act_move hm
  have hcarries := Schedule.Carries.act (k := k) s (.move k mv)
  refine ⟨hthread, ?_, ?_⟩
  · exact h.roster.setStage hs hold.1 hnew.1 hcarries Schedule.inspections_act
      (hpunctual.carry hcarries) hrecorded permits
  · exact h.course.setStage hs hold.2 hnew.2 hcarries Schedule.endings_act hslot permits c.queue

end OnTime

/-- The workers that have not asked for a permit yet are the next to get
the thread, in the order of the listing. -/
def Timetable.InLine (x : Timetable) (k m : Nat) (s : Schedule) : Prop :=
  (List.range' m (x.delays.length - m)).map (.worker k) <+: s.ready

/-- Nobody has the thread, and the cycle keeps to the timetable. -/
def Paused (x : Timetable) (o : State) (k : Nat) (s : Schedule) (c : Cycle) : Prop :=
  ∃ p m, OnTime x o k none (.cycle k ∈ s.ready) p m s c ∧ x.InLine k m s

end NpuAttribution.Poll
