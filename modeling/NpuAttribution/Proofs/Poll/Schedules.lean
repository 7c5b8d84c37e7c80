import NpuAttribution.Poll.Schedule.Owner
import NpuAttribution.Proofs.Poll.Fetches

/-!
# `NpuAttribution.Proofs.Poll.Schedules`: a schedule makes the monitor run

A schedule decides what happens next and when. Whatever it decides, its state is where some
run of the monitor leads: `Faithful` says this, and every function of a schedule keeps it.
So everything that is proved of all runs holds for schedules, and in particular every cycle
of a schedule is a `FetchRun` of its backend (`fetchRun_of_faithful`).

A schedule does one thing by itself that is no event of the monitor. It records the requests
that are made to the outside world. They are the ones that the events of the run call for.
-/

set_option autoImplicit false

namespace NpuAttribution.Poll

/-- The requests that are made in a move of a cycle are those that
the cycle makes. -/
theorem State.asked_move {b : Backend} {s : State} {k : Nat} {c : Cycle}
    (hc : s.cycles[k]? = some c) (m : Move) :
    s.asked b (.move k m) = c.asked b (.move m) := by
  simp only [State.asked, hc]

/-- Events in which no request is made and nothing is said that the
backend has to say. -/
def Event.isQuiet : Event → Bool
  | .move _ (.listed _) => false
  | .move _ (.begin _) => false
  | .move _ (.conclude _ _) => false
  | _ => true

namespace Schedule

/-- A schedule has come about by the given events:

- `source`, `known`: it works for the backend and the majors;
- `run`: its state is where the events lead;
- `listing`, `outcomes`: what is listed and what inspections come to is
  said by the backend;
- `inspections`: so is what will be found by the inspections that are
  going on;
- `requests`: it has recorded the requests that the events call for. -/
structure Traced (b : Backend) (majors : List Nat) (s : Schedule) (es : List Event) : Prop where
  source : s.backend = b
  known : s.majors = majors
  run : State.run? {} es = some s.state
  listing : ∀ k r, .move k (.listed r) ∈ es → r = b.listing.1
  outcomes : ∀ k i o, .move k (.conclude i o) ∈ es → o = b.outcomeAt majors i
  inspections : ∀ t ∈ s.inspections, ∃ containers ct, b.listing.1 = .ok containers ∧
    containers[t.what.worker]? = some ct ∧ t.what.found = (b.inspect ct).found
  requests : s.requests = along State.step? (State.asked b) {} es

/-- A schedule has come about by some events. -/
def Faithful (b : Backend) (majors : List Nat) (s : Schedule) : Prop := ∃ es, Traced b majors s es

section

variable {b : Backend} {majors : List Nat} {s s' : Schedule} {es : List Event}

/-- A schedule that has not done anything has come about by no events. -/
theorem faithful_new (b : Backend) (majors : List Nat) (limit : Nat) :
    Faithful b majors { backend := b, majors := majors, limit := limit } :=
  ⟨[], rfl, rfl, rfl, nofun, nofun, nofun, rfl⟩

/-- Only part of a schedule counts: the clock, the tasks and the timers
can be anything. -/
theorem Faithful.congr (h : Faithful b majors s) (hbackend : s'.backend = s.backend)
    (hmajors : s'.majors = s.majors) (hstate : s'.state = s.state)
    (hrequests : s'.requests = s.requests)
    (hinspections : ∀ t ∈ s'.inspections, t ∈ s.inspections) :
    Faithful b majors s' := by
  obtain ⟨es, h⟩ := h
  refine ⟨es, hbackend.trans h.source, hmajors.trans h.known, ?_, h.listing, h.outcomes,
    fun t ht => h.inspections t (hinspections t ht), hrequests.trans h.requests⟩
  rw [hstate]
  exact h.run

/-- One more event, with the requests that it calls for. What the
event says has to be said by the backend, if it is a listing or the
end of an inspection. -/
theorem Traced.append (h : Traced b majors s es) {e : Event}
    (hstate : s.state.step? e = some s'.state)
    (hrequests : s'.requests = s.requests ++ State.asked b s.state e)
    (hlisting : ∀ k r, e = .move k (.listed r) → r = b.listing.1)
    (houtcome : ∀ k i o, e = .move k (.conclude i o) → o = b.outcomeAt majors i)
    (hsource : s'.backend = s.backend) (hknown : s'.majors = s.majors)
    (hinspections : s'.inspections = s.inspections) : Traced b majors s' (es ++ [e]) := by
  refine ⟨hsource.trans h.source, hknown.trans h.known, ?_, ?_, ?_, ?_, ?_⟩
  -- The run goes on where it has ended so far.
  · have hrun := h.run
    unfold State.run? at hrun ⊢
    rw [follow_append_singleton, hrun]
    exact hstate
  -- What was said before was said by the backend, and so is what is said now.
  · intro k r hr
    rcases List.mem_append.mp hr with hold | hnew
    · exact h.listing k r hold
    · exact hlisting k r (List.mem_singleton.mp hnew).symm
  · intro k i o ho
    rcases List.mem_append.mp ho with hold | hnew
    · exact h.outcomes k i o hold
    · exact houtcome k i o (List.mem_singleton.mp hnew).symm
  · rw [hinspections]
    exact h.inspections
  · rw [along_append_singleton _ h.run, ← h.requests, hrequests]

/-- A quiet event calls for no requests. -/
theorem asked_of_isQuiet (b : Backend) (s : State) {e : Event} (h : e.isQuiet = true) :
    State.asked b s e = [] := by
  cases e with
  | move k m =>
    cases m with
    | listed | begin | conclude => cases h
    | collect | ask | release | report | receive | expire | hangUp | join | finish =>
      simp only [State.asked]
      split <;> rfl
  | _ => rfl

/-- An event can always be tried, if it says nothing but what the
backend says. If it is not possible then nothing happens. -/
theorem Traced.act (h : Traced b majors s es) {e : Event}
    (hasked : s.state.asked b e = [])
    (hlisting : ∀ k r, e = .move k (.listed r) → r = b.listing.1)
    (houtcome : ∀ k i o, e = .move k (.conclude i o) → o = b.outcomeAt majors i) :
    ∃ es', Traced b majors (s.act e) es' := by
  unfold Schedule.act
  split
  · rename_i state hstate
    have hrequests : s.requests = s.requests ++ s.state.asked b e := by
      rw [hasked, List.append_nil]
    exact ⟨es ++ [e], h.append hstate hrequests hlisting houtcome rfl rfl rfl⟩
  · exact ⟨es, h⟩

/-- A quiet event can always be tried, as it says nothing. -/
theorem Faithful.act (h : Faithful b majors s) {e : Event} (hquiet : e.isQuiet = true) :
    Faithful b majors (s.act e) := by
  obtain ⟨es, h⟩ := h
  refine h.act (asked_of_isQuiet b s.state hquiet) ?_ ?_
  · rintro k r rfl
    cases hquiet
  · rintro k i o rfl
    cases hquiet

/-- Lines can always be told to the journal. -/
theorem Faithful.note (h : Faithful b majors s) (lines : List Line) :
    Faithful b majors (s.act (.note lines)) :=
  h.act rfl

/-- An event that is possible happens. -/
theorem act_of_step? {e : Event} {state : State} (h : s.state.step? e = some state) :
    s.act e = { s with state } := by
  unfold Schedule.act
  rw [h]

/-- What is recorded is noted in the journal and among the requests. -/
theorem record_eq (s : Schedule) (trace : Trace) : s.record trace
    = { s with requests := s.requests ++ trace.requests, state := s.state.write trace.lines } :=
  rfl

/-- The workers of a cycle belong to the containers that the backend
lists, each to the one in its place. -/
theorem Traced.container (h : Traced b majors s es) {k i : Nat} {w : Worker}
    (hw : s.worker? k i = some w) :
    ∃ containers, b.listing.1 = .ok containers ∧ containers[i]? = some w.container := by
  obtain ⟨c, hc, hw⟩ := Option.bind_eq_some_iff.mp hw
  obtain ⟨limit, hrun, -⟩ := State.run?_stepsOf h.run (Nat.zero_le k) hc
  rcases Cycle.dispatched_or_idle hrun with ⟨containers, -, hlisted, hdispatched⟩ | ⟨hidle, -⟩
  · have hevent := (State.mem_of_mem_stepsOf h.run hlisted).2 _ rfl
    exact ⟨containers, (h.listing k _ hevent).symm, hdispatched.container hw⟩
  · rw [hidle] at hw
    cases hw

/-- A cycle lists what the backend lists. The requests for this are
recorded before the event, and belong to it. -/
theorem Faithful.listed (h : Faithful b majors s) {k : Nat} (hp : s.phase? k = some .listing) :
    Faithful b majors ((s.record b.listing.2).act (.move k (.listed b.listing.1))) := by
  obtain ⟨es, h⟩ := h
  obtain ⟨c, hc, hphase⟩ := Option.map_eq_some_iff.mp hp
  have hnote : Traced b majors { s with state := s.state.write b.listing.2.lines }
      (es ++ [.note b.listing.2.lines]) :=
    h.append rfl (List.append_nil _).symm nofun nofun rfl rfl rfl
  -- The listing is possible, so the requests are not recorded in vain.
  obtain ⟨c', hx⟩ := Cycle.exists_listed hphase b.listing.1
  obtain ⟨state, hstate⟩ := Option.isSome_iff_exists.mp
    (State.isSome_move (t := s.state.write b.listing.2.lines) hc hx)
  rw [record_eq, act_of_step? hstate]
  refine ⟨_, hnote.append hstate ?_ ?_ nofun rfl rfl rfl⟩
  · show s.requests ++ b.listing.2.requests = s.requests ++ State.asked b _ _
    rw [State.asked_move (s := s.state.write b.listing.2.lines) hc]
    rfl
  · rintro k r hr
    cases hr
    rfl

/-- An inspection begins with the requests that it calls for, and
these are recorded. -/
theorem Faithful.counted (h : Faithful b majors s) {k i : Nat} {w : Worker}
    (hw : s.worker? k i = some w) (hstage : w.stage = .admitted) :
    Faithful b majors (s.counted k i (b.inspect w.container).trace) := by
  obtain ⟨es, h⟩ := h
  obtain ⟨c, hc, hget⟩ := Option.bind_eq_some_iff.mp hw
  -- A worker with a permit can begin, so the requests are not recorded in vain.
  have hs : c.stage? i = some .admitted := Cycle.stage?_eq_some_iff.mpr ⟨w, hget, hstage⟩
  have hx : c.step? (.move (.begin i)) = some (c.setStage i .inspecting) := by
    simp [Cycle.step?, Cycle.move?, Effect.without, Cycle.begin?, hs]
  obtain ⟨state, hstate⟩ := Option.isSome_iff_exists.mp (State.isSome_move (t := s.state) hc hx)
  have hbegun : Traced b majors
      { s with state, requests := s.requests ++ (b.inspect w.container).trace.requests }
      (es ++ [.move k (.begin i)]) := by
    refine h.append hstate ?_ ?_ ?_ rfl rfl rfl
    · rw [State.asked_move hc]
      simp only [Cycle.asked, hget]
    · intro _ _ he
      cases he
    · intro _ _ _ he
      cases he
  have hnoted : Faithful b majors
      ((s.act (.move k (.begin i))).record (b.inspect w.container).trace) := by
    rw [act_of_step? hstate]
    exact Faithful.note ⟨_, hbegun⟩ _
  exact hnoted.congr rfl rfl rfl rfl fun _ ht => ht

/-- Waking a task is no event. -/
theorem Faithful.wake (h : Faithful b majors s) (t : Task) : Faithful b majors (s.wake t) := by
  unfold Schedule.wake
  split
  · exact h
  · exact h.congr rfl rfl rfl rfl fun _ ht => ht

/-- The workers that have ended are no part of the monitor. -/
theorem Faithful.setEndings (h : Faithful b majors s) (endings : List (Nat × Nat)) :
    Faithful b majors { s with endings } :=
  h.congr rfl rfl rfl rfl fun _ ht => ht

/-- What is done for one after the other can be done for all. -/
theorem Faithful.foldl {α : Type} {f : Schedule → α → Schedule}
    (hf : ∀ s a, Faithful b majors s → Faithful b majors (f s a)) (l : List α)
    (h : Faithful b majors s) : Faithful b majors (l.foldl f s) := by
  -- The fold takes the list from the front and the schedule changes with it.
  induction l generalizing s with
  | nil => exact h
  | cons a l ih => exact ih (hf s a h)

/-! ## The cycles -/

/-- Workers are dispatched one after the other. -/
theorem Faithful.dispatch (h : Faithful b majors s) (k count : Nat) :
    Faithful b majors (s.dispatch k count) :=
  h.foldl (fun _ _ h => (h.act rfl).wake _) _

/-- The first turn of a cycle: it lists containers, and dispatches
workers and begins to collect if there is something to inspect. -/
theorem Faithful.list (h : Faithful b majors s) {k : Nat} (hp : s.phase? k = some .listing) :
    Faithful b majors (s.list k) := by
  have hsource : s.backend = b := by
    obtain ⟨es, h⟩ := h
    exact h.source
  have hlisted := h.listed hp
  unfold Schedule.list
  rw [hsource]
  simp only
  split
  · rename_i left _
    have hcollect := (hlisted.dispatch k left.length).act (e := .move k .collect) rfl
    split
    · exact hcollect.congr rfl rfl rfl rfl fun _ ht => ht
    · exact hcollect
  · exact hlisted

/-- A cycle at the end of its allowance is woken for another turn, or it
finishes. -/
theorem Faithful.yieldTurn (h : Faithful b majors s) (k : Nat) :
    Faithful b majors (s.yieldTurn k) := by
  unfold Schedule.yieldTurn
  split
  · split
    · exact (h.setEndings _).wake _
    · exact h.act rfl
  · exact h.wake _
  · exact h

/-- A cycle goes on as long as it can, within its allowance. -/
theorem Faithful.turnOfCycle (k allowance : Nat) (h : Faithful b majors s) :
    Faithful b majors (turnOfCycle k allowance s) := by
  -- Each operation leaves a turn that is shorter by one.
  induction allowance generalizing s with
  | zero => exact h.yieldTurn k
  | succ allowance ih =>
    unfold Schedule.turnOfCycle
    split
    · exact h
    · split
      · split
        · exact ih (h.act rfl)
        · split
          · exact h
          · exact ih (h.act rfl)
      · have hdeliver := h.act (e := .deliver k) rfl
        simp only
        split
        · exact hdeliver
        · exact ih hdeliver
      · split
        · exact ih ((h.setEndings _).act rfl)
        · exact h.act rfl
      · exact h

/-- A cycle takes its turn, the first one or a later one. -/
theorem Faithful.runCycle (h : Faithful b majors s) (k : Nat) :
    Faithful b majors (s.runCycle k) := by
  unfold Schedule.runCycle
  split
  · rename_i hp
    exact (h.list hp).turnOfCycle k _
  · exact h.turnOfCycle k _

/-! ## The workers -/

/-- The outcome that the backend gives a worker is that of its container. -/
theorem Faithful.outcomeAt (h : Faithful b majors s) {k i : Nat} {w : Worker}
    (hw : s.worker? k i = some w) : b.outcomeAt majors i = b.outcome majors w.container := by
  obtain ⟨es, h⟩ := h
  obtain ⟨containers, hcontainers, hget⟩ := h.container hw
  rw [Backend.outcomeAt_eq hcontainers, hget]
  rfl

/-- A worker that is done returns its permit and reports. -/
theorem Faithful.leave (h : Faithful b majors s) (k i : Nat) : Faithful b majors (s.leave k i) := by
  unfold Schedule.leave
  have hreleased := h.act (e := .move k (.release i)) rfl
  simp only
  split
  · exact (((hreleased.wake _).act rfl).setEndings _).wake _
  · exact ((hreleased.act rfl).setEndings _).wake _

/-- An inspection ends with what the backend says. -/
theorem Faithful.concluded (h : Faithful b majors s) {k i : Nat} {o : Outcome}
    (ho : b.outcomeAt majors i = o) : Faithful b majors (s.act (.move k (.conclude i o))) := by
  obtain ⟨es, h⟩ := h
  refine h.act ?_ nofun ?_
  · simp only [State.asked]
    split <;> rfl
  · rintro k' i' o' he
    cases he
    exact ho.symm

/-- An inspection ends with what was found for it, and the worker leaves. -/
theorem Faithful.conclude (h : Faithful b majors s) {k i : Nat} {w : Worker} {found : Found}
    (ho : b.outcomeAt majors i = (Outcome.ofFound majors w.container found).1) :
    Faithful b majors (s.conclude k i w found) := by
  obtain rfl : s.majors = majors := by
    obtain ⟨es, h⟩ := h
    exact h.known
  have hless : Faithful b s.majors { s with inFlight := s.inFlight - 1 } :=
    h.congr rfl rfl rfl rfl fun _ ht => ht
  have hnoted := hless.note (Outcome.ofFound s.majors w.container found).2
  have hdone := hnoted.concluded (k := k) ho
  exact hdone.leave k i

/-- What is put into a list of timed things is in it, and nothing else
is that was not before. -/
theorem mem_insert {α : Type} {t u : Timed α} {l : List (Timed α)}
    (h : u ∈ Timed.insert t l) : u = t ∨ u ∈ l := by
  induction l with
  | nil => exact .inl (List.mem_singleton.mp h)
  | cons v l ih =>
    unfold Timed.insert at h
    split at h
    · exact List.mem_cons.mp h
    · rcases List.mem_cons.mp h with rfl | hrest
      · exact .inr List.mem_cons_self
      · exact (ih hrest).imp id (List.mem_cons_of_mem v)

/-- An inspection goes on that will find what the backend says. -/
theorem Faithful.pend (h : Faithful b majors s) (due : Nat) {p : Pending}
    (hp : ∃ containers ct, b.listing.1 = .ok containers ∧ containers[p.worker]? = some ct ∧
      p.found = (b.inspect ct).found) : Faithful b majors (s.pend due p) := by
  obtain ⟨es, h⟩ := h
  refine ⟨es, h.source, h.known, h.run, h.listing, h.outcomes, ?_, h.requests⟩
  intro t ht
  rcases mem_insert ht with rfl | hold
  · exact hp
  · exact h.inspections t hold

/-- A worker that has a permit inspects its container, at once or until
its delay is over. What it will find is put down now. -/
theorem Faithful.begin (h : Faithful b majors s) {k i : Nat} {w : Worker}
    (hw : s.worker? k i = some w) (hstage : w.stage = .admitted) :
    Faithful b majors (s.begin k i w) := by
  have hcounted := h.counted hw hstage
  have houtcome := h.outcomeAt hw
  obtain ⟨es, h⟩ := h
  obtain ⟨containers, hcontainers, hget⟩ := h.container hw
  unfold Schedule.begin
  rw [h.source]
  simp only
  split
  · exact hcounted.conclude houtcome
  · exact hcounted.pend _ ⟨containers, w.container, hcontainers, hget, rfl⟩

/-- Some inspections are over. -/
theorem Faithful.filterInspections (h : Faithful b majors s) (p : Timed Pending → Bool) :
    Faithful b majors { s with inspections := s.inspections.filter p } :=
  h.congr rfl rfl rfl rfl fun _ ht => List.mem_of_mem_filter ht

/-- Only the container of a worker counts when its inspection begins. -/
theorem begin_congr {w w' : Worker} (h : w.container = w'.container) (k i : Nat) :
    s.begin k i w = s.begin k i w' := by
  unfold Schedule.begin Schedule.conclude
  rw [h]

/-- A worker takes its turn, whatever stage it is in. The two stages in which
it says something are those in which it begins and in which it concludes. -/
theorem Faithful.runWorker (h : Faithful b majors s) (k i : Nat) :
    Faithful b majors (s.runWorker k i) := by
  unfold Schedule.runWorker
  split
  · exact h
  · rename_i w hw
    split
    · -- The worker that is admitted is still about the same container.
      have hasked := h.act (e := .move k (.ask i)) rfl
      simp only
      split
      · rename_i hadmitted
        obtain ⟨c, hc, hs⟩ := Option.bind_eq_some_iff.mp hadmitted
        obtain ⟨w', hget, hstage⟩ := Cycle.stage?_eq_some_iff.mp hs
        have hw' : (s.act (.move k (.ask i))).worker? k i = some w' :=
          Option.bind_eq_some_iff.mpr ⟨c, hc, hget⟩
        have hsame : w.container = w'.container := by
          obtain ⟨es, h⟩ := h
          obtain ⟨es', h'⟩ := hasked
          obtain ⟨containers, hcontainers, hold⟩ := h.container hw
          obtain ⟨others, hothers, hnew⟩ := h'.container hw'
          obtain rfl : containers = others := by
            simpa using hcontainers.symm.trans hothers
          exact Option.some.inj (hold.symm.trans hnew)
        rw [begin_congr hsame]
        exact hasked.begin hw' hstage
      · exact hasked
    -- The worker got its permit from another one and begins now.
    · rename_i hstage
      exact h.begin hw hstage
    · split
      · rename_i t ht
        have houtcome := h.outcomeAt hw
        -- What was put down when the inspection began is about the container in this place.
        have hfound : t.what.found = (b.inspect w.container).found := by
          have hmem := List.mem_of_find?_eq_some ht
          have hthis := List.find?_some ht
          simp only [Bool.and_eq_true, beq_iff_eq] at hthis
          obtain ⟨es, h⟩ := h
          obtain ⟨containers, hcontainers, hget⟩ := h.container hw
          obtain ⟨others, ct, hothers, hct, hfound⟩ := h.inspections t hmem
          obtain rfl : containers = others := by
            simpa using hcontainers.symm.trans hothers
          rw [hthis.2, hget, Option.some.injEq] at hct
          rw [hfound, hct]
        refine (h.filterInspections _).conclude ?_
        rw [houtcome, hfound]
        rfl
      · exact h
    · exact h

/-! ## The thread and the clock -/

/-- A task takes its turn. -/
theorem Faithful.run (h : Faithful b majors s) (t : Task) : Faithful b majors (s.run t) := by
  cases t with
  | cycle k => exact h.runCycle k
  | worker k i => exact h.runWorker k i

/-- Tasks take turns, as many as are allowed. -/
theorem Faithful.drainFor (turns : Nat) (h : Faithful b majors s) :
    Faithful b majors (drainFor turns s) := by
  induction turns generalizing s with
  | zero => exact h
  | succ turns ih =>
    unfold Schedule.drainFor
    split
    · exact h
    · rename_i t ready _
      have hpopped : Faithful b majors { s with ready } := h.congr rfl rfl rfl rfl fun _ ht => ht
      exact ih (hpopped.run t)

/-- Tasks take turns until none is ready. -/
theorem Faithful.drain (h : Faithful b majors s) : Faithful b majors s.drain := h.drainFor _

/-- Time passes for the monitor without an event. -/
theorem Faithful.advance (h : Faithful b majors s) (time : Nat) :
    Faithful b majors (s.advance time) := by
  have hlater : Faithful b majors
      { s with now := time, timers := s.timers.dropWhile fun t => t.due ≤ time } :=
    h.congr rfl rfl rfl rfl fun _ ht => ht
  exact hlater.foldl (fun _ _ h => h.wake _) _

/-- Time passes and tasks take turns, until a cycle has ended or the
time is up. -/
theorem Faithful.awaitFor (k latest jumps : Nat) (h : Faithful b majors s) :
    Faithful b majors (awaitFor k latest jumps s) := by
  induction jumps generalizing s with
  | zero => exact h
  | succ jumps ih =>
    unfold Schedule.awaitFor
    split
    · exact h
    · simp only
      split
      · exact h.drain
      · exact ih (h.drain.advance _)

/-! ## The owner -/

/-- What is left of the owner's turn is no part of the monitor. -/
theorem Faithful.setAllowance (h : Faithful b majors s) (allowance : Nat) :
    Faithful b majors { s with allowance } :=
  h.congr rfl rfl rfl rfl fun _ ht => ht

/-- The owner gives the thread to all others. -/
theorem Faithful.settle (h : Faithful b majors s) : Faithful b majors s.settle :=
  h.drain.setAllowance _

/-- The owner may have to give the thread to others before it does something. -/
theorem Faithful.beginOperation (h : Faithful b majors s) : Faithful b majors s.beginOperation := by
  unfold Schedule.beginOperation
  split
  · exact h.settle
  · exact h

/-- What the owner does is taken off its allowance. -/
theorem Faithful.spend (h : Faithful b majors s) : Faithful b majors s.spend := h.setAllowance _

/-- Nor are the handles that the owner has. -/
theorem Faithful.setHandles (h : Faithful b majors s) (handles : List Nat) :
    Faithful b majors { s with handles } :=
  h.congr rfl rfl rfl rfl fun _ ht => ht

/-- The owner starts a cycle and gets a handle of it. -/
theorem Faithful.start (h : Faithful b majors s) : Faithful b majors s.start :=
  ((h.setHandles _).act rfl).wake _

/-- The owner waits for a cycle, for some time at most. -/
theorem Faithful.elapse (h : Faithful b majors s) (k wait : Nat) :
    Faithful b majors (s.elapse k wait) := by
  unfold Schedule.elapse
  simp only
  split
  · exact h.beginOperation.spend
  · exact ((h.beginOperation.awaitFor _ _ _).setAllowance _).spend

/-- The owner waits for a cycle of which it has a handle. That it may not
do so twice makes the schedule stop, and does not lead anywhere else. -/
theorem Faithful.await (h : Faithful b majors s) {k wait : Nat} {t : Schedule}
    (ht : s.await k wait = some t) : Faithful b majors t := by
  unfold Schedule.await at ht
  simp only at ht
  split at ht
  · have helapsed := h.elapse k wait
    obtain rfl := Option.some.inj ht
    split
    · exact helapsed.setHandles _
    · exact helapsed
  · cases ht

/-- A handle tells of the end of its cycle once. Whoever waits for it
again panics, however long. -/
theorem await_eq_none_of_done {k wait : Nat} {t : Schedule} (ht : s.await k wait = some t)
    (hdone : t.isDone k = true) (wait' : Nat) : t.await k wait' = none := by
  unfold Schedule.await at ht
  simp only at ht
  split at ht
  · obtain rfl := Option.some.inj ht
    split at hdone
    · rename_i hended
      rw [if_pos hended]
      unfold Schedule.await
      exact if_neg (by simp)
    · rename_i hended
      exact absurd hdone hended
  · cases ht

/-- The owner waits for something that is no part of the monitor. -/
theorem Faithful.awaitElsewhere (h : Faithful b majors s) : Faithful b majors s.awaitElsewhere :=
  h.settle.spend.act rfl

/-- The owner receives something from the mailbox, if there is something
and the turn lasts. -/
theorem Faithful.receive {α : Type} (h : Faithful b majors s)
    (take? : Mailbox → Option (α × Mailbox)) {e : Event} (hquiet : e.isQuiet = true) :
    Faithful b majors (s.receive take? e).2 := by
  have hspent := h.beginOperation.spend
  unfold Schedule.receive
  simp only
  split
  · exact hspent
  · split
    · exact (hspent.act hquiet).spend
    · exact hspent.spend

/-- The owner receives a snapshot, and the next cycle that waits is woken. -/
theorem Faithful.takeSnapshot (h : Faithful b majors s) : Faithful b majors s.takeSnapshot.2 := by
  have hreceived := h.receive Mailbox.takeSnapshot? (e := .takeSnapshot) rfl
  show Faithful b majors (s.receive _ _).2.wakeSender
  unfold Schedule.wakeSender
  split
  · exact hreceived.wake _
  · exact hreceived

/-- The owner receives errors one after the other, as many as are allowed. -/
theorem Faithful.takeErrorsFor (rounds : Nat) (h : Faithful b majors s) :
    Faithful b majors (s.takeErrorsFor rounds).2 := by
  induction rounds generalizing s with
  | zero => exact h
  | succ rounds ih =>
    have hreceived := h.receive Mailbox.takeError? (e := .takeError) rfl
    unfold Schedule.takeErrorsFor
    split
    · rename_i hr
      rw [hr] at hreceived
      exact ih hreceived
    · rename_i hr
      rwa [hr] at hreceived

/-- The owner receives all errors that there are. -/
theorem Faithful.takeErrors (h : Faithful b majors s) : Faithful b majors s.takeErrors.2 :=
  h.takeErrorsFor _

/-- The owner reads the journal. -/
theorem Faithful.takeJournal (h : Faithful b majors s) : Faithful b majors s.takeJournal.2 :=
  h.act (e := .takeJournal) rfl

end

/-- Every cycle of a schedule is a fetch from the backend. So all that
is proved of fetches in whatever order of events holds for the order
that a schedule decides on. -/
theorem fetchRun_of_faithful {b : Backend} {majors : List Nat} {s : Schedule}
    (h : Faithful b majors s) {k : Nat} {c : Cycle} (hc : s.cycle? k = some c) :
    ∃ es, FetchRun b majors {} es s.state k c := by
  obtain ⟨es, h⟩ := h
  exact ⟨es, h.run, Nat.zero_le k, hc, h.listing k, h.outcomes k⟩

end Schedule

end NpuAttribution.Poll
