import NpuAttribution.Proofs.Poll.Endings

/-!
# `NpuAttribution.Proofs.Poll.Fetches`: every listed container is accounted for

A fetch is a cycle that has its containers and descriptors from a backend. `fetch_accounts`
is about backends that ask a container runtime through a connected client. Whatever the
runtime replies to whatever request, and in whatever order the cycle and its workers make
their steps: if the time does not run out, then every container that is listed is accounted
for, by an entry of the snapshot, by an error, or because it has no devices. Each of them is
asked about exactly once.

What becomes of one container is `AccountedFor`. It does not depend on the order of events,
and `accountedFor_ofFound` proves it from the outcome of an inspection alone. That all of it
arrives in the end, and arrives once, is where the order of events matters. This part is
proved for backends of any kind (`FetchRun`).
-/

set_option autoImplicit false

namespace NpuAttribution.Poll

/-- What inspecting a container comes to if its descriptor is fetched
from the backend. -/
def Backend.outcome (b : Backend) (majors : List Nat) (c : ListedContainer) : Outcome :=
  (Outcome.ofFound majors c (b.inspect c).found).1

/-- The entry that a container has in a snapshot, if it has one, by what
inspecting it comes to. -/
def Backend.assignment? (b : Backend) (majors : List Nat) (c : ListedContainer) :
    Option Assignment :=
  (b.outcome majors c).assignment? c.id

/-- The error that is reported about a container, if there is one, by
what inspecting it comes to. -/
def Backend.error? (b : Backend) (majors : List Nat) (c : ListedContainer) :
    Option MonitorError :=
  (b.outcome majors c).error?

/-- What inspecting the container in the given place of the listing comes to. -/
def Backend.outcomeAt (b : Backend) (majors : List Nat) (i : Nat) : Outcome :=
  ((b.listing.1.toOption.bind (·[i]?)).map (b.outcome majors)).getD .unassigned

/-- The outcome in a place of the listing is that of the container in
this place. A place behind the end of the listing has an outcome as
well, which nobody asks for. -/
theorem Backend.outcomeAt_eq {b : Backend} {containers : List ListedContainer}
    (h : b.listing.1 = .ok containers) (majors : List Nat) (i : Nat) :
    b.outcomeAt majors i = (containers[i]?.map (b.outcome majors)).getD .unassigned := by
  unfold outcomeAt
  rw [h]
  rfl

/-- An inspection is in a panic only if fetching the descriptor is:
reading a descriptor that has been found always comes to an outcome. -/
theorem ofFound_ne_panicked (majors : List Nat) (c : ListedContainer) {found : Found}
    (h : ∀ message, found ≠ .panicked message) (message : String) :
    (Outcome.ofFound majors c found).1 ≠ .panicked message := by
  cases found with
  | panicked m => exact absurd rfl (h m)
  | failed e => simp [Outcome.ofFound]
  | descriptor d =>
    simp only [Outcome.ofFound, Outcome.ofDescriptor]
    split
    · unfold Outcome.ofDevices
      split
      · simp
      · split <;> simp
    · simp

/-- With a backend that is never in a panic no inspection of a cycle is. -/
theorem Backend.outcomeAt_ne_panicked {b : Backend} (majors : List Nat)
    (h : ∀ ct message, (b.inspect ct).found ≠ .panicked message) (i : Nat) (message : String) :
    b.outcomeAt majors i ≠ .panicked message := by
  unfold outcomeAt
  cases hct : b.listing.1.toOption.bind (·[i]?) with
  | none => simp
  | some ct =>
    exact ofFound_ne_panicked majors ct (h ct) message

/-- Cycle `k` of a run from `s` to `t` is `c` in the end, and has its
containers and descriptors from the backend. -/
structure FetchRun (b : Backend) (majors : List Nat) (s : State) (es : List Event) (t : State)
    (k : Nat) (c : Cycle) : Prop where
  run : s.run? es = some t
  started : s.cycles.length ≤ k
  cycle : t.cycles[k]? = some c
  listing : ∀ r, .move k (.listed r) ∈ es → r = b.listing.1
  outcomes : ∀ i o, .move k (.conclude i o) ∈ es → o = b.outcomeAt majors i

/-- What becomes of a container for which something has been found: its
entry in the snapshot, if it has one, and the error that is reported, if
there is one.

- `assigned`: it has devices and a name, and that is its entry;
- `silent`: it has no devices;
- `unfetched`: its descriptor could not be fetched, and this is the
  error;
- `malformed`: its descriptor makes no sense, and this is the error;
- `unnamed`: it has devices but no name, and this is the error. -/
inductive AccountedFor (majors : List Nat) (c : ListedContainer) (found : Found)
    (entry : Option Assignment) (error : Option MonitorError) : Prop
  | assigned (d : Descriptor) (selection : Device.Selection) (name : String)
    (hfound : found = .descriptor d) (hselect : d.select c.id.text majors = .ok selection)
    (hdevices : selection.devices ≠ []) (hname : c.displayName? = some name) (hne : name ≠ "")
    (hentry : entry = some { id := c.id, name, devices := selection.devices })
    (herror : error = none)
  | silent (d : Descriptor) (selection : Device.Selection)
    (hfound : found = .descriptor d) (hselect : d.select c.id.text majors = .ok selection)
    (hdevices : selection.devices = []) (hentry : entry = none) (herror : error = none)
  | unfetched (e : RuntimeError) (hfound : found = .failed e) (hentry : entry = none)
    (herror : error = some (.runtime e))
  | malformed (d : Descriptor) (cause : AttributionError)
    (hfound : found = .descriptor d) (hselect : d.select c.id.text majors = .error cause)
    (hentry : entry = none) (herror : error = some (.malformed c.id cause))
  | unnamed (d : Descriptor) (selection : Device.Selection)
    (hfound : found = .descriptor d) (hselect : d.select c.id.text majors = .ok selection)
    (hdevices : selection.devices ≠ []) (hname : c.displayName? = none) (hentry : entry = none)
    (herror : error = some (.missingName c.id))

/-- A name under which devices are reported is not empty: it has a
separator in it if it is made of labels, and an empty name from the
runtime counts as none. -/
theorem displayName?_ne_empty {c : ListedContainer} {name : String}
    (h : c.displayName? = some name) : name ≠ "" := by
  unfold ListedContainer.displayName? at h
  split at h
  · rintro rfl
    have hlength := congrArg String.length (Option.some.inj h)
    simp at hlength
  · split at h
    · cases h
    · rename_i hne
      rwa [Option.some.inj h] at hne

/-- The outcome of an inspection that is not aborted says what becomes
of the container. The cases are those of `Outcome.ofFound`, and each of
them is one way to be accounted for; this is the only place where they
are gone through. -/
theorem accountedFor_ofFound (majors : List Nat) (c : ListedContainer) (found : Found)
    (hpanic : ∀ message, found ≠ .panicked message) :
    AccountedFor majors c found ((Outcome.ofFound majors c found).1.assignment? c.id)
      (Outcome.ofFound majors c found).1.error? := by
  cases found with
  | panicked message => exact absurd rfl (hpanic message)
  | failed e => exact .unfetched e rfl rfl rfl
  | descriptor d =>
    cases hselect : d.select c.id.text majors with
    | error cause =>
      simp only [Outcome.ofFound, Outcome.ofDescriptor, hselect]
      exact .malformed d cause rfl hselect rfl rfl
    | ok selection =>
      simp only [Outcome.ofFound, Outcome.ofDescriptor, hselect, Outcome.ofDevices]
      -- A container without devices is passed over before anybody asks for its name.
      by_cases hdevices : selection.devices = []
      · rw [if_pos (List.isEmpty_iff.mpr hdevices)]
        exact .silent d selection rfl hselect hdevices rfl rfl
      · rw [if_neg (by simpa using hdevices)]
        cases hname : c.displayName? with
        | none => exact .unnamed d selection rfl hselect hdevices hname rfl rfl
        | some name =>
          exact .assigned d selection name rfl hselect hdevices hname
            (displayName?_ne_empty hname) rfl rfl

/-- What is collected for the places of a list is collected for its
elements. Workers are known by their places, and this leads from them
to the containers. -/
theorem flatMap_range {α β : Type} (f : α → List β) (l : List α) :
    (List.range l.length).flatMap (fun i => l[i]?.elim [] f) = l.flatMap f := by
  induction l using List.reverseRecOn with
  | nil => rfl
  | append_singleton l a ih =>
    -- The places before the last one are those of the list without it.
    have hold : (List.range l.length).flatMap (fun i => (l ++ [a])[i]?.elim [] f)
        = (List.range l.length).flatMap fun i => l[i]?.elim [] f := by
      refine List.flatMap_congr fun i hi => ?_
      rw [List.getElem?_append_left (List.mem_range.mp hi)]
    rw [List.length_append, List.length_singleton, List.range_succ, List.flatMap_append, hold, ih,
      List.flatMap_append]
    simp

namespace Cycle

section

variable {limit : Nat} {containers : List ListedContainer} {outcome : Nat → Outcome}
  {steps : List Step} {c : Cycle}

/-- The errors that are reported in time, by the inspections that end
with them: if the time does not run out and no worker is in a panic,
then no other step of the cycle reports anything. -/
theorem errors_eq (h : Cycle.run? { limit := limit } steps = some c)
    (hlisted : .move (.listed (.ok containers)) ∈ steps)
    (hfollows : ∀ x ∈ steps, x.Follows outcome) (hintime : .move .expire ∉ steps)
    (hpanic : ∀ i message, outcome i ≠ .panicked message) :
    along step? errors { limit := limit } steps
      = (along step? (passing .concluded) { limit := limit } steps).flatMap
        fun i => (outcome i).error?.toList := by
  have hnone : errors { limit := limit } (.move (.listed (.ok containers))) = [] :=
    errors_eq_nil _ rfl
  rw [along_eq_flatMap errors .concluded (fun i => (outcome i).error?.toList) h hlisted ?_, hnone,
    List.nil_append]
  -- Errors come from listings, inspections, the time, and the ends of workers.
  intro before d x d' hrun hold hmem hx
  have hfollows' : ∀ y ∈ before, y.Follows outcome := fun y hy =>
    hfollows y (hmem y (List.mem_append_left _ hy))
  cases hx with
  | conclude i o hs =>
    have ho : o = outcome i := hfollows _ (hmem (.move (.conclude i o)) (by simp))
    simp [errors, move?, conclude?, hs, passing, Milestone.passed?, ho]
  | expire pending gathered hp => exact absurd (hmem (.move .expire) (by simp)) hintime
  | join i o hp hs =>
    -- A worker that is taken note of has neither been dropped nor been in a panic.
    have hagrees : o = some (outcome i) := agrees hrun hfollows' i (.ended o) hs
    obtain ⟨w, hw, hstage⟩ := stage?_eq_some_iff.mp hs
    have hfailure : Worker.failure? o = none := by
      rw [hagrees]
      cases ho : outcome i with
      | panicked message => exact absurd ho (hpanic i message)
      | assigned | unassigned | failed => rfl
    simp [errors, move?, join?, hp, hw, hstage, hfailure, passing, Milestone.passed?]
  | failed e hp =>
    -- There has been a listing already.
    exact absurd hp (by
      obtain ⟨rfl, -⟩ := new_of_listing hrun hp
      cases hold)
  | _ => exact errors_eq_nil d rfl

/-- The requests that are made, by the workers for whose inspections they
are made. A worker asks when it begins its inspection and at no other
time, so the requests are in the order in which the inspections begin. -/
theorem asked_eq (b : Backend) (h : Cycle.run? { limit := limit } steps = some c)
    (hinspect : Inspectable containers) (hlisted : .move (.listed (.ok containers)) ∈ steps) :
    along step? (asked b) { limit := limit } steps
      = b.listing.2.requests ++
        (along step? (passing .begun) { limit := limit } steps).flatMap
          fun i => containers[i]?.elim [] fun ct => (b.inspect ct).trace.requests := by
  refine along_eq_flatMap (asked b) .begun _ h hlisted fun {before d x d'} hrun hold hmem hx => ?_
  -- Requests are made by the listing, and by workers that begin their inspections.
  cases hx with
  | begin i hs =>
    obtain ⟨w, hw, -⟩ := stage?_eq_some_iff.mp hs
    have hcontainer := (dispatched_of_listed hrun hinspect hold).container hw
    simp [asked, passing, Milestone.passed?, hw, hcontainer]
  | failed e hp | idle containers hp | listed containers hp =>
    obtain ⟨rfl, -⟩ := new_of_listing hrun hp
    cases hold
  | _ => rfl

/-- A cycle that lists nothing that it can inspect, because there is
nothing or too much, has an empty snapshot. -/
theorem step?_listed_idle (limit : Nat) (hno : ¬ Inspectable containers) :
    ({ limit := limit } : Cycle).step? (.move (.listed (.ok containers)))
      = some { limit := limit, phase := .delivering .empty } := by
  -- The journal may be told, but this is outside of the cycle.
  suffices h : ∃ effect, listed? { limit := limit } (.ok containers)
      = some ({ limit := limit, phase := .delivering .empty }, effect) by
    obtain ⟨effect, h⟩ := h
    exact Option.map_eq_some_iff.mpr ⟨_, h, rfl⟩
  by_cases hempty : containers = []
  · exact ⟨_, listed?_ok_eq_some_iff.mpr ⟨rfl, .inl ⟨hempty, rfl⟩⟩⟩
  · have hmany : Listing.maxContainers < containers.length := by
      by_contra hmany
      exact hno ⟨hempty, Nat.le_of_not_lt hmany⟩
    exact ⟨_, listed?_ok_eq_some_iff.mpr ⟨rfl, .inr (.inl ⟨hmany, rfl⟩)⟩⟩

/-- A cycle that is about to list containers can list whatever there is,
an error included. -/
theorem exists_listed (hp : c.phase = .listing) (r : Except RuntimeError (List ListedContainer)) :
    ∃ c', c.step? (.move (.listed r)) = some c' := by
  rw [← Option.isSome_iff_exists]
  cases r with
  | error e => simp [step?, move?, listed?, hp]
  | ok containers =>
    simp only [step?, move?, listed?, hp, if_true]
    split
    · rfl
    · split <;> rfl

/-- When all workers have reported, each of them has passed the
milestones before, and passed them once. So what is asked and what is
reported on the way is complete, even though the cycle has not ended. -/
theorem passing_perm_of_reported {m : Milestone} (h : Cycle.run? { limit := limit } steps = some c)
    (hc : Dispatched limit containers c) (hdrop : ∀ x ∈ steps, x.drops = false)
    (hm : m.rank ≤ Milestone.reported.rank)
    (hall : (along step? (passing .reported) { limit := limit } steps).Perm
      (List.range containers.length)) :
    (along step? (passing m) { limit := limit } steps).Perm (List.range containers.length) := by
  obtain ⟨hnodup, hmem⟩ := passing_spec (m := m) h (.inr hdrop)
  obtain ⟨-, hreported⟩ := passing_spec (m := .reported) h (.inl rfl)
  rw [List.perm_ext_iff_of_nodup hnodup List.nodup_range]
  intro i
  rw [hmem, List.mem_range]
  constructor
  -- There are not more workers than containers.
  · rintro ⟨s, hs, -⟩
    obtain ⟨w, hw, -⟩ := stage?_eq_some_iff.mp hs
    have hlt := (List.getElem?_eq_some_iff.mp hw).1
    have hle := hc.length_workers_le
    rw [hc.capacity] at hle
    omega
  -- Every worker has reported, so it is past what comes before that.
  · intro hi
    obtain ⟨s, hs, hrank⟩ := (hreported i).mp (hall.mem_iff.mpr (List.mem_range.mpr hi))
    exact ⟨s, hs, Nat.le_trans hm hrank⟩

end

end Cycle

/-- A container is listed in the given place, and its id is not listed
in any other place. -/
def ListedOnce (containers : List ListedContainer) (i : Nat) (ct : ListedContainer) : Prop :=
  containers[i]? = some ct ∧
    ∀ j (other : ListedContainer), containers[j]? = some other → other.id = ct.id → j = i

section

variable {containers : List ListedContainer} {outcome : Nat → Outcome} {s : State}
  {es : List Event} {k : Nat} {snapshot : Snapshot}

/-- Every entry of a snapshot has been reported by a worker, under the
id of its container. So nothing is in a snapshot that was not
inspected in this cycle. -/
theorem State.Completed.exists_message (h : State.Completed containers outcome s es k snapshot)
    {key : String} {a : Assignment} (ha : snapshot.get? key = some a) :
    ∃ i, Cycle.message containers outcome i = some a ∧ a.id.text = key := by
  rw [h.last, h.received_eq] at ha
  have hmem := List.mem_of_getLast? ha
  simp only [List.mem_filter, List.mem_filterMap, List.mem_map, id_eq, exists_eq_right,
    decide_eq_true_eq] at hmem
  obtain ⟨⟨i, -, hi⟩, hkey⟩ := hmem
  exact ⟨i, hi, hkey⟩

/-- The entry of a container that is listed once is the one that it has
reported itself. If an id is listed twice, the later report wins, and
this need not be so. -/
theorem State.Completed.get?_of_once (h : State.Completed containers outcome s es k snapshot)
    {i : Nat} {ct : ListedContainer} (honce : ListedOnce containers i ct) :
    snapshot.get? ct.id.text = Cycle.message containers outcome i := by
  have hown (a : Assignment) (ha : snapshot.get? ct.id.text = some a) :
      Cycle.message containers outcome i = some a := by
    obtain ⟨j, hj, hkey⟩ := h.exists_message ha
    obtain ⟨ct', hct', hid⟩ := Cycle.id_of_message hj
    rw [hid] at hkey
    -- The entry is the report of some worker, whose container has the same id.
    rw [← honce.2 j ct' hct' (Cycle.id_eq_of_text hkey), hj]
  -- Conversely its own report is in the snapshot, or another one under its key.
  refine Option.ext fun a => ⟨hown a, fun ha => ?_⟩
  obtain ⟨_, name, devices, -, ho, -⟩ := Cycle.message_eq_some_iff.mp ha
  obtain ⟨a', ha'⟩ := (h.keys ct.id.text).mpr ⟨i, ct, name, devices, honce.1, ho, rfl⟩
  have hsame := (hown a' ha').symm.trans ha
  rw [ha', hsame]

end

/-- A snapshot and what has been reported account for all containers:

- `handed`: it is the one snapshot that is handed over;
- `asked`: apart from the listing, requests have been made for each
  container once;
- `errors`: each container has its error reported, if it has one, and
  there are no others;
- `listed`: an entry of the snapshot is the entry of a listed
  container with its key as id;
- `once`: a container that is listed once has its own entry or none,
  and no other one. -/
structure Accounts (b : Backend) (majors : List Nat) (containers : List ListedContainer)
    (s : State) (es : List Event) (k : Nat) (snapshot : Snapshot) : Prop where
  handed : s.observe k Cycle.delivered es = [snapshot]
  asked : ∃ rest, s.observe k (Cycle.asked b) es = b.listing.2.requests ++ rest ∧
    rest.Perm (containers.flatMap fun ct => (b.inspect ct).trace.requests)
  errors : (s.observe k Cycle.errors es).Perm (containers.filterMap (b.error? majors))
  listed : ∀ key a, snapshot.get? key = some a →
    ∃ ct ∈ containers, ct.id.text = key ∧ b.assignment? majors ct = some a
  once : ∀ i ct, ListedOnce containers i ct → snapshot.get? ct.id.text = b.assignment? majors ct

namespace FetchRun

variable {b : Backend} {majors : List Nat} {s t : State} {es : List Event} {k : Nat} {c : Cycle}

/-- The steps of the cycle follow what the backend says about each
of its containers. -/
theorem follows (h : FetchRun b majors s es t k c) :
    ∀ x ∈ s.stepsOf k es, x.Follows (b.outcomeAt majors) :=
  State.follows_of_outcomes h.run h.outcomes

/-- What the cycle has listed is what the backend lists. -/
theorem listing_eq (h : FetchRun b majors s es t k c)
    {r : Except RuntimeError (List ListedContainer)}
    (hr : .move (.listed r) ∈ s.stepsOf k es) : r = b.listing.1 :=
  h.listing r ((State.mem_of_mem_stepsOf h.run hr).2 _ rfl)

/-- A step that is possible, that says what the backend says, and that
is not the end of the time continues the run by one event, and the
longer run is a fetch again. -/
theorem extend (h : FetchRun b majors s es t k c) {e : Event} {x : Step}
    (hstep : t.stepOf? k e = some x) (hsome : (t.step? e).isSome = true)
    (hlisting : ∀ r, x = .move (.listed r) → r = b.listing.1)
    (houtcome : ∀ i o, x = .move (.conclude i o) → o = b.outcomeAt majors i)
    (hintime : x ≠ .move .expire) :
    ∃ e t' c', FetchRun b majors s (es ++ [e]) t' k c' ∧ (t.stepOf? k e).isSome = true ∧
      e ≠ .move k .expire := by
  -- What the event says is what the step says.
  have hmove : ∀ m, e = .move k m → x = .move m := by
    rintro m rfl
    simpa [State.stepOf?, eq_comm] using hstep
  obtain ⟨t', ht'⟩ := Option.isSome_iff_exists.mp hsome
  have hlt : k < t'.cycles.length :=
    Nat.lt_of_lt_of_le (List.getElem?_eq_some_iff.mp h.cycle).1 (State.length_cycles_le ht')
  refine ⟨e, t', t'.cycles[k], ⟨?_, h.started, List.getElem?_eq_getElem hlt, ?_, ?_⟩,
    by rw [hstep]; rfl, fun he => hintime (hmove _ he)⟩
  · have hrun := h.run
    unfold State.run? at hrun ⊢
    rw [follow_append_singleton, hrun]
    exact ht'
  · intro r hr
    rcases List.mem_append.mp hr with hold | hnew
    · exact h.listing r hold
    · exact hlisting r (hmove _ (List.mem_singleton.mp hnew).symm)
  · intro i o ho
    rcases List.mem_append.mp ho with hold | hnew
    · exact h.outcomes i o hold
    · exact houtcome i o (hmove _ (List.mem_singleton.mp hnew).symm)

/-- A cycle that is not at its end and that has time can go on, without
the time running out, and remains one that has everything from the
backend. A cycle that has not listed its containers can do that next;
later there is always a step in order (`Cycle.exists_orderly_step`). -/
theorem can_go_on (h : FetchRun b majors s es t k c) (hdone : c.phase ≠ .done)
    (hl : c.limit ≠ 0) :
    (∃ e t' c', FetchRun b majors s (es ++ [e]) t' k c' ∧ (t.stepOf? k e).isSome = true ∧
      e ≠ .move k .expire) ∨
    ∃ snapshot, c.phase = .delivering snapshot ∧ t.mailbox.hasRoomFor k = false := by
  obtain ⟨limit, hrun, -⟩ := State.run?_stepsOf h.run h.started h.cycle
  by_cases hlisting : c.phase = .listing
  · -- A cycle that has not listed its containers yet can do so, whatever the listing is.
    left
    obtain ⟨-, rfl⟩ := Cycle.new_of_listing hrun hlisting
    obtain ⟨c', hx⟩ := Cycle.exists_listed hlisting b.listing.1
    obtain ⟨e, hof, hsome⟩ := State.exists_event h.cycle hx nofun nofun rfl
    refine h.extend hof hsome (fun r hr => ?_) nofun nofun
    cases hr
    rfl
  -- Afterwards the inspections end as the backend says, which is an orderly way to go on.
  · rcases Cycle.exists_orderly_step t.tasks (b.outcomeAt majors) hrun hlisting hdone with
      ⟨x, c', horderly, hx⟩ | ⟨hzero, -⟩
    · by_cases hroom : x = .handOver ∧ t.mailbox.hasRoomFor k = false
      · right
        obtain ⟨rfl, hfull⟩ := hroom
        cases Cycle.leads_of_step? hx with
        | handOver snapshot hp => exact ⟨snapshot, hp, hfull⟩
      · left
        obtain ⟨e, hof, hsome⟩ := State.exists_event h.cycle hx
          (by rintro n rfl; exact horderly) (by simpa using hroom)
          (by cases x <;> first | rfl | exact horderly.elim)
        refine h.extend hof hsome ?_ ?_ ?_
        · rintro r rfl
          exact absurd (Cycle.phase_of_listed (Cycle.leads_of_step? hx)) hlisting
        · rintro i o rfl
          exact horderly
        · rintro rfl
          exact horderly
    · rw [Cycle.limit_of_run? hrun] at hl
      exact absurd hzero hl

/-- A fetch whose listing fails reports this and nothing else, delivers
nothing, and asks nothing beyond the listing. There is one way only in
which such a cycle can have come to its end. -/
theorem of_error (h : FetchRun b majors s es t k c) (hdone : c.phase = .done)
    {e : RuntimeError} (he : b.listing.1 = .error e) :
    s.observe k Cycle.delivered es = [] ∧ s.observe k Cycle.errors es = [.runtime e] ∧
      s.observe k (Cycle.asked b) es = b.listing.2.requests := by
  obtain ⟨limit, hrun, hobserve⟩ := State.run?_stepsOf h.run h.started h.cycle
  have hlisting {r} := h.listing_eq (r := r)
  rw [hobserve, hobserve, hobserve]
  -- The listing failed, so of the ways that a cycle can take one is left.
  generalize s.stepsOf k es = steps at hrun hlisting
  cases Cycle.origin_of_run? hrun with
  | new => cases hdone
  | failed e' =>
    have hsame := hlisting (List.mem_singleton_self _)
    rw [he] at hsame
    cases hsame
    exact ⟨rfl, rfl, List.append_nil _⟩
  | idle containers | idleDelivered containers | idleDone containers
  | dispatched containers =>
    have hsame := hlisting List.mem_cons_self
    rw [he] at hsame
    cases hsame

/-- A fetch that has nothing to inspect delivers the empty snapshot, and
asks nothing beyond the listing. `Cycle.Origin` lists its steps, so what
is seen along them can be computed. -/
theorem of_idle (h : FetchRun b majors s es t k c) (hdone : c.phase = .done)
    {containers : List ListedContainer} (hcontainers : b.listing.1 = .ok containers)
    (hno : ¬ Cycle.Inspectable containers) :
    s.observe k Cycle.delivered es = [.empty] ∧ s.observe k Cycle.errors es = [] ∧
      s.observe k (Cycle.asked b) es = b.listing.2.requests := by
  obtain ⟨limit, hrun, hobserve⟩ := State.run?_stepsOf h.run h.started h.cycle
  have hlisting {r} := h.listing_eq (r := r)
  rw [hobserve, hobserve, hobserve]
  generalize s.stepsOf k es = steps at hrun hlisting
  cases Cycle.origin_of_run? hrun with
  | new | idle | idleDelivered => cases hdone
  | failed e =>
    have hsame := hlisting (List.mem_singleton_self _)
    rw [hcontainers] at hsame
    cases hsame
  -- The steps are the listing, the delivery and the end, so all that is seen can be
  -- computed.
  | idleDone others =>
    have hsame := hlisting List.mem_cons_self
    rw [hcontainers] at hsame
    cases hsame
    have hlisted := Cycle.step?_listed_idle limit hno
    have hnone := Cycle.errors_eq_nil { limit := limit } (x := .move (.listed (.ok containers))) rfl
    simp only [along, hlisted, hnone]
    exact ⟨rfl, rfl, List.append_nil _⟩
  | dispatched others rest _ hinspect =>
    have hsame := hlisting List.mem_cons_self
    rw [hcontainers] at hsame
    cases hsame
    exact absurd hinspect hno

section

variable {containers : List ListedContainer}

/-- A fetch that is over has listed what the backend lists: it cannot
have ended without a listing. -/
theorem listed_of_done (h : FetchRun b majors s es t k c) (hdone : c.phase = .done)
    (hcontainers : b.listing.1 = .ok containers) (hinspect : Cycle.Inspectable containers) :
    .move (.listed (.ok containers)) ∈ s.stepsOf k es := by
  obtain ⟨limit, hrun, -⟩ := State.run?_stepsOf h.run h.started h.cycle
  have hlisting {r} := h.listing_eq (r := r)
  generalize s.stepsOf k es = steps at hrun hlisting
  cases Cycle.origin_of_run? hrun with
  | new | idle | idleDelivered => cases hdone
  | failed e =>
    have hsame := hlisting (List.mem_singleton_self _)
    rw [hcontainers] at hsame
    cases hsame
  | idleDone others hno =>
    have hsame := hlisting List.mem_cons_self
    rw [hcontainers] at hsame
    cases hsame
    exact absurd hinspect hno
  | dispatched others =>
    have hsame := hlisting List.mem_cons_self
    rw [hcontainers] at hsame
    cases hsame
    exact List.mem_cons_self

/-- A fetch that is over in time is completed. The other end of a cycle
reports that the time was over, which is a move that the run does not have. -/
theorem completed (h : FetchRun b majors s es t k c) (hdone : c.phase = .done)
    (hintime : .move k .expire ∉ es) (hcontainers : b.listing.1 = .ok containers)
    (hinspect : Cycle.Inspectable containers) :
    ∃ snapshot, State.Completed containers (b.outcomeAt majors) s es k snapshot := by
  have hlisted := h.listed_of_done hdone hcontainers hinspect
  have hcycle : CycleRun containers (b.outcomeAt majors) s es t k c :=
    ⟨h.run, h.started, h.cycle, (State.mem_of_mem_stepsOf h.run hlisted).2 _ rfl, hinspect,
      h.outcomes⟩
  rcases hcycle.completed_or_timedOut (by rw [hdone]; rfl) with hcompleted | ⟨pending, hlate⟩
  · exact hcompleted
  -- The time would have run out, but it has not.
  · obtain ⟨u, v, ⟨before, after, rfl, -, -⟩, -⟩ := hlate.reported
    simp at hintime

/-- What is reported for a place of the listing is the entry of the
container in this place, so the worker in the place can be forgotten. -/
theorem message_outcomeAt (hcontainers : b.listing.1 = .ok containers) {i : Nat}
    {ct : ListedContainer} (hct : containers[i]? = some ct) :
    Cycle.message containers (b.outcomeAt majors) i = b.assignment? majors ct := by
  rw [Cycle.message, hct, Option.bind_some, Backend.outcomeAt_eq hcontainers, hct]
  rfl

/-- A fetch that has inspected its containers in time accounts for
all of them. Every worker has begun and ended its inspection
(`passing_perm_of_reported`). So the requests and the errors are
those of all workers, and by the places of the workers they are
those of all containers. -/
theorem accounts (h : FetchRun b majors s es t k c) (hdone : c.phase = .done)
    (hintime : .move k .expire ∉ es) (hcontainers : b.listing.1 = .ok containers)
    (hinspect : Cycle.Inspectable containers)
    (hpanic : ∀ ct message, (b.inspect ct).found ≠ .panicked message) :
    ∃ snapshot, Accounts b majors containers s es k snapshot := by
  obtain ⟨limit, hrun, hobserve⟩ := State.run?_stepsOf h.run h.started h.cycle
  have hlisted := h.listed_of_done hdone hcontainers hinspect
  have hc := Cycle.dispatched_of_listed hrun hinspect hlisted
  obtain ⟨snapshot, hcompleted⟩ := h.completed hdone hintime hcontainers hinspect
  have hdrop : ∀ x ∈ s.stepsOf k es, x.drops = false := fun x hx =>
    (State.mem_of_mem_stepsOf h.run hx).1
  have hall := hcompleted.everyone
  rw [hobserve] at hall
  -- Every worker has begun its inspection once and has ended it once.
  have hbegun := Cycle.passing_perm_of_reported (m := .begun) hrun hc hdrop (by decide) hall
  have hconcluded := Cycle.passing_perm_of_reported (m := .concluded) hrun hc hdrop (by decide) hall
  have hasked := (hobserve _).trans (Cycle.asked_eq b hrun hinspect hlisted)
  refine ⟨snapshot, hcompleted.handed, ⟨_, hasked, ?_⟩, ?_, ?_, ?_⟩
  · have hperm := hbegun.flatMap_right
      fun i => containers[i]?.elim [] fun ct => (b.inspect ct).trace.requests
    rwa [flatMap_range] at hperm
  -- Errors are those of the inspections only, as the time has not run out.
  · have hexpire : .move .expire ∉ s.stepsOf k es := fun hmem =>
      hintime ((State.mem_of_mem_stepsOf h.run hmem).2 _ rfl)
    rw [hobserve, Cycle.errors_eq hrun hlisted h.follows hexpire
      (Backend.outcomeAt_ne_panicked majors hpanic)]
    have hperm := hconcluded.flatMap_right
      fun i => (b.outcomeAt majors i).error?.toList
    -- Errors are counted by the places of the workers, and so by their containers.
    have hplaces : (fun i => (b.outcomeAt majors i).error?.toList)
        = fun i => containers[i]?.elim [] fun ct => (b.error? majors ct).toList := by
      funext i
      rw [Backend.outcomeAt_eq hcontainers]
      cases containers[i]? <;> rfl
    rw [hplaces] at hperm ⊢
    rwa [flatMap_range, ← List.filterMap_eq_flatMap_toList] at hperm
  · intro key a ha
    obtain ⟨i, hi, hkey⟩ := hcompleted.exists_message ha
    obtain ⟨ct, hct, hid⟩ := Cycle.id_of_message hi
    rw [message_outcomeAt hcontainers hct] at hi
    exact ⟨ct, List.mem_of_getElem? hct, by rw [← hid, hkey], hi⟩
  · intro i ct honce
    rw [hcompleted.get?_of_once honce, message_outcomeAt hcontainers honce.1]

end

end FetchRun

end NpuAttribution.Poll
