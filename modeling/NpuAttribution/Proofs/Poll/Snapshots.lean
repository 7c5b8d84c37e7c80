import Mathlib.Data.List.Nodup
import NpuAttribution.Proofs.Poll.Collection
import NpuAttribution.Proofs.SortedMap

/-!
# `NpuAttribution.Proofs.Poll.Snapshots`: what is in a snapshot

When the outcome of every inspection is given, the report of a worker does not depend on
when it is sent (`sent_eq`). So the reports are known from the order in which the workers
send them, and all of them are in a snapshot that is handed over (`received_of_all`).

`get?_gatherAll` looks a container up in a snapshot: it has the last assignment that was
received under its id. If no two containers have the same id, then there is only one such
assignment, and the order does not matter any more (`gatherAll_eq_of_perm`).
-/

set_option autoImplicit false

namespace NpuAttribution.Poll

/-- A step that drops no worker, and in which no inspection ends
otherwise than given. -/
def Step.Follows (outcome : Nat → Outcome) : Step → Prop
  | .move (.conclude i o) => o = outcome i
  | .drop _ => False
  | _ => True

/-- What a stage says about the outcome of an inspection is what is given. -/
def Stage.Agrees (o : Outcome) : Stage → Prop
  | .concluded o' => o' = o
  | .released o' => o' = some o
  | .ended o' => o' = some o
  | _ => True

namespace Cycle

/-- The worker in place `i` of the listing comes to the assignment `a`:
there is a container in this place, its inspection has found a name and
devices for it, and `a` holds the container's own id with this name and
these devices. A worker that finds no devices, that fails or that is in
a panic comes to no assignment. -/
def Assigns (containers : List ListedContainer) (outcome : Nat → Outcome) (i : Nat)
    (a : Assignment) : Prop :=
  ∃ ct name devices, containers[i]? = some ct ∧ outcome i = .assigned name devices ∧
    a = { id := ct.id, name, devices }

/-- The report of a worker, by the container and the outcome of its inspection. -/
def message (containers : List ListedContainer) (outcome : Nat → Outcome) (i : Nat) :
    Option Assignment :=
  containers[i]?.bind fun c => (outcome i).assignment? c.id

/-- All workers have the outcomes that are given. -/
def Agrees (outcome : Nat → Outcome) (c : Cycle) : Prop :=
  ∀ i s, c.stage? i = some s → s.Agrees (outcome i)

section

variable {limit : Nat} {containers : List ListedContainer} {outcome : Nat → Outcome}
  {steps : List Step} {c c' : Cycle} {x : Step}

/-- A worker that gets on in agreement with its outcome keeps the agreement. -/
theorem agrees_setStage (h : Agrees outcome c) {i : Nat} {s : Stage}
    (hs : s.Agrees (outcome i)) : Agrees outcome (c.setStage i s) := by
  intro j s' hj
  rw [stage?_setStage] at hj
  split at hj
  · rename_i hij
    subst hij
    obtain ⟨_, _, rfl⟩ := Option.map_eq_some_iff.mp hj
    exact hs
  · exact h j s' hj

/-- Every step that follows the given outcomes keeps the agreement with
them. A worker carries its outcome from the end of its inspection to its
own end, and no step changes it on the way. -/
theorem agrees_step (h : Agrees outcome c) (hfollows : x.Follows outcome) (hx : Leads c x c') :
    Agrees outcome c' := by
  cases hx with
  | spawn task container left hp =>
    intro i s hi
    rw [stage?_append] at hi
    split at hi
    · cases hi
      trivial
    · exact h i s hi
  | grant i permits hs => exact agrees_setStage h (i := i) (s := .admitted) trivial
  | enqueue i hs => exact agrees_setStage h (i := i) (s := .waiting) trivial
  | begin i hs => exact agrees_setStage h trivial
  | conclude i o hs => exact agrees_setStage h hfollows
  | release i o hs =>
    have hagrees : o = outcome i := h i _ hs
    exact agrees_setStage h (i := i) (s := .released (some o)) (congrArg some hagrees)
  -- The worker that is admitted has no outcome yet, so there is nothing to agree
  -- with.
  | releaseTo i o next queue hs =>
    have hagrees : o = outcome i := h i _ hs
    have hreleased := agrees_setStage h (i := i) (s := .released (some o)) (congrArg some hagrees)
    exact agrees_setStage hreleased (i := next) (s := .admitted) trivial
  | report i w o hw hs =>
    have hagrees : o = some (outcome i) := h i (.released o) (stage?_eq_some_iff.mpr ⟨w, hw, hs⟩)
    have hended := agrees_setStage h (i := i) (s := .ended o) hagrees
    intro j s hj
    unfold stage? at hj
    rw [workers_send] at hj
    exact hended j s hj
  | join i o hp hs => exact agrees_setStage h trivial
  | dropIdle | dropWaiting | dropBusy | dropBusyTo => exact hfollows.elim
  | failed | idle | listed | collect | receive | complete | expire | hangUp | handOver | finish =>
    exact h

/-- All workers always agree with the given outcomes. -/
theorem agrees (h : Cycle.run? { limit := limit } steps = some c)
    (hfollows : ∀ x ∈ steps, x.Follows outcome) : Agrees outcome c := by
  revert hfollows
  refine run?_induction
    (motive := fun steps c => (∀ x ∈ steps, x.Follows outcome) → Agrees outcome c) ?_ ?_ h
  · intro _ i s hi
    simp [stage?] at hi
  · intro steps c x c' _ ih hx hfollows
    have hold := ih fun y hy => hfollows y (List.mem_append_left _ hy)
    exact agrees_step hold (hfollows x (by simp)) hx

/-- If something is seen whenever a worker passes a milestone and only
then, then what is seen after the listing is known from the order in
which the workers pass it. Reports, errors and requests are all seen in
this way, each with a milestone of its own. -/
theorem along_eq_flatMap {α : Type} (see : Cycle → Step → List α) (m : Milestone)
    (f : Nat → List α) (h : Cycle.run? { limit := limit } steps = some c)
    (hlisted : .move (.listed (.ok containers)) ∈ steps)
    (hstep : ∀ {before d x d'}, Cycle.run? { limit := limit } before = some d →
      .move (.listed (.ok containers)) ∈ before → (∀ y ∈ before ++ [x], y ∈ steps) →
      Leads d x d' → see d x = (passing m d x).flatMap f) :
    along step? see { limit := limit } steps
      = see { limit := limit } (.move (.listed (.ok containers))) ++
        (along step? (passing m) { limit := limit } steps).flatMap f := by
  -- The induction is on the steps up to a point, which are all among the given steps.
  suffices hall : ∀ {before d}, Cycle.run? { limit := limit } before = some d →
      .move (.listed (.ok containers)) ∈ before → (∀ y ∈ before, y ∈ steps) →
      along step? see { limit := limit } before
        = see { limit := limit } (.move (.listed (.ok containers))) ++
          (along step? (passing m) { limit := limit } before).flatMap f from
    hall h hlisted fun _ hy => hy
  intro before d hbefore
  refine run?_induction (motive := fun before _ =>
    .move (.listed (.ok containers)) ∈ before → (∀ y ∈ before, y ∈ steps) →
      along step? see { limit := limit } before
        = see { limit := limit } (.move (.listed (.ok containers))) ++
          (along step? (passing m) { limit := limit } before).flatMap f) ?_ ?_ hbefore
  · intro hlisted
    cases hlisted
  intro before d x d' hrun ih hx hlisted hmem
  rw [along_append_singleton _ hrun, along_append_singleton _ hrun, List.flatMap_append,
    ← List.append_assoc]
  rcases List.mem_append.mp hlisted with hold | hnew
  · rw [ih hold fun y hy => hmem y (List.mem_append_left _ hy), hstep hrun hold hmem hx]
  · -- The listing itself is the first step, and no milestone is passed in it.
    obtain rfl := List.mem_singleton.mp hnew
    obtain ⟨rfl, rfl⟩ := new_of_listing hrun (phase_of_listed hx)
    have hnone : passing m { limit := limit } (.move (.listed (.ok containers))) = [] := by
      cases m <;> rfl
    rw [hnone]
    simp [along]

/-- The reports that are sent, by the workers that send them. What a
worker sends depends on its place only: on the container that is listed
there and on the outcome that is given. -/
theorem sent_eq (h : Cycle.run? { limit := limit } steps = some c)
    (hinspect : Inspectable containers) (hlisted : .move (.listed (.ok containers)) ∈ steps)
    (hfollows : ∀ x ∈ steps, x.Follows outcome) :
    along step? sent { limit := limit } steps
      = (along step? (passing .reported) { limit := limit } steps).map
        (message containers outcome) := by
  rw [List.map_eq_flatMap]
  refine along_eq_flatMap sent .reported _ h hlisted fun {before d x d'} hrun hold hmem hx => ?_
  cases hx with
  | report i w o hw hs =>
    -- The worker's own container and outcome are the ones in its place.
    have hcontainer := (dispatched_of_listed hrun hinspect hold).container hw
    have hfollows' : ∀ y ∈ before, y.Follows outcome := fun y hy =>
      hfollows y (hmem y (List.mem_append_left _ hy))
    have hagrees : o = some (outcome i) :=
      agrees hrun hfollows' i (.released o) (stage?_eq_some_iff.mpr ⟨w, hw, hs⟩)
    simp [sent, passing, Milestone.passed?, hw, hs, message, hcontainer, Worker.message, hagrees]
  | _ => rfl

/-- A collector that has received as many reports as there is room for
has received the reports of all workers, in the order in which they were
sent. Nothing is left on the channel then, and nobody is left to report. -/
theorem received_of_all (h : Cycle.run? { limit := limit } steps = some c)
    (hc : Dispatched limit containers c)
    (hall : (along step? received { limit := limit } steps).length = c.capacity) :
    along step? received { limit := limit } steps = along step? sent { limit := limit } steps ∧
      (along step? (passing .reported) { limit := limit } steps).Perm
        (List.range containers.length) := by
  have hqueued := (ledger h).queued
  have hsent := length_sent h
  have hlength := congrArg List.length hqueued
  rw [List.length_append, hsent, hall] at hlength
  have hworkers := reporters_add_guards c
  have hle := hc.length_workers_le
  -- As many as there is room for are received, and no more than that are ever sent.
  have hempty : c.reports = [] := List.length_eq_zero_iff.mp (by omega)
  have hfull : c.workers.length = containers.length := by
    have hcapacity := hc.capacity
    omega
  refine ⟨by rw [hqueued, hempty, List.append_nil], ?_⟩
  have hperm := passing_perm (m := .reported) h (.inl rfl)
  have hguards : c.guards = 0 := by omega
  -- Nobody is left to report, so everybody is past this milestone.
  have heveryone : ∀ i ∈ List.range c.workers.length,
      (c.workers[i]?.any fun w => Milestone.reported.rank ≤ w.stage.rank) = true := by
    intro i hi
    have hlt := List.mem_range.mp hi
    have hreported := List.countP_eq_zero.mp hguards c.workers[i] (List.getElem_mem hlt)
    rw [List.getElem?_eq_getElem hlt]
    simp only [Bool.not_eq_true, Bool.not_eq_false'] at hreported
    simpa using (Stage.hasReported_iff _).mp hreported
  rw [List.filter_eq_self.mpr heveryone, hfull] at hperm
  exact hperm

end

/-- Under each key a snapshot has the last assignment received. By
induction on the reports from the end, since the last one decides. -/
theorem get?_gatherAll (rs : List (Option Assignment)) (key : String) :
    (gatherAll rs).get? key
      = ((rs.filterMap id).filter fun a => a.id.text = key).getLast? := by
  induction rs using List.reverseRecOn with
  | nil => rfl
  | append_singleton rs r ih =>
    rw [gatherAll_append_singleton, List.filterMap_append, List.filter_append]
    -- An assignment takes the place of an earlier one with the same key and of no other.
    cases r with
    | none => simpa [gather] using ih
    | some a =>
      simp only [gather, Snapshot.add, SortedMap.get?_insert, ih]
      by_cases hkey : a.id.text = key <;> simp [hkey]

/-- Under each key there is an assignment if one has been received, and
only then. -/
theorem exists_get?_gatherAll (rs : List (Option Assignment)) (key : String) :
    (∃ a, (gatherAll rs).get? key = some a) ↔ ∃ a, some a ∈ rs ∧ a.id.text = key := by
  rw [get?_gatherAll]
  constructor
  · rintro ⟨a, ha⟩
    have hmem := List.mem_of_getLast? ha
    simp only [List.mem_filter, List.mem_filterMap, id_eq, exists_eq_right, decide_eq_true_eq]
      at hmem
    exact ⟨a, hmem⟩
  · rintro ⟨a, ha, hkey⟩
    have hmem : a ∈ (rs.filterMap id).filter fun a => a.id.text = key := by simp [ha, hkey]
    exact ⟨_, List.getLast?_eq_getLast_of_ne_nil (List.ne_nil_of_mem hmem)⟩

/-- If no two assignments have the same key, then none takes the place
of another, so the snapshot has exactly those received. -/
theorem get?_gatherAll_of_distinct {rs : List (Option Assignment)}
    (hdistinct : ((rs.filterMap id).map fun a => a.id.text).Nodup) (key : String)
    (a : Assignment) : (gatherAll rs).get? key = some a ↔ some a ∈ rs ∧ a.id.text = key := by
  have hmem (b : Assignment) (hb : (gatherAll rs).get? key = some b) :
      some b ∈ rs ∧ b.id.text = key := by
    rw [get?_gatherAll] at hb
    have hlast := List.mem_of_getLast? hb
    simpa using hlast
  refine ⟨hmem a, fun ⟨ha, hkey⟩ => ?_⟩
  obtain ⟨b, hb⟩ := (exists_get?_gatherAll rs key).mpr ⟨a, ha, hkey⟩
  obtain ⟨hb', hkey'⟩ := hmem b hb
  -- Both have been received under the same key, and keys do not repeat.
  have hsame : b = a := List.inj_on_of_nodup_map hdistinct (by simpa using hb')
    (by simpa using ha) (hkey'.trans hkey.symm)
  rw [hb, hsame]

/-- Their order does not matter then: snapshots are equal if they have
the same assignments. -/
theorem gatherAll_eq_of_perm {rs rs' : List (Option Assignment)} (hperm : rs.Perm rs')
    (hdistinct : ((rs.filterMap id).map fun a => a.id.text).Nodup) :
    gatherAll rs = gatherAll rs' := by
  have hdistinct' : ((rs'.filterMap id).map fun a => a.id.text).Nodup :=
    (((hperm.filterMap id).map _).nodup_iff).mp hdistinct
  refine SortedMap.ext_get? fun key => Option.ext fun a => ?_
  rw [get?_gatherAll_of_distinct hdistinct, get?_gatherAll_of_distinct hdistinct',
    hperm.mem_iff]

section

variable {containers : List ListedContainer} {outcome : Nat → Outcome}

/-- Container ids are equal if their texts are. -/
theorem id_eq_of_text {a b : ContainerId} (h : a.text = b.text) : a = b := by
  cases a
  cases b
  cases h
  rfl

/-- What a worker reports is the assignment that it comes to. `message`
computes what `Assigns` states. -/
theorem message_eq_some_iff {i : Nat} {a : Assignment} :
    message containers outcome i = some a ↔ Assigns containers outcome i a := by
  constructor
  · intro h
    obtain ⟨ct, hct, ha⟩ := Option.bind_eq_some_iff.mp h
    cases ho : outcome i with
    | assigned name devices =>
      rw [ho] at ha
      cases ha
      exact ⟨ct, name, devices, hct, ho, rfl⟩
    | unassigned | failed | panicked =>
      rw [ho] at ha
      cases ha
  · rintro ⟨ct, name, devices, hct, ho, rfl⟩
    rw [message, hct, Option.bind_some, ho]
    rfl

/-- A worker reports about its own container. -/
theorem id_of_message {i : Nat} {a : Assignment} (h : message containers outcome i = some a) :
    ∃ c, containers[i]? = some c ∧ a.id = c.id := by
  obtain ⟨ct, name, devices, hct, -, rfl⟩ := message_eq_some_iff.mp h
  exact ⟨ct, hct, rfl⟩

/-- If the ids of the containers are different, then so are the keys of
the assignments, in whatever order they are reported. -/
theorem distinct_messages (hids : (containers.map (·.id)).Nodup) {order : List Nat}
    (horder : order.Nodup) :
    (((order.map (message containers outcome)).filterMap id).map fun a => a.id.text).Nodup := by
  rw [List.filterMap_map, List.map_filterMap]
  refine List.Nodup.filterMap ?_ horder
  intro i j key hi hj
  simp only [Function.comp_apply, id_eq, Option.mem_def, Option.map_eq_some_iff] at hi hj
  obtain ⟨a, ha, rfl⟩ := hi
  obtain ⟨b, hb, hkey⟩ := hj
  obtain ⟨c, hc, hac⟩ := id_of_message ha
  obtain ⟨d, hd, hbd⟩ := id_of_message hb
  -- Equal keys come from equal ids, and no id is listed twice.
  rw [hac, hbd] at hkey
  have hi : (containers.map (·.id))[i]? = some c.id := by rw [List.getElem?_map, hc]; rfl
  have hj : (containers.map (·.id))[j]? = some d.id := by rw [List.getElem?_map, hd]; rfl
  rw [id_eq_of_text hkey] at hj
  have hlt := (List.getElem?_eq_some_iff.mp hi).1
  exact (List.getElem?_inj hlt hids).mp (hi.trans hj.symm)

end

end Cycle

end NpuAttribution.Poll
