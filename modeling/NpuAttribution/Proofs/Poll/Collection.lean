import NpuAttribution.Proofs.Poll.Reports

/-!
# `NpuAttribution.Proofs.Poll.Collection`: the two ends of a collection

A collection that receives all reports has a snapshot in the end, which is then handed over.
One that runs out of time reports so, with the number of reports that it still waits for,
and forgets what it has gathered. `Collected` says for every phase what has been gathered,
handed over and reported until then, and `collected` proves it for every run. What has
happened once the collection is over is one of the three cases of `Verdict`.
-/

set_option autoImplicit false

namespace NpuAttribution.Poll

/-- Whether the collection is over in a phase, if there has been one. -/
def Phase.isOver : Phase → Bool
  | .joining => true
  | .done => true
  | _ => false

/-- Whether an error can be reported in a step. -/
def Step.complains : Step → Bool
  | .move (.listed (.error _)) => true
  | .move (.conclude _ _) => true
  | .move .expire => true
  | .move (.join _) => true
  | _ => false

namespace Cycle

/-- The snapshot made of the given reports. -/
def gatherAll (rs : List (Option Assignment)) : Snapshot := rs.foldl gather .empty

/-- The last report is gathered after all others. -/
theorem gatherAll_append_singleton (rs : List (Option Assignment)) (r : Option Assignment) :
    gatherAll (rs ++ [r]) = gather (gatherAll rs) r := by
  simp [gatherAll]

/-- How a cycle has ended that has no collection before it any more:

- `delivered`: it has received a report of every worker, and has handed
  over the snapshot that it has made of them;
- `timedOut`: its time was over when reports were still to come, and it
  has said so once;
- `unlisted`: it did not have anything to collect. -/
inductive Verdict (limit : Nat) (steps : List Step) (c : Cycle) : Prop
  | delivered
    (handed : along step? delivered { limit := limit } steps
      = [gatherAll (along step? received { limit := limit } steps)])
    (silent : along step? timeouts { limit := limit } steps = [])
    (all : (along step? received { limit := limit } steps).length = c.capacity)
  | timedOut (pending : Nat) (hpos : pending ≠ 0)
    (count : pending + (along step? received { limit := limit } steps).length = c.capacity)
    (kept : along step? delivered { limit := limit } steps = [])
    (said : along step? timeouts { limit := limit } steps = [.timeout limit pending c.capacity])
    (expired : .move .expire ∈ steps)
  | unlisted (none : c.capacity = 0)
    (kept : along step? delivered { limit := limit } steps = [])
    (silent : along step? timeouts { limit := limit } steps = [])

/-- What a collection has done until a phase:

- `gathered`: it has gathered what it has received;
- `complete`: before the snapshot is handed over, every report has been
  received;
- `before`: until the collection is over, nothing is handed over or said
  to be late;
- `ended`: then one of the three cases has come about. -/
structure Collected (limit : Nat) (steps : List Step) (c : Cycle) : Prop where
  gathered : ∀ pending g, c.phase = .collecting pending g →
    g = gatherAll (along step? received { limit := limit } steps)
  complete : ∀ snapshot, c.phase = .delivering snapshot →
    snapshot = gatherAll (along step? received { limit := limit } steps) ∧
      (along step? received { limit := limit } steps).length = c.capacity
  before : c.phase.isOver = false →
    along step? delivered { limit := limit } steps = [] ∧
      along step? timeouts { limit := limit } steps = []
  ended : c.phase.isOver = true → Verdict limit steps c

section

variable {limit : Nat} {steps : List Step} {c c' : Cycle} {x : Step}

/-- Everything that a move can do outside of its cycle:

- `nothing`: most moves concern the cycle alone;
- `error`: an error is reported and nothing else is said, by one of the
  moves that can report one;
- `warning`: the journal is told something at the level of warnings, and
  nothing is reported. -/
inductive Effects (m : Move) (effect : Effect) : Prop
  | nothing (h : effect = {})
  | error (e : MonitorError) (hm : (Step.move m).complains = true)
    (h : effect = { error := some e })
  | warning (l : Line) (hl : l.level = .warn) (h : effect = { lines := [l] })

/-- A move does nothing outside of its cycle that is not listed. Two of
the moves can tell the journal something, and four can report an error;
none does both at once. The cases are those of the moves, each with what
its inversion lemma says. -/
theorem effects_of_move? {m : Move} {effect : Effect} (hm : c.move? m = some (c', effect)) :
    Effects m effect := by
  -- An error that is reported only in some cases is either reported or not.
  have hmaybe {error : Option MonitorError} (hm : (Step.move m).complains = true)
      (h : effect = { error }) : Effects m effect := by
    cases error with
    | none => exact .nothing h
    | some e => exact .error e hm h
  cases m with
  | listed r =>
    cases r with
    | error e =>
      obtain ⟨-, heq⟩ := listed?_error_eq_some_iff.mp hm
      exact .error (.runtime e) rfl (congrArg Prod.snd heq)
    | ok containers =>
      obtain ⟨-, ⟨-, heq⟩ | ⟨-, heq⟩ | ⟨-, heq⟩⟩ := listed?_ok_eq_some_iff.mp hm
      · exact .nothing (congrArg Prod.snd heq)
      · exact .warning (tooMany containers.length) rfl (congrArg Prod.snd heq)
      · exact .nothing (congrArg Prod.snd heq)
  | conclude i o =>
    obtain ⟨-, heq⟩ := conclude?_eq_some_iff.mp hm
    exact hmaybe rfl (congrArg Prod.snd heq)
  | expire =>
    obtain ⟨_, _, -, heq⟩ := expire?_eq_some_iff.mp hm
    exact hmaybe rfl (congrArg Prod.snd heq)
  | hangUp =>
    obtain ⟨pending, _, -, -, -, -, heq⟩ := hangUp?_eq_some_iff.mp hm
    exact .warning (neverReported (pending + 1)) rfl (congrArg Prod.snd heq)
  | join i =>
    obtain ⟨_, _, -, -, -, heq⟩ := join?_eq_some_iff.mp hm
    exact hmaybe rfl (congrArg Prod.snd heq)
  | collect | ask | begin | release | report | receive | finish =>
    exact .nothing (without_eq_some_iff.mp hm).2

/-- A move that reports an error tells the journal nothing by
itself. What the journal is told about an error that cannot be
queued is another matter. -/
theorem lines_of_error {m : Move} {effect : Effect} {e : MonitorError}
    (hm : c.move? m = some (c', effect)) (he : effect.error = some e) : effect.lines = [] := by
  cases effects_of_move? hm with
  | nothing h => rw [h]
  | error e' _ h => rw [h]
  | warning l _ h =>
    rw [h] at he
    cases he

/-- A step can only report an error if it is one of four: the
listing ends, an inspection ends, the time is over, or a worker's
end is taken note of. -/
theorem errors_eq_nil (c : Cycle) (h : x.complains = false) : errors c x = [] := by
  cases x with
  | spawn | handOver | drop => rfl
  | move m =>
    show ((c.move? m).bind (·.2.error)).toList = []
    cases hm : c.move? m with
    | none => rfl
    | some r =>
      cases effects_of_move? hm with
      | nothing heffect => simp [heffect]
      | error e hcomplains =>
        rw [h] at hcomplains
        cases hcomplains
      | warning l _ heffect => simp [heffect]

/-- A step that reports no error does not report that the time is over. -/
theorem timeouts_eq_nil (c : Cycle) (h : x.complains = false) : timeouts c x = [] := by
  rw [timeouts, errors_eq_nil c h]
  rfl

/-- Only a collector whose time is over says that it is. The other
errors are of other kinds, and there is one case here for each step
that can report one. -/
theorem timeouts_step (hx : Leads c x c') (hno : x ≠ .move .expire) : timeouts c x = [] := by
  cases hx with
  | expire pending gathered hp => exact absurd rfl hno
  | failed e hp => simp [timeouts, errors, move?, listed?, hp, MonitorError.isTimeout]
  | conclude i o hs =>
    cases o with
    | failed e =>
      cases e <;> simp [timeouts, errors, move?, conclude?, hs, Outcome.error?,
        InspectionError.toMonitorError, MonitorError.isTimeout]
    | assigned | unassigned | panicked =>
      simp [timeouts, errors, move?, conclude?, hs, Outcome.error?]
  | join i o hp hs =>
    obtain ⟨w, hw, hstage⟩ := stage?_eq_some_iff.mp hs
    cases hf : Worker.failure? o <;>
      simp [timeouts, errors, move?, join?, hp, hw, hstage, hf, MonitorError.isTimeout]
  | _ => exact timeouts_eq_nil c rfl

/-- A step that does not belong to the collection keeps what the
collection has done. The hypotheses say that nothing is received,
delivered or said to be late in the step, and that it leaves the
collection where it is. -/
theorem collected_quiet (hrun : Cycle.run? { limit := limit } steps = some c)
    (h : Collected limit steps c) (hreceived : received c x = [])
    (hdelivered : delivered c x = []) (htimeouts : timeouts c x = [])
    (hcollecting : ∀ p g, c'.phase = .collecting p g → c.phase = .collecting p g)
    (hdelivering : ∀ s, c'.phase = .delivering s → c.phase = .delivering s)
    (hover : c'.phase.isOver = c.phase.isOver) (hcapacity : c'.capacity = c.capacity) :
    Collected limit (steps ++ [x]) c' := by
  have hr := along_append_singleton received hrun (e := x)
  have hd := along_append_singleton delivered hrun (e := x)
  have ht := along_append_singleton timeouts hrun (e := x)
  rw [hreceived, List.append_nil] at hr
  rw [hdelivered, List.append_nil] at hd
  rw [htimeouts, List.append_nil] at ht
  refine ⟨fun p g hp => ?_, fun s hp => ?_, fun hp => ?_, fun hp => ?_⟩
  · rw [hr]
    exact h.gathered p g (hcollecting p g hp)
  · rw [hr, hcapacity]
    exact h.complete s (hdelivering s hp)
  · rw [hd, ht]
    exact h.before (hover ▸ hp)
  -- What has become of the collection is said about steps and room only.
  · cases h.ended (hover ▸ hp) with
    | delivered handed silent all =>
      exact .delivered (by rw [hd, hr, handed]) (by rw [ht, silent]) (by rw [hr, all, hcapacity])
    | timedOut pending hpos count kept said expired =>
      exact .timedOut pending hpos (by rw [hr, count, hcapacity]) (by rw [hd, kept])
        (by rw [ht, said, hcapacity]) (List.mem_append_left _ expired)
    | unlisted none kept silent =>
      exact .unlisted (by rw [hcapacity, none]) (by rw [hd, kept]) (by rw [ht, silent])

/-- The report that is received is gathered. If it was the last one
that the collector waits for then as many have been received as
there is room for. -/
theorem collected_receive (hrun : Cycle.run? { limit := limit } steps = some c)
    (h : Collected limit steps c) {pending : Nat} {gathered : Snapshot} {r : Option Assignment}
    {reports : List (Option Assignment)} (hp : c.phase = .collecting (pending + 1) gathered)
    (hr : c.reports = r :: reports) {phase : Phase} (hover : phase.isOver = false)
    (hcollecting : ∀ p g, phase = .collecting p g → g = gather gathered r)
    (hdelivering : ∀ s, phase = .delivering s → s = gather gathered r ∧ pending = 0) :
    Collected limit (steps ++ [.move .receive]) { c with phase, reports } := by
  have hreceived : received c (.move .receive) = [r] := by simp [received, hr]
  have hg : gatherAll (along step? received { limit := limit } (steps ++ [.move .receive]))
      = gather gathered r := by
    rw [along_append_singleton _ hrun, hreceived, gatherAll_append_singleton,
      ← h.gathered _ _ hp]
  refine ⟨fun p g hpg => ?_, fun s hs => ⟨?_, ?_⟩, fun _ => ?_, fun ho => ?_⟩
  · rw [hg]
    exact hcollecting p g hpg
  · rw [hg]
    exact (hdelivering s hs).1
  -- The collector waits for nothing more, so it has received all that there is room for.
  · have hcount := ((ledger hrun).pending _ _ hp).2
    rw [along_append_singleton _ hrun, hreceived, List.length_append, List.length_singleton]
    have hzero := (hdelivering s hs).2
    show _ = c.capacity
    omega
  · have hbefore := h.before (by rw [hp]; rfl)
    rw [along_append_singleton _ hrun, along_append_singleton _ hrun, hbefore.1, hbefore.2,
      timeouts_eq_nil c rfl]
    exact ⟨rfl, rfl⟩
  · have ho : phase.isOver = true := ho
    rw [hover] at ho
    cases ho

/-- Once a collection is over, only what has become of it counts. The
other parts are about phases in which the cycle is not any more. -/
theorem collected_of_isOver (hover : c.phase.isOver = true) (h : Verdict limit steps c) :
    Collected limit steps c where
  gathered pending g hp := by
    rw [hp] at hover
    cases hover
  complete snapshot hp := by
    rw [hp] at hover
    cases hover
  before hnot := by
    rw [hnot] at hover
    cases hover
  ended _ := h

/-- Running out of time is said, with the number of reports that are
still to come. -/
theorem collected_expire (hrun : Cycle.run? { limit := limit } steps = some c)
    (h : Collected limit steps c) {pending : Nat} {gathered : Snapshot}
    (hp : c.phase = .collecting pending gathered) :
    Collected limit (steps ++ [.move .expire]) { c with phase := .joining } := by
  obtain ⟨hpos, hcount⟩ := (ledger hrun).pending pending gathered hp
  obtain ⟨hkept, hsilent⟩ := h.before (by rw [hp]; rfl)
  -- The error says how many workers there are, which is the room of the channel.
  have hworkers : c.workers.length = c.capacity := by
    rcases dispatched_or_idle hrun with ⟨containers, -, -, hc⟩ | ⟨-, -, hidle⟩
    · rw [hc.length_workers (by rw [hp]; rfl), hc.capacity]
    · exact absurd hp (hidle pending gathered)
  have hsaid : timeouts c (.move .expire) = [.timeout limit pending c.capacity] := by
    simp [timeouts, errors, move?, expire?, hp, timeoutError, limit_of_run? hrun, hworkers,
      MonitorError.isTimeout]
  refine collected_of_isOver rfl (.timedOut pending hpos ?_ ?_ ?_ (by simp))
  · rw [along_append_singleton _ hrun]
    simpa [received] using hcount
  · rw [along_append_singleton _ hrun, hkept]
    rfl
  · rw [along_append_singleton _ hrun, hsilent, hsaid]
    rfl

/-- A complete snapshot is handed over, and it is made of all reports. -/
theorem collected_handOver (hrun : Cycle.run? { limit := limit } steps = some c)
    (h : Collected limit steps c) {snapshot : Snapshot} (hp : c.phase = .delivering snapshot) :
    Collected limit (steps ++ [.handOver]) { c with phase := .joining } := by
  obtain ⟨hgathered, hall⟩ := h.complete snapshot hp
  obtain ⟨hkept, hsilent⟩ := h.before (by rw [hp]; rfl)
  have hr : along step? received { limit := limit } (steps ++ [.handOver])
      = along step? received { limit := limit } steps := by
    rw [along_append_singleton _ hrun]
    exact List.append_nil _
  refine collected_of_isOver rfl (.delivered ?_ ?_ (by rw [hr, hall]))
  · rw [along_append_singleton _ hrun, hkept, hr, ← hgathered]
    simp [delivered, handOver?, hp]
  · rw [along_append_singleton _ hrun, hsilent]
    rfl

/-- Every step keeps account of the collection. The cases are the
transitions of a cycle. Most of them do not concern the collection
and are quiet; the others begin it, receive a report, or end it in
one of its ways. -/
theorem collected_step (hrun : Cycle.run? { limit := limit } steps = some c)
    (h : Collected limit steps c) (hx : Leads c x c') : Collected limit (steps ++ [x]) c' := by
  have htimeouts := timeouts_step hx
  cases hx with
  | failed e hp =>
    obtain ⟨rfl, rfl⟩ := new_of_listing hrun hp
    exact collected_of_isOver rfl (.unlisted rfl rfl rfl)
  | idle containers hp =>
    obtain ⟨rfl, rfl⟩ := new_of_listing hrun hp
    refine ⟨nofun, fun s hs => ?_, fun _ => ?_, nofun⟩
    · cases hs
      rw [along_append_singleton _ hrun]
      exact ⟨rfl, rfl⟩
    · rw [along_append_singleton _ hrun, along_append_singleton _ hrun, htimeouts (by simp)]
      exact ⟨rfl, rfl⟩
  | listed containers hp =>
    obtain ⟨rfl, rfl⟩ := new_of_listing hrun hp
    refine ⟨nofun, nofun, fun _ => ?_, nofun⟩
    rw [along_append_singleton _ hrun, along_append_singleton _ hrun, htimeouts (by simp)]
    exact ⟨rfl, rfl⟩
  | collect hp =>
    -- Nothing has been received yet, and the snapshot is still empty.
    have hunread := (ledger hrun).unread (by rw [hp]; rfl)
    obtain ⟨hkept, hsilent⟩ := h.before (by rw [hp]; rfl)
    refine ⟨fun p g hpg => ?_, nofun, fun _ => ?_, nofun⟩
    · cases hpg
      rw [along_append_singleton _ hrun, hunread]
      rfl
    · rw [along_append_singleton _ hrun, along_append_singleton _ hrun, hkept, hsilent,
        htimeouts (by simp)]
      exact ⟨rfl, rfl⟩
  | receive pending gathered r reports hp hr =>
    refine collected_receive hrun h hp hr rfl (fun p g hpg => ?_) (fun s hs => by cases hs)
    cases hpg
    rfl
  | complete gathered r reports hp hr =>
    refine collected_receive hrun h hp hr rfl (fun p g hpg => by cases hpg) (fun s hs => ?_)
    cases hs
    exact ⟨rfl, rfl⟩
  | expire pending gathered hp => exact collected_expire hrun h hp
  | hangUp pending gathered hp hr hall =>
    -- The channel closes only when all have reported, but the collector still waits.
    obtain ⟨i, w, hw, hno⟩ := exists_unreported hrun hp hr
    rw [hall w (List.mem_of_getElem? hw)] at hno
    cases hno
  | handOver snapshot hp => exact collected_handOver hrun h hp
  | finish hp =>
    exact collected_quiet hrun h rfl rfl (htimeouts (by simp)) (by simp) (by simp)
      (by rw [hp]; rfl) rfl
  | spawn task container left hp =>
    exact collected_quiet hrun h rfl rfl (htimeouts (by simp)) (by simp) (by simp)
      (by rw [hp]; rfl) rfl
  | report i w o hw hs =>
    exact collected_quiet hrun h rfl rfl (htimeouts (by simp)) (by simp) (by simp) (by simp)
      (by simp)
  | grant | enqueue | begin | conclude | release | releaseTo | join | dropIdle | dropWaiting
  | dropBusy | dropBusyTo =>
    exact collected_quiet hrun h rfl rfl (htimeouts (by simp)) (fun _ _ => id) (fun _ => id) rfl rfl

/-- What a collection has done is always accounted for. This is the invariant
from which the statements about snapshots and timeouts are read off. -/
theorem collected (h : Cycle.run? { limit := limit } steps = some c) :
    Collected limit steps c := by
  refine run?_induction (motive := Collected limit) ⟨nofun, nofun, ?_, nofun⟩ ?_ h
  · exact fun _ => ⟨rfl, rfl⟩
  · exact fun hrun hcollected hx => collected_step hrun hcollected hx

end

end Cycle

end NpuAttribution.Poll
