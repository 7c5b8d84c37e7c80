import NpuAttribution.Proofs.Poll.Fetches
import NpuAttribution.Proofs.Poll.Order
import NpuAttribution.Proofs.Poll.Outcomes

/-!
# `NpuAttribution.Proofs.Poll.Conservation`: no snapshot is lost, doubled or merged

Cycles that overlap share one slot, and the owner may be slow to receive what is in it.
`snapshots_conserved` says that this does no harm. Whatever cycles have come to has been
received, is in the slot, or is still with its cycle, each snapshot in one of these places
and with its number of occurrences.

A cycle comes to a snapshot if there is nothing for it to inspect, or when it receives the
last report, and then to this one only (`yields`). What is in the snapshot are outcomes of
its own inspections, and so containers of its own listing (`own_of_produced`).
-/

set_option autoImplicit false

namespace NpuAttribution.Poll

/-- A value is found once among the numbers below a bound, with its own
number. The induction is on the bound. -/
theorem flatMap_range_ite {α : Type} (a : α) {m n : Nat} (h : m < n) :
    ((List.range n).flatMap fun k => if m = k then [a] else []) = [a] := by
  induction n with
  | zero => omega
  | succ n ih =>
    rw [List.range_succ, List.flatMap_append, List.flatMap_singleton]
    by_cases hm : m = n
    · have hnone : ((List.range n).flatMap fun k => if m = k then [a] else []) = [] := by
        rw [List.flatMap_eq_nil_iff]
        intro k hk
        have hlt := List.mem_range.mp hk
        exact if_neg (by omega)
      rw [hnone, if_pos hm, List.nil_append]
    · rw [ih (by omega), if_neg hm, List.append_nil]

/-- Values with numbers below a bound, taken by their numbers, are all
the values. What has been accepted from all cycles is taken apart by
cycles in this way. -/
theorem flatMap_numbered_perm {α : Type} {l : List (Nat × α)} {n : Nat} (h : ∀ p ∈ l, p.1 < n) :
    ((List.range n).flatMap fun k => l.filterMap fun p => if p.1 = k then some p.2 else none).Perm
      (l.map (·.2)) := by
  induction l with
  | nil => simp
  | cons p l ih =>
    have hrest := ih fun q hq => h q (List.mem_cons_of_mem p hq)
    have hsplit (k : Nat) :
        ((p :: l).filterMap fun q => if q.1 = k then some q.2 else none)
          = (if p.1 = k then [p.2] else [])
            ++ l.filterMap fun q => if q.1 = k then some q.2 else none := by
      by_cases hk : p.1 = k <;> simp [hk]
    simp only [hsplit]
    refine (List.flatMap_append_perm _ _ _).symm.trans ?_
    rw [flatMap_range_ite p.2 (h p List.mem_cons_self)]
    exact hrest.cons p.2

namespace Cycle

/-- What a cycle has come to, if it has made the given moves and
received the given reports:

- `unlisted`, `failed`: to no snapshot before it has listed containers,
  or if it could not;
- `idle`: to the empty snapshot if there is nothing to inspect, or too
  much;
- `complete`: to the one made of all reports, when it has one report of
  each container;
- `incomplete`: to none until then;
- `late`: to none if its time is over. -/
structure Yields (made : Move → Prop) (received : List (Option Assignment))
    (produced : List Snapshot) : Prop where
  unlisted : (∀ r, ¬ made (.listed r)) → produced = []
  failed : ∀ e, made (.listed (.error e)) → produced = []
  idle : ∀ containers, made (.listed (.ok containers)) → ¬ Inspectable containers →
    produced = [.empty]
  complete : ∀ containers, made (.listed (.ok containers)) → Inspectable containers →
    received.length = containers.length → produced = [gatherAll received]
  incomplete : ∀ containers, made (.listed (.ok containers)) → Inspectable containers →
    received.length ≠ containers.length → produced = []
  late : made .expire → produced = []

section

variable {limit : Nat} {containers : List ListedContainer} {steps : List Step} {c : Cycle}

/-- A cycle whose time is over has come to no snapshot. What it had
gathered is dropped. -/
theorem produced_of_expire (h : Cycle.run? { limit := limit } steps = some c)
    (hlate : .move .expire ∈ steps) : along step? produced { limit := limit } steps = [] := by
  obtain ⟨pending, -, -, hkept, hover, -⟩ := timeouts_of_expire h hlate
  have hheld : c.held = [] := by
    unfold held
    split
    · rename_i hp
      rw [hp] at hover
      cases hover
    · rfl
  rw [produced_eq h, hkept, hheld]
  rfl

/-- A cycle that has something to inspect has come to a snapshot, in
every phase, if and only if it has received a report of each container.
Before the end of the collection a report is missing, and after it
either none is, or the time was over. -/
theorem produced_of_dispatched (h : Cycle.run? { limit := limit } steps = some c)
    (hc : Dispatched limit containers c) (hinspect : Inspectable containers) :
    ((along step? received { limit := limit } steps).length = containers.length →
      along step? produced { limit := limit } steps
        = [gatherAll (along step? received { limit := limit } steps)]) ∧
    ((along step? received { limit := limit } steps).length ≠ containers.length →
      along step? produced { limit := limit } steps = []) := by
  have hcapacity := hc.capacity
  have hpositive : containers.length ≠ 0 := by
    rw [Ne, List.length_eq_zero_iff]
    exact hinspect.1
  have hcollected := collected h
  have hledger := ledger h
  rw [produced_eq h]
  cases hp : c.phase with
  | listing => exact absurd hp hc.listed
  | dispatching left =>
    -- No report has been received yet.
    have hbefore := (hcollected.before (by rw [hp]; rfl)).1
    have hunread := hledger.unread (by rw [hp]; rfl)
    rw [hunread, List.length_nil]
    exact ⟨fun hzero => absurd hzero.symm hpositive, fun _ => by simp [hbefore, held, hp]⟩
  | collecting pending gathered =>
    -- At least one report is outstanding.
    have hbefore := (hcollected.before (by rw [hp]; rfl)).1
    obtain ⟨hne, hcount⟩ := hledger.pending pending gathered hp
    exact ⟨fun hall => by omega, fun _ => by simp [hbefore, held, hp]⟩
  | delivering snapshot =>
    have hbefore := (hcollected.before (by rw [hp]; rfl)).1
    obtain ⟨hgathered, hall⟩ := hcollected.complete snapshot hp
    refine ⟨fun _ => ?_, fun hnot => by omega⟩
    rw [hbefore, ← hgathered]
    simp [held, hp]
  | joining | done =>
    have hheld : c.held = [] := by simp [held, hp]
    rw [hheld, List.append_nil]
    cases hcollected.ended (by rw [hp]; rfl) with
    | delivered handed silent all => exact ⟨fun _ => handed, fun hnot => by omega⟩
    | timedOut pending hpos count kept => exact ⟨fun hall => by omega, fun _ => kept⟩
    | unlisted none kept => omega

/-- A cycle that has nothing to inspect comes to the empty snapshot, at
once and to no other. -/
theorem produced_of_idle (h : Cycle.run? { limit := limit } steps = some c)
    (hlisted : .move (.listed (.ok containers)) ∈ steps) (hno : ¬ Inspectable containers) :
    along step? produced { limit := limit } steps = [.empty] := by
  have hidle := step?_listed_idle limit hno
  cases origin_of_run? h with
  | new | failed => simp at hlisted
  | idle containers' | idleDelivered containers' | idleDone containers' =>
    obtain rfl : containers = containers' := by simpa using hlisted
    rw [produced_eq h]
    simp only [along, hidle]
    rfl
  | dispatched containers' rest _ hinspect =>
    have hsame := eq_of_listed h hlisted List.mem_cons_self
    cases hsame
    exact absurd hinspect hno

/-- A cycle comes to a snapshot exactly in the cases listed. What it has
been told by its listing decides which of the lemmas above is applied. -/
theorem yields (h : Cycle.run? { limit := limit } steps = some c) :
    Yields (fun m => .move m ∈ steps) (along step? received { limit := limit } steps)
      (along step? produced { limit := limit } steps) := by
  -- Before the listing ends nothing is there, and after a failure nothing follows.
  have hunlisted : (∀ containers, .move (.listed (.ok containers)) ∉ steps) →
      along step? produced { limit := limit } steps = [] := by
    intro hnone
    rw [produced_eq h]
    cases origin_of_run? h with
    | new | failed => rfl
    | idle containers | idleDelivered containers | idleDone containers
    | dispatched containers => exact absurd List.mem_cons_self (hnone containers)
  refine ⟨fun hnone => hunlisted fun cts => hnone (.ok cts), fun e he => ?_,
    fun cts hlisted hno => produced_of_idle h hlisted hno, fun cts hlisted hinspect => ?_,
    fun cts hlisted hinspect => ?_, produced_of_expire h⟩
  · refine hunlisted fun cts hlisted => ?_
    have hsame := eq_of_listed h he hlisted
    cases hsame
  · exact (produced_of_dispatched h (dispatched_of_listed h hinspect hlisted) hinspect).1
  · exact (produced_of_dispatched h (dispatched_of_listed h hinspect hlisted) hinspect).2

/-- A snapshot to which a cycle has come is made of the reports that it
has received, whether it has been handed over or not. -/
theorem eq_gatherAll_of_produced (h : Cycle.run? { limit := limit } steps = some c)
    {snapshot : Snapshot} (hs : snapshot ∈ along step? produced { limit := limit } steps) :
    snapshot = gatherAll (along step? received { limit := limit } steps) := by
  have hcollected := collected h
  rw [produced_eq h] at hs
  rcases List.mem_append.mp hs with hdelivered | hheld
  · by_cases hover : c.phase.isOver = true
    · cases hcollected.ended hover with
      | delivered handed => simpa [handed] using hdelivered
      | timedOut _ _ _ kept | unlisted _ kept => simp [kept] at hdelivered
    · simp [(hcollected.before (by simpa using hover)).1] at hdelivered
  · unfold held at hheld
    split at hheld
    · rename_i snapshot' hp
      rw [List.mem_singleton.mp hheld]
      exact (hcollected.complete snapshot' hp).1
    · cases hheld

/-- An entry of a snapshot to which a cycle has come is the outcome of
an inspection that has ended in this cycle, and its container is one
that the cycle has listed. The entry has been received, so it has been
sent, and a worker sends what its own inspection has come to. -/
theorem own_of_produced (h : Cycle.run? { limit := limit } steps = some c)
    (hdrop : ∀ x ∈ steps, x.drops = false) {snapshot : Snapshot} {key : String} {a : Assignment}
    (hs : snapshot ∈ along step? produced { limit := limit } steps)
    (ha : snapshot.get? key = some a) :
    ∃ (containers : List ListedContainer) (i : Nat) (ct : ListedContainer) (o : Outcome),
      .move (.listed (.ok containers)) ∈ steps ∧ containers[i]? = some ct ∧
      .move (.conclude i o) ∈ steps ∧ o.assignment? ct.id = some a ∧ ct.id.text = key := by
  obtain ⟨outcome, hfollows⟩ := exists_follows h hdrop
  rw [eq_gatherAll_of_produced h hs] at ha
  obtain ⟨hreceived, hkey⟩ : some a ∈ along step? received { limit := limit } steps ∧
      a.id.text = key := by
    rw [get?_gatherAll] at ha
    have hlast := List.mem_of_getLast? ha
    simpa using hlast
  have hsent : some a ∈ along step? sent { limit := limit } steps := by
    rw [(ledger h).queued]
    exact List.mem_append_left _ hreceived
  -- Something has been sent, so there was something to inspect.
  obtain ⟨containers, hinspect, hlisted⟩ : ∃ containers, Inspectable containers ∧
      .move (.listed (.ok containers)) ∈ steps := by
    rcases dispatched_or_idle h with ⟨containers, hinspect, hlisted, -⟩ | ⟨hw, -⟩
    · exact ⟨containers, hinspect, hlisted⟩
    · have hlength := length_sent h
      rw [reporters, hw, List.countP_nil] at hlength
      rw [List.length_eq_zero_iff.mp hlength] at hsent
      cases hsent
  rw [sent_eq h hinspect hlisted hfollows, List.mem_map] at hsent
  obtain ⟨i, hi, hmessage⟩ := hsent
  obtain ⟨ct, hct, ha⟩ := Option.bind_eq_some_iff.mp hmessage
  obtain ⟨o, hx⟩ := concluded_of_reported h hdrop hi
  have ho : o = outcome i := hfollows _ hx
  obtain ⟨ct', hct', hid⟩ := id_of_message hmessage
  have hsame : ct' = ct := Option.some.inj (hct'.symm.trans hct)
  exact ⟨containers, i, ct, o, hlisted, hct, hx, by rw [ho, ha], by rw [← hkey, hid, hsame]⟩

end

end Cycle

namespace State

variable {t : State} {es : List Event}

/-- All that cycles have come to has been accepted or is still with its
cycle. Each of them is counted with its number of occurrences, so
nothing is doubled either. -/
theorem produced_perm (h : State.run? {} es = some t) :
    ((along step? accepted {} es).map (·.2) ++ t.held).Perm
      ((List.range t.cycles.length).flatMap fun k =>
        ({} : State).observe k Cycle.produced es) := by
  have hcycle (k : Nat) (hk : k < t.cycles.length) :
      ({} : State).observe k Cycle.produced es
        = ({} : State).observe k Cycle.delivered es
          ++ t.cycles[k]?.elim [] Cycle.held := by
    have hc := List.getElem?_eq_getElem hk
    obtain ⟨limit, hrun, hobserve⟩ := run?_stepsOf h (Nat.zero_le k) hc
    rw [hobserve, hobserve, Cycle.produced_eq hrun, hc]
    rfl
  -- What is accepted is taken apart by cycles, and so is what they still hold.
  have haccepted : ∀ p ∈ along step? accepted {} es, p.1 < t.cycles.length := by
    intro p hp
    refine lt_of_mem_offers h ?_
    rw [(queueing h).offers]
    exact List.mem_append_left _ (List.mem_map_of_mem hp)
  have hproduced : ((List.range t.cycles.length).flatMap fun k =>
        ({} : State).observe k Cycle.produced es)
      = (List.range t.cycles.length).flatMap fun k =>
        ({} : State).observe k Cycle.delivered es ++ t.cycles[k]?.elim [] Cycle.held :=
    List.flatMap_congr fun k hk => hcycle k (List.mem_range.mp hk)
  rw [hproduced]
  refine List.Perm.trans ?_ (List.flatMap_append_perm _ _ _)
  rw [flatMap_range]
  refine List.Perm.append_right _ ?_
  simp only [observe_delivered]
  exact (flatMap_numbered_perm haccepted).symm

/-- The snapshots of a new monitor, after the given events:

- `conserved`: those that have been received, the one in the slot, and
  those that cycles have not handed over are those to which cycles have
  come, with their numbers of occurrences;
- `yields`: each cycle has come to one snapshot or none;
- `own`: each entry of its snapshot is the outcome of one of its own
  inspections, and its container is in its own listing. -/
structure Conserved (es : List Event) (t : State) : Prop where
  conserved : (along step? takenSnapshots {} es ++ t.mailbox.slot.snapshot?.toList ++ t.held).Perm
    ((List.range t.cycles.length).flatMap fun k => ({} : State).observe k Cycle.produced es)
  yields : ∀ k < t.cycles.length, Cycle.Yields (fun m => .move k m ∈ es)
    (({} : State).observe k Cycle.received es) (({} : State).observe k Cycle.produced es)
  own : ∀ k snapshot key a, snapshot ∈ ({} : State).observe k Cycle.produced es →
    snapshot.get? key = some a →
    ∃ (containers : List ListedContainer) (i : Nat) (ct : ListedContainer) (o : Outcome),
      .move k (.listed (.ok containers)) ∈ es ∧ containers[i]? = some ct ∧
      .move k (.conclude i o) ∈ es ∧ o.assignment? ct.id = some a ∧ ct.id.text = key

/-- However many cycles overlap, and whenever the owner receives what
they have come to, no snapshot is lost, none is received twice, and none
is made of what other cycles have found. The first part is about all
cycles together, and the others are about one at a time. -/
theorem snapshots_conserved (h : State.run? {} es = some t) : Conserved es t := by
  refine ⟨?_, ?_, ?_⟩
  · obtain ⟨source, -, hs⟩ := sourced h
    obtain ⟨slot, hreceipts, hslot⟩ := accepted_eq h
    have haccepted : (along step? accepted {} es).map (·.2)
        = along step? takenSnapshots {} es ++ t.mailbox.slot.snapshot?.toList := by
      rw [hreceipts, List.map_append, hs.taken, hslot]
    rw [← haccepted]
    exact produced_perm h
  · intro k hk
    have hc := List.getElem?_eq_getElem hk
    obtain ⟨limit, hrun, hobserve⟩ := run?_stepsOf h (Nat.zero_le k) hc
    have hmoves : (fun m => .move k m ∈ es)
        = fun m => Step.move m ∈ ({} : State).stepsOf k es :=
      funext fun m => propext (mem_stepsOf_iff h).symm
    rw [hmoves, hobserve, hobserve]
    exact Cycle.yields hrun
  · intro k snapshot key a hs ha
    have hc := List.getElem?_eq_getElem (lt_of_mem_observe h hs)
    obtain ⟨limit, hrun, hobserve⟩ := run?_stepsOf h (Nat.zero_le k) hc
    rw [hobserve] at hs
    obtain ⟨containers, i, ct, o, hlisted, hct, ho, hassigned, hkey⟩ :=
      Cycle.own_of_produced hrun (drops_stepsOf h) hs ha
    exact ⟨containers, i, ct, o, (mem_stepsOf_iff h).mp hlisted, hct, (mem_stepsOf_iff h).mp ho,
      hassigned, hkey⟩

/-- Of four cycles the first two have nothing to inspect, the third one
finds a device, and the time of the fourth one is over. The owner
receives one snapshot. -/
def overlapping : List Event :=
  [.start 5, .start 5, .start 5, .start 5, .move 0 (.listed (.ok [])), .deliver 0,
    .move 2 (.listed (.ok [Cycle.containerA])), .spawn 2, .move 2 .collect, .move 2 (.ask 0),
    .move 2 (.begin 0), .move 3 (.listed (.ok [Cycle.containerA])), .spawn 3, .move 3 .collect,
    .move 1 (.listed (.ok [])), .deliver 1, .move 2 (.conclude 0 (.assigned "pod" [3])),
    .move 2 (.release 0), .move 2 (.report 0), .move 2 .receive, .deliver 2, .move 3 .expire,
    .takeSnapshot, .deliver 1]

/-- The first snapshot is received, the second one is in the slot, and the
third one is still with its cycle. The fourth cycle has not come to any. -/
theorem snapshots_conserved_overlapping :
    ∃ t, State.run? {} overlapping = some t ∧
      along step? takenSnapshots {} overlapping = [.empty] ∧
      t.mailbox.slot = .full .empty ∧
      t.held = [Snapshot.add .empty ⟨Cycle.containerA.id, "pod", [3]⟩] ∧
      Conserved overlapping t := by
  have hrun : (State.run? {} overlapping).any fun t => t.mailbox.slot = .full .empty ∧
      t.held = [Snapshot.add .empty ⟨Cycle.containerA.id, "pod", [3]⟩] := by
    decide +kernel
  obtain ⟨t, ht, hend⟩ := (Option.any_eq_true _ _).mp hrun
  obtain ⟨hslot, hheld⟩ := of_decide_eq_true hend
  exact ⟨t, ht, by decide +kernel, hslot, hheld, snapshots_conserved ht⟩

end State

end NpuAttribution.Poll
