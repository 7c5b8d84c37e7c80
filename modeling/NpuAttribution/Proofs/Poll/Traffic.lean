import NpuAttribution.Poll.Traffic
import NpuAttribution.Proofs.Poll.Collection

/-!
# `NpuAttribution.Proofs.Poll.Traffic`: how snapshots pass through the slot

A cycle that has come to a snapshot holds it until it hands it over, and comes to no other
one (`produced_eq`). In between it may wait for the slot. `SlotStep` lists what an event can
do to the slot and to those who wait for it, and `Queueing` is the invariant that follows:
cycles are accepted in the order in which they have begun to offer, and what has been
accepted has been received or is in the slot.
-/

set_option autoImplicit false

namespace NpuAttribution.Poll

section

variable {σ ε α β : Type} {step : σ → ε → Option σ}

/-- Leaving out part of what is seen in each step leaves it out of what
is seen along all of them. -/
theorem along_filterMap (see : σ → ε → List α) (f : α → Option β) (s : σ) (es : List ε) :
    along step (fun s e => (see s e).filterMap f) s es = (along step see s es).filterMap f := by
  induction es generalizing s with
  | nil => rfl
  | cons e es ih =>
    simp only [along, List.filterMap_append]
    cases step s e with
    | none => rfl
    | some t => exact congrArg _ (ih t)

end

namespace Cycle

variable {limit : Nat} {steps : List Step} {c c' : Cycle} {x : Step} {snapshot : Snapshot}

/-- A cycle that has a snapshot to deliver keeps it until it hands it
over. Its workers may still get on in the meantime. -/
theorem delivering_step (hp : c.phase = .delivering snapshot) (hx : Leads c x c') :
    (x = .handOver ∧ c'.phase = .joining) ∨ (x ≠ .handOver ∧ c'.phase = .delivering snapshot) := by
  cases hx with
  | handOver snapshot' hp' => exact .inl ⟨rfl, rfl⟩
  | failed _ hp' | idle _ hp' | listed _ hp' | spawn _ _ _ hp' | collect hp'
  | receive _ _ _ _ hp' | complete _ _ _ hp' | expire _ _ hp' | hangUp _ _ hp' | join _ _ hp'
  | finish hp' =>
    rw [hp] at hp'
    cases hp'
  | report i w o hw hs => exact .inr ⟨by simp, by simpa using hp⟩
  | grant | enqueue | begin | conclude | release | releaseTo | dropIdle | dropWaiting | dropBusy
  | dropBusyTo => exact .inr ⟨by simp, hp⟩

/-- Only a cycle with a snapshot to deliver hands one over. -/
theorem delivered_eq_nil (hheld : c.held = []) (x : Step) : delivered c x = [] := by
  cases x with
  | spawn | move | drop => rfl
  | handOver =>
    show (c.handOver?.map (·.1)).toList = []
    cases hs : c.handOver? with
    | none => rfl
    | some r =>
      obtain ⟨snapshot, hp, -⟩ := handOver?_eq_some_iff.mp hs
      simp [held, hp] at hheld

/-- What a cycle has and what it comes to in a step, it hands over or has
afterwards. So no snapshot appears from nowhere or is lost in a step. -/
theorem held_step (hstep : c.step? x = some c') :
    c.held ++ produced c x = delivered c x ++ c'.held := by
  by_cases hheld : c.held = []
  · simp [produced, hheld, hstep, delivered_eq_nil hheld]
  · -- It has a snapshot, so it comes to no other one, and hands this one over or not.
    obtain ⟨snapshot, hp⟩ : ∃ snapshot, c.phase = .delivering snapshot := by
      unfold held at hheld
      split at hheld
      · exact ⟨_, ‹_›⟩
      · exact absurd rfl hheld
    have hheld' : c.held = [snapshot] := by simp [held, hp]
    rw [produced, if_neg hheld, hheld', List.append_nil]
    rcases delivering_step hp (leads_of_step? hstep) with ⟨rfl, hp'⟩ | ⟨hx, hp'⟩
    · simp [delivered, handOver?, hp, held, hp']
    · have hnone : delivered c x = [] := by
        cases x with
        | handOver => exact absurd rfl hx
        | spawn | move | drop => rfl
      simp [hnone, held, hp']

/-- A cycle has handed over, or still has, the snapshots to which it has come. -/
theorem produced_eq (h : Cycle.run? { limit := limit } steps = some c) :
    along step? produced { limit := limit } steps
      = along step? delivered { limit := limit } steps ++ c.held := by
  refine follow_induction (motive := fun steps c =>
    along step? produced { limit := limit } steps
      = along step? delivered { limit := limit } steps ++ c.held) rfl ?_ h
  intro steps c x c' hrun ih hstep
  rw [along_append_singleton _ hrun, along_append_singleton _ hrun, ih, List.append_assoc,
    List.append_assoc, held_step hstep]

/-- A cycle that has not handed its snapshot over has not handed over any. -/
theorem delivered_of_delivering (h : Cycle.run? { limit := limit } steps = some c)
    (hp : c.phase = .delivering snapshot) :
    along step? delivered { limit := limit } steps = [] :=
  ((collected h).before (by rw [hp]; rfl)).1

/-- No cycle hands over more than one snapshot. -/
theorem length_delivered_le (h : Cycle.run? { limit := limit } steps = some c) :
    (along step? delivered { limit := limit } steps).length ≤ 1 := by
  by_cases hover : c.phase.isOver = true
  · cases (collected h).ended hover with
    | delivered handed => simp [handed]
    | timedOut _ _ _ kept | unlisted _ kept => simp [kept]
  · simp [((collected h).before (by simpa using hover)).1]

end Cycle

namespace Mailbox

/-- A cycle waits that has been promised the slot or stands in the queue
for it. -/
theorem mem_waiting {m : Mailbox} {k : Nat} :
    k ∈ m.waiting ↔ m.slot = .reserved k ∨ k ∈ m.senders := by
  unfold waiting
  cases hs : m.slot <;> simp [Slot.reservedFor?, eq_comm]

/-- The order in which cycles wait does not change when the slot is vacated:
the first in the queue is promised the slot, and is still the first. -/
theorem waiting_vacate {m : Mailbox} (hslot : m.slot.reservedFor? = none) :
    m.vacate.waiting = m.waiting := by
  unfold waiting vacate
  rw [hslot]
  cases m.senders <;> rfl

/-- A cycle that does not wait begins to, behind all others, and one
that waits keeps its place. -/
theorem waiting_await (m : Mailbox) (k : Nat) :
    (m.await k).waiting = if k ∈ m.senders then m.waiting else m.waiting ++ [k] := by
  unfold await
  split
  · rfl
  · simp [waiting]

end Mailbox

namespace State

variable {s t : State} {es : List Event} {e : Event} {k : Nat}

/-- What an event can do to the slot and to the cycles that wait for it:

- `accepted`: a snapshot is put into the slot;
- `awaited`: a snapshot is offered in vain, and its cycle waits from now
  on if it has not waited before;
- `taken`: the snapshot in the slot is received;
- `other`: nothing. -/
inductive SlotStep (s : State) (e : Event) (t : State) : Prop
  | accepted (k : Nat) (c : Cycle) (snapshot : Snapshot) (he : e = .deliver k)
    (hc : s.cycles[k]? = some c) (hp : c.phase = .delivering snapshot)
    (hroom : s.mailbox.hasRoomFor k = true)
    (ht : t.mailbox = { s.mailbox with slot := .full snapshot })
  | awaited (k : Nat) (c : Cycle) (snapshot : Snapshot) (he : e = .deliver k)
    (hc : s.cycles[k]? = some c) (hp : c.phase = .delivering snapshot)
    (hroom : s.mailbox.hasRoomFor k = false) (ht : t.mailbox = s.mailbox.await k)
  | taken (snapshot : Snapshot) (he : e = .takeSnapshot)
    (hslot : s.mailbox.slot = .full snapshot) (ht : t.mailbox = s.mailbox.vacate)
  | other (hdeliver : ∀ k, e ≠ .deliver k) (htake : e ≠ .takeSnapshot)
    (hslot : t.mailbox.slot = s.mailbox.slot) (hsenders : t.mailbox.senders = s.mailbox.senders)

/-- Reporting an error has nothing to do with the slot. -/
theorem slot_suffer (s : State) (effect : Effect) :
    (s.suffer effect).mailbox.slot = s.mailbox.slot ∧
      (s.suffer effect).mailbox.senders = s.mailbox.senders := by
  cases he : effect.error with
  | none => simp [suffer, report, he]
  | some e =>
    simp only [suffer, report, he, Mailbox.report]
    split <;> exact ⟨rfl, rfl⟩

/-- Every event does one of the four things to the slot. What is proved
of the slot from here on is by these four cases. -/
theorem slotStep_of_step? (h : s.step? e = some t) : SlotStep s e t := by
  cases e with
  | deliver k =>
    obtain ⟨c, snapshot, c', hc, hs, ht⟩ := deliver?_eq_some h
    obtain ⟨_, hp, heq⟩ := Cycle.handOver?_eq_some_iff.mp hs
    cases heq
    by_cases hroom : s.mailbox.hasRoomFor k = true
    · rw [if_pos hroom] at ht
      subst ht
      exact .accepted k c snapshot rfl hc hp hroom rfl
    · rw [if_neg hroom] at ht
      subst ht
      exact .awaited k c snapshot rfl hc hp (by simpa using hroom) rfl
  | takeSnapshot =>
    obtain ⟨snapshot, hslot, rfl⟩ := takeSnapshot_eq_some h
    exact .taken snapshot rfl hslot rfl
  -- All other events leave the slot as it is.
  | move k m =>
    obtain ⟨c, c', effect, -, -, rfl⟩ := move?_eq_some h
    have hslot := slot_suffer (s.setCycle k c') effect
    exact .other (by simp) (by simp) hslot.1 hslot.2
  | spawn k =>
    obtain ⟨_, _, -, -, rfl⟩ := spawn?_eq_some h
    exact .other (by simp) (by simp) rfl rfl
  | takeError =>
    obtain ⟨_, _, -, rfl⟩ := takeError_eq_some h
    exact .other (by simp) (by simp) rfl rfl
  | start | note | takeJournal | elsewhere =>
    cases h
    exact .other (by simp) (by simp) rfl rfl

/-- A cycle before an event is there after it, and has made the step
that the event is. -/
theorem cycle_after (h : s.step? e = some t) {c : Cycle} (hc : s.cycles[k]? = some c) :
    (t.cycles[k]? = some c ∧ s.stepOf? k e = none) ∨
    ∃ c' x, t.cycles[k]? = some c' ∧ s.stepOf? k e = some x ∧ c.step? x = some c' := by
  have hlt : k < t.cycles.length :=
    Nat.lt_of_lt_of_le (List.getElem?_eq_some_iff.mp hc).1 (length_cycles_le h)
  have hc' := List.getElem?_eq_getElem hlt
  rcases cycle_before h hc' with ⟨hnone, -⟩ | ⟨hsame, hno⟩ | ⟨d, x, hd, hx, hstep⟩
  · rw [hc] at hnone
    cases hnone
  · rw [hc] at hsame
    exact .inl ⟨by rw [hc', hsame], hno⟩
  · rw [hc] at hd
    cases hd
    exact .inr ⟨_, x, hc', hx, hstep⟩

/-- What is seen of the deliveries of one cycle is what is seen of them
among all others. -/
theorem watch_delivered (s : State) (e : Event) (k : Nat) :
    watch k Cycle.delivered s e
      = (s.accepted e).filterMap fun p => if p.1 = k then some p.2 else none := by
  cases e with
  | deliver j =>
    by_cases hj : j = k
    · subst hj
      simp [accepted]
    -- The delivery of another cycle is not seen.
    · have hnone : watch k Cycle.delivered s (.deliver j) = [] := by
        unfold watch
        split
        · rename_i hx
          simp [stepOf?, hj] at hx
        · rfl
      simp [accepted, hnone, hj]
  | start | takeSnapshot | takeError | note | takeJournal | elsewhere =>
    unfold watch
    cases s.cycles[k]? <;> rfl
  | spawn j | move j m =>
    unfold watch
    split
    · rename_i c x hc hx
      simp only [stepOf?, Option.ite_none_right_eq_some, Option.some.injEq] at hx
      obtain ⟨-, rfl⟩ := hx
      rfl
    · rfl

/-- The same holds along a run. -/
theorem observe_delivered (s : State) (k : Nat) (es : List Event) :
    s.observe k Cycle.delivered es
      = (along step? accepted s es).filterMap fun p => if p.1 = k then some p.2 else none := by
  unfold observe
  rw [← along_filterMap, funext fun s => funext fun e => watch_delivered s e k]

/-- A snapshot that is accepted is one that its cycle hands over. -/
theorem mem_observe_delivered {s : State} {es : List Event} {k : Nat} {snapshot : Snapshot} :
    snapshot ∈ s.observe k Cycle.delivered es ↔ (k, snapshot) ∈ along step? accepted s es := by
  rw [observe_delivered, List.mem_filterMap]
  constructor
  · rintro ⟨⟨j, snapshot'⟩, hmem, hp⟩
    simp only [Option.ite_none_right_eq_some, Option.some.injEq] at hp
    obtain ⟨rfl, rfl⟩ := hp
    exact hmem
  · intro hmem
    exact ⟨_, hmem, by simp⟩

/-- A cycle has a snapshot to deliver. -/
def Holding (s : State) (k : Nat) : Prop :=
  ∃ c snapshot, s.cycles[k]? = some c ∧ c.phase = .delivering snapshot

/-- A cycle keeps its snapshot until it is accepted. An offer that is
made in vain changes nothing about it. -/
theorem Holding.after (hk : s.Holding k) (h : s.step? e = some t)
    (hnot : e = .deliver k → s.mailbox.hasRoomFor k = false) : t.Holding k := by
  obtain ⟨c, snapshot, hc, hp⟩ := hk
  rcases cycle_after h hc with ⟨hsame, -⟩ | ⟨c', x, hc', hx, hstep⟩
  · exact ⟨c, snapshot, hsame, hp⟩
  · rcases Cycle.delivering_step hp (Cycle.leads_of_step? hstep) with ⟨rfl, -⟩ | ⟨-, hp'⟩
    -- A cycle hands its snapshot over only if there is room.
    · rcases event_of_stepOf? hx with ⟨-, hx⟩ | ⟨m, -, hx⟩ | ⟨rfl, -, hroom⟩
      · cases hx
      · cases hx
      · rw [hnot rfl] at hroom
        cases hroom
    · exact ⟨c', snapshot, hc', hp'⟩

/-- How cycles stand in the queue for the slot, after the given events
of a new monitor:

- `free`: nobody waits for a slot that is free;
- `offers`: the cycles that have begun to offer are those whose snapshot
  has been accepted, in this order, and behind them those that wait;
- `once`: none of them has begun to offer twice;
- `waiting`: those that wait still have their snapshot. -/
structure Queueing (es : List Event) (t : State) : Prop where
  free : t.mailbox.slot = .free → t.mailbox.senders = []
  offers : offers es = (along step? accepted {} es).map (·.1) ++ t.mailbox.waiting
  once : (State.offers es).Nodup
  waiting : ∀ k ∈ t.mailbox.waiting, t.Holding k

/-- A cycle that has its snapshot to deliver has not had one accepted,
since it comes to one snapshot only. -/
theorem Holding.not_accepted (hk : t.Holding k) (h : State.run? {} es = some t) :
    k ∉ (along step? accepted {} es).map (·.1) := by
  obtain ⟨c, snapshot, hc, hp⟩ := hk
  obtain ⟨limit, hrun, hobserve⟩ := run?_stepsOf h (Nat.zero_le k) hc
  have hnone := Cycle.delivered_of_delivering hrun hp
  rw [← hobserve] at hnone
  intro hmem
  obtain ⟨⟨j, snapshot'⟩, hpair, rfl⟩ := List.mem_map.mp hmem
  have hseen := mem_observe_delivered.mpr hpair
  rw [hnone] at hseen
  cases hseen

/-- The snapshot that a cycle has to deliver is accepted when it is
offered and there is room. -/
theorem accepted_deliver {c : Cycle} {snapshot : Snapshot} (hc : s.cycles[k]? = some c)
    (hp : c.phase = .delivering snapshot) (hroom : s.mailbox.hasRoomFor k = true) :
    s.accepted (.deliver k) = [(k, snapshot)] := by
  simp [accepted, watch, hc, stepOf?, hroom, Cycle.delivered, Cycle.handOver?, hp]

/-- If there is no room for a snapshot then it is not accepted. -/
theorem accepted_deliver_eq_nil (hroom : s.mailbox.hasRoomFor k = false) :
    s.accepted (.deliver k) = [] := by
  simp [accepted, watch, stepOf?, hroom]

/-- An event that is no offer has no snapshot accepted. -/
theorem accepted_eq_nil (s : State) (h : ∀ k, e ≠ .deliver k) : s.accepted e = [] := by
  cases e with
  | deliver k => exact absurd rfl (h k)
  | _ => rfl

/-- No cycle begins to offer its snapshot in an event that is no offer. -/
theorem offered_eq_nil (s : State) (h : ∀ k, e ≠ .deliver k) : s.offered e = [] := by
  cases e with
  | deliver k => exact absurd rfl (h k)
  | _ => rfl

/-- Only the cycle that offers its snapshot begins to. -/
theorem eq_of_mem_offered {j : Nat} (h : j ∈ s.offered (.deliver k)) : j = k := by
  by_cases hk : k ∈ s.mailbox.waiting
  · simp [offered, hk] at h
  · simpa [offered, hk] using h

/-- A cycle does not begin twice to offer its snapshot: if it does not
wait, then nothing of it has been accepted, so it has not offered
anything before. -/
theorem Queueing.nodup_offers (hq : Queueing es s) (h : State.run? {} es = some s)
    (hk : s.Holding k) : (State.offers (es ++ [.deliver k])).Nodup := by
  have hoffers : State.offers (es ++ [.deliver k])
      = State.offers es ++ s.offered (.deliver k) := along_append_singleton _ h
  rw [hoffers]
  by_cases hwaits : k ∈ s.mailbox.waiting
  · simpa [offered, hwaits] using hq.once
  · -- It has not waited so far, and nothing of it has been accepted.
    have hfresh := hk.not_accepted h
    have hnew : k ∉ State.offers es := by
      rw [hq.offers, List.mem_append]
      exact fun hmem => hmem.elim hfresh hwaits
    simp only [offered, if_neg hwaits]
    rw [List.nodup_append]
    refine ⟨hq.once, by simp, fun a ha b hb hab => hnew ?_⟩
    rw [List.mem_singleton] at hb
    rwa [hab, hb] at ha

/-- A cycle offers its snapshot and it is accepted. If the slot was
reserved, then for this cycle, which was the first of those that wait;
if it was free, then nobody has waited. -/
theorem queueing_accepted (h : State.run? {} es = some s) (hq : Queueing es s)
    (hstep : s.step? (.deliver k) = some t) {c : Cycle} {snapshot : Snapshot}
    (hc : s.cycles[k]? = some c) (hp : c.phase = .delivering snapshot)
    (hroom : s.mailbox.hasRoomFor k = true)
    (ht : t.mailbox = { s.mailbox with slot := .full snapshot }) :
    Queueing (es ++ [.deliver k]) t := by
  have hoffers : State.offers (es ++ [.deliver k])
      = State.offers es ++ s.offered (.deliver k) := along_append_singleton _ h
  have haccepted : along step? accepted {} (es ++ [.deliver k])
      = along step? accepted {} es ++ [(k, snapshot)] := by
    rw [along_append_singleton _ h, accepted_deliver hc hp hroom]
  have hwaiting : t.mailbox.waiting = s.mailbox.senders := by
    rw [ht]
    rfl
  -- The slot was kept for this cycle, or it was free and nobody has waited for it.
  have hline : State.offers (es ++ [.deliver k])
      = (along step? accepted {} es).map (·.1) ++ k :: s.mailbox.senders := by
    rw [hoffers, hq.offers]
    cases hslot : s.mailbox.slot with
    | full _ => simp [Mailbox.hasRoomFor, hslot] at hroom
    | free => simp [offered, Mailbox.waiting, hslot, Slot.reservedFor?, hq.free hslot]
    | reserved j =>
      obtain rfl : j = k := by simpa [Mailbox.hasRoomFor, hslot] using hroom
      simp [offered, Mailbox.waiting, hslot, Slot.reservedFor?]
  have honce := hq.nodup_offers h ⟨c, snapshot, hc, hp⟩
  refine ⟨?_, ?_, honce, ?_⟩
  · intro hfree
    rw [ht] at hfree
    cases hfree
  · rw [hline, haccepted, hwaiting]
    simp
  · intro j hj
    rw [hwaiting] at hj
    have hne : k ≠ j := by
      rintro rfl
      rw [hline, List.nodup_append] at honce
      exact (List.nodup_cons.mp honce.2.1).1 hj
    refine (hq.waiting j (List.mem_append_right _ hj)).after hstep fun he => ?_
    cases he
    exact absurd rfl hne

/-- A cycle offers its snapshot in vain. It is put behind all that wait,
unless it waits already. -/
theorem queueing_awaited (h : State.run? {} es = some s) (hq : Queueing es s)
    (hstep : s.step? (.deliver k) = some t) {c : Cycle} {snapshot : Snapshot}
    (hc : s.cycles[k]? = some c) (hp : c.phase = .delivering snapshot)
    (hroom : s.mailbox.hasRoomFor k = false) (ht : t.mailbox = s.mailbox.await k) :
    Queueing (es ++ [.deliver k]) t := by
  have hslot : t.mailbox.slot = s.mailbox.slot := by rw [ht, Mailbox.slot_await]
  have hoffers : State.offers (es ++ [.deliver k])
      = State.offers es ++ s.offered (.deliver k) := along_append_singleton _ h
  have haccepted : along step? accepted {} (es ++ [.deliver k])
      = along step? accepted {} es := by
    rw [along_append_singleton _ h, accepted_deliver_eq_nil hroom, List.append_nil]
  -- It waits already exactly if it stands in the queue, as the slot is not kept for it.
  have hmem : k ∈ s.mailbox.waiting ↔ k ∈ s.mailbox.senders := by
    rw [Mailbox.mem_waiting]
    refine or_iff_right fun hres => ?_
    simp [Mailbox.hasRoomFor, hres] at hroom
  have hwaiting : t.mailbox.waiting = s.mailbox.waiting ++ s.offered (.deliver k) := by
    rw [ht, Mailbox.waiting_await]
    simp only [offered, hmem]
    split <;> simp
  refine ⟨?_, ?_, hq.nodup_offers h ⟨c, snapshot, hc, hp⟩, ?_⟩
  · intro hfree
    rw [hslot] at hfree
    simp [Mailbox.hasRoomFor, hfree] at hroom
  · rw [hoffers, haccepted, hwaiting, hq.offers, List.append_assoc]
  · intro j hj
    have hold : s.Holding j := by
      rw [hwaiting] at hj
      rcases List.mem_append.mp hj with hj | hj
      · exact hq.waiting j hj
      · obtain rfl := eq_of_mem_offered hj
        exact ⟨c, snapshot, hc, hp⟩
    refine hold.after hstep fun he => ?_
    cases he
    exact hroom

/-- An event that is no offer keeps the order of those who wait, if it
keeps the queue for the slot. -/
theorem queueing_quiet (h : State.run? {} es = some s) (hq : Queueing es s)
    (hstep : s.step? e = some t) (hdeliver : ∀ k, e ≠ .deliver k)
    (hwaiting : t.mailbox.waiting = s.mailbox.waiting)
    (hfree : t.mailbox.slot = .free → t.mailbox.senders = []) : Queueing (es ++ [e]) t := by
  have hoffers : State.offers (es ++ [e]) = State.offers es := by
    have happend := along_append_singleton offered h (e := e)
    rwa [offered_eq_nil s hdeliver, List.append_nil] at happend
  have haccepted : along step? accepted {} (es ++ [e]) = along step? accepted {} es := by
    rw [along_append_singleton _ h, accepted_eq_nil s hdeliver, List.append_nil]
  refine ⟨hfree, ?_, ?_, ?_⟩
  · rw [hoffers, haccepted, hwaiting, hq.offers]
  · rw [hoffers]
    exact hq.once
  · intro j hj
    rw [hwaiting] at hj
    exact (hq.waiting j hj).after hstep fun he => absurd he (hdeliver j)

/-- Cycles always stand in the queue in the order in which they have begun
to offer. By induction on the run, with the four cases of `SlotStep`. -/
theorem queueing (h : State.run? {} es = some t) : Queueing es t := by
  refine follow_induction (motive := Queueing) ?_ ?_ h
  -- A new monitor has a free slot, and nobody has offered anything.
  · refine ⟨fun _ => rfl, rfl, List.nodup_nil, fun k hk => ?_⟩
    cases hk
  intro es s e t hrun hq hstep
  cases slotStep_of_step? hstep with
  | accepted k c snapshot he hc hp hroom ht =>
    subst he
    exact queueing_accepted hrun hq hstep hc hp hroom ht
  | awaited k c snapshot he hc hp hroom ht =>
    subst he
    exact queueing_awaited hrun hq hstep hc hp hroom ht
  | taken snapshot he hslot ht =>
    subst he
    refine queueing_quiet hrun hq hstep (by simp) ?_ ?_
    · rw [ht, Mailbox.waiting_vacate (by rw [hslot]; rfl)]
    · -- The slot stays free only if nobody waits.
      intro hfree
      rw [ht] at hfree ⊢
      unfold Mailbox.vacate at hfree ⊢
      cases hsenders : s.mailbox.senders with
      | nil => rfl
      | cons next others => simp [hsenders] at hfree
  | other hdeliver htake hslot hsenders =>
    refine queueing_quiet hrun hq hstep hdeliver ?_ ?_
    · unfold Mailbox.waiting
      rw [hslot, hsenders]
    · rw [hslot, hsenders]
      exact hq.free

end State

end NpuAttribution.Poll
