import NpuAttribution.Proofs.Poll.Traffic

/-!
# `NpuAttribution.Proofs.Poll.Order`: the order in which snapshots are received

The owner receives snapshots in the order in which their cycles have begun to offer them
(`received_in_order_of_offers`). Cycles run side by side, so this need not be the order in
which they were started: a cycle that is slow to list or to inspect its containers can be
overtaken by one that was started after it (`not_received_in_order_of_starts`), and its
snapshot is then received when it is out of date. The two orders agree about a pair of
cycles if the first one has begun to offer its snapshot when the second one is started.

`Sourced` is the invariant behind this. The snapshot in the slot is that of the cycle whose
snapshot was accepted last, and everything accepted before has been received.
-/

set_option autoImplicit false

namespace NpuAttribution.Poll.State

variable {s t : State} {es : List Event} {e : Event} {k : Nat}

/-- Where snapshots come from, after the given events of a new monitor,
if `source` is the cycle whose snapshot was accepted last:

- `taken`: the receipts are what the owner has received;
- `full`: the snapshot in the slot is that of `source`, and all that was
  accepted before has been received;
- `empty`: if there is no snapshot in the slot then all that was
  accepted has been received. -/
structure Sourced (es : List Event) (t : State) (source : Option Nat) : Prop where
  taken : (receipts es).map (·.2) = along step? takenSnapshots {} es
  full : ∀ snapshot, t.mailbox.slot = .full snapshot →
    ∃ k, source = some k ∧ along step? accepted {} es = receipts es ++ [(k, snapshot)]
  empty : t.mailbox.slot.snapshot? = none → along step? accepted {} es = receipts es

/-- The owner receives a snapshot only by taking one. -/
theorem takenSnapshots_eq_nil (s : State) (h : e ≠ .takeSnapshot) : s.takenSnapshots e = [] := by
  cases e with
  | takeSnapshot => exact absurd rfl h
  | _ => rfl

/-- If no snapshot is received, then none is received from any cycle. -/
theorem takenWithSource_eq_nil (source : Option Nat) (h : s.takenSnapshots e = []) :
    takenWithSource (s, source) e = [] := by
  cases source <;> simp [takenWithSource, h]

/-- A slot with room for a snapshot has none in it, whether it is free
or reserved for this cycle. -/
theorem snapshot?_of_hasRoomFor (h : s.mailbox.hasRoomFor k = true) :
    s.mailbox.slot.snapshot? = none := by
  unfold Mailbox.hasRoomFor at h
  cases hslot : s.mailbox.slot with
  | free | reserved _ => rfl
  | full _ => simp [hslot] at h

/-- The slot is empty after its snapshot has been received, although it
may be reserved for the next cycle then. -/
theorem snapshot?_vacate (m : Mailbox) : m.vacate.slot.snapshot? = none := by
  unfold Mailbox.vacate
  cases m.senders <;> rfl

section

variable {source : Option Nat}

/-- What an event adds to the receipts. -/
theorem receipts_append (hfollow : follow stepWithSource? ({}, none) es = some (s, source))
    (e : Event) : receipts (es ++ [e]) = receipts es ++ takenWithSource (s, source) e :=
  along_append_singleton takenWithSource hfollow

/-- An event by which no snapshot is accepted or received leaves all as
it was: the slot and both of its histories. -/
theorem Sourced.quiet (hs : Sourced es s source) (hrun : State.run? {} es = some s)
    (hfollow : follow stepWithSource? ({}, none) es = some (s, source))
    (ha : s.accepted e = []) (ht : s.takenSnapshots e = [])
    (hslot : t.mailbox.slot = s.mailbox.slot) : Sourced (es ++ [e]) t source := by
  have haccepted : along step? accepted {} (es ++ [e]) = along step? accepted {} es := by
    rw [along_append_singleton accepted hrun, ha, List.append_nil]
  have htaken : along step? takenSnapshots {} (es ++ [e])
      = along step? takenSnapshots {} es := by
    rw [along_append_singleton takenSnapshots hrun, ht, List.append_nil]
  have hreceipts : receipts (es ++ [e]) = receipts es := by
    rw [receipts_append hfollow, takenWithSource_eq_nil source ht, List.append_nil]
  refine ⟨?_, ?_, ?_⟩
  · rw [hreceipts, htaken, hs.taken]
  · intro snapshot hfull
    rw [hslot] at hfull
    obtain ⟨k, hsource, hk⟩ := hs.full snapshot hfull
    exact ⟨k, hsource, by rw [haccepted, hreceipts, hk]⟩
  · intro hempty
    rw [hslot] at hempty
    rw [haccepted, hreceipts, hs.empty hempty]

/-- A snapshot that is accepted becomes the one in the slot. There was
room, so all that was accepted before this has been received. -/
theorem Sourced.accept {snapshot : Snapshot} (hs : Sourced es s source)
    (hrun : State.run? {} es = some s)
    (hfollow : follow stepWithSource? ({}, none) es = some (s, source))
    (ha : s.accepted (.deliver k) = [(k, snapshot)]) (hroom : s.mailbox.hasRoomFor k = true)
    (hslot : t.mailbox.slot = .full snapshot) : Sourced (es ++ [.deliver k]) t (some k) := by
  have hnone : s.takenSnapshots (.deliver k) = [] := rfl
  have haccepted : along step? accepted {} (es ++ [.deliver k])
      = receipts es ++ [(k, snapshot)] := by
    rw [along_append_singleton accepted hrun, ha, hs.empty (snapshot?_of_hasRoomFor hroom)]
  have htaken : along step? takenSnapshots {} (es ++ [.deliver k])
      = along step? takenSnapshots {} es := by
    rw [along_append_singleton takenSnapshots hrun, hnone, List.append_nil]
  have hreceipts : receipts (es ++ [.deliver k]) = receipts es := by
    rw [receipts_append hfollow, takenWithSource_eq_nil source hnone, List.append_nil]
  refine ⟨?_, ?_, ?_⟩
  · rw [hreceipts, htaken, hs.taken]
  · intro snapshot' hfull
    rw [hslot] at hfull
    cases hfull
    exact ⟨k, rfl, by rw [haccepted, hreceipts]⟩
  · intro hempty
    rw [hslot] at hempty
    cases hempty

/-- The snapshot that is received is the one in the slot, and with it
all that was accepted has been received. -/
theorem Sourced.take {snapshot : Snapshot} (hs : Sourced es s source)
    (hrun : State.run? {} es = some s)
    (hfollow : follow stepWithSource? ({}, none) es = some (s, source))
    (hfull : s.mailbox.slot = .full snapshot) (hslot : t.mailbox.slot.snapshot? = none) :
    Sourced (es ++ [.takeSnapshot]) t source := by
  obtain ⟨k, rfl, hk⟩ := hs.full snapshot hfull
  have hone : s.takenSnapshots .takeSnapshot = [snapshot] := by
    simp [takenSnapshots, hfull, Slot.snapshot?]
  have hlast : takenWithSource (s, some k) .takeSnapshot = [(k, snapshot)] := by
    simp [takenWithSource, hone]
  have haccepted : along step? accepted {} (es ++ [.takeSnapshot])
      = receipts es ++ [(k, snapshot)] := by
    rw [along_append_singleton accepted hrun, hk]
    exact List.append_nil _
  have htaken : along step? takenSnapshots {} (es ++ [.takeSnapshot])
      = along step? takenSnapshots {} es ++ [snapshot] := by
    rw [along_append_singleton takenSnapshots hrun, hone]
  have hreceipts : receipts (es ++ [.takeSnapshot]) = receipts es ++ [(k, snapshot)] := by
    rw [receipts_append hfollow, hlast]
  refine ⟨?_, ?_, ?_⟩
  · rw [hreceipts, htaken, ← hs.taken]
    simp
  · intro snapshot' hfull'
    rw [hfull'] at hslot
    cases hslot
  · intro _
    rw [haccepted, hreceipts]

end

/-- It is always known where snapshots come from. By induction on the
run; by `slotStep_of_step?` an event puts a snapshot into the slot,
takes one out of it, or does not concern the slot. -/
theorem sourced (h : State.run? {} es = some t) :
    ∃ source, follow stepWithSource? ({}, none) es = some (t, source) ∧ Sourced es t source := by
  refine follow_induction (motive := fun es t =>
    ∃ source, follow stepWithSource? ({}, none) es = some (t, source) ∧ Sourced es t source)
    ?_ ?_ h
  · exact ⟨none, rfl, rfl, nofun, fun _ => rfl⟩
  intro es s e t hrun ⟨source, hfollow, hs⟩ hstep
  refine ⟨((s.accepted e).head?.map (·.1)).or source, ?_, ?_⟩
  · rw [follow_append_singleton, hfollow, Option.bind_some, stepWithSource?, hstep]
    rfl
  cases slotStep_of_step? hstep with
  | accepted k c snapshot he hc hp hroom ht =>
    subst he
    have ha := accepted_deliver hc hp hroom
    rw [ha]
    exact hs.accept hrun hfollow ha hroom (by rw [ht])
  | awaited k c snapshot he hc hp hroom ht =>
    subst he
    have ha := accepted_deliver_eq_nil hroom
    rw [ha]
    exact hs.quiet hrun hfollow ha rfl (by rw [ht, Mailbox.slot_await])
  | taken snapshot he hslot ht =>
    subst he
    exact hs.take hrun hfollow hslot (by rw [ht]; exact snapshot?_vacate s.mailbox)
  | other hdeliver htake hslot hsenders =>
    have ha := accepted_eq_nil s hdeliver
    rw [ha]
    exact hs.quiet hrun hfollow ha (takenSnapshots_eq_nil s htake) hslot

/-- What has been accepted has been received, or is in the slot, which
holds one snapshot at most. -/
theorem accepted_eq (h : State.run? {} es = some t) :
    ∃ slot, along step? accepted {} es = receipts es ++ slot ∧
      slot.map (·.2) = t.mailbox.slot.snapshot?.toList := by
  obtain ⟨source, -, hs⟩ := sourced h
  cases hslot : t.mailbox.slot with
  | full snapshot =>
    obtain ⟨k, -, hk⟩ := hs.full snapshot hslot
    exact ⟨_, hk, rfl⟩
  | free | reserved _ =>
    exact ⟨[], by rw [hs.empty (by rw [hslot]; rfl), List.append_nil], rfl⟩

/-- The cycles whose snapshots are received are the first to have begun
to offer theirs, in this order. The rest of the offers are the snapshot
in the slot and those that wait for room. -/
theorem prefix_offers (h : State.run? {} es = some t) :
    (receipts es).map (·.1) <+: offers es := by
  obtain ⟨slot, hslot, -⟩ := accepted_eq h
  rw [(queueing h).offers, hslot, List.map_append, List.append_assoc]
  exact List.prefix_append _ _

/-- A cycle that offers a snapshot has been started. -/
theorem lt_of_mem_offers (h : State.run? {} es = some t) (hk : k ∈ offers es) :
    k < t.cycles.length := by
  revert hk
  refine follow_induction (motive := fun es t => k ∈ offers es → k < t.cycles.length) ?_ ?_ h
  · intro hk
    cases hk
  intro es s e t hrun ih hstep hk
  have hle := length_cycles_le hstep
  have hoffers : offers (es ++ [e]) = offers es ++ s.offered e := along_append_singleton _ hrun
  rw [hoffers] at hk
  rcases List.mem_append.mp hk with hold | hnew
  · have hlt := ih hold
    omega
  · cases e with
    | deliver j =>
      obtain ⟨c, -, -, hc, -⟩ := deliver?_eq_some hstep
      obtain rfl := eq_of_mem_offered hnew
      have hlt := (List.getElem?_eq_some_iff.mp hc).1
      omega
    | _ => cases hnew

/-- With a cycle is received the one snapshot that it hands over: the
receipt is among the snapshots that were accepted from it, and a cycle
hands over one at most. -/
theorem observe_delivered_of_receipt (h : State.run? {} es = some t) {snapshot : Snapshot}
    (hmem : (k, snapshot) ∈ receipts es) :
    ({} : State).observe k Cycle.delivered es = [snapshot] := by
  have hseen : snapshot ∈ ({} : State).observe k Cycle.delivered es := by
    obtain ⟨slot, hslot, -⟩ := accepted_eq h
    rw [mem_observe_delivered, hslot]
    exact List.mem_append_left _ hmem
  obtain ⟨c, hc⟩ : ∃ c, t.cycles[k]? = some c := by
    have hoffered : k ∈ offers es := (prefix_offers h).subset (List.mem_map_of_mem hmem)
    exact ⟨_, List.getElem?_eq_getElem (lt_of_mem_offers h hoffered)⟩
  obtain ⟨limit, hrun, hobserve⟩ := run?_stepsOf h (Nat.zero_le k) hc
  have hle := Cycle.length_delivered_le hrun
  rw [← hobserve] at hle
  -- It hands over one snapshot at most, and this is one.
  have hpos := List.length_pos_of_mem hseen
  have hone : (({} : State).observe k Cycle.delivered es).length = 1 := by omega
  obtain ⟨only, honly⟩ := List.length_eq_one_iff.mp hone
  rw [honly, List.mem_singleton] at hseen
  rw [honly, hseen]

/-- The snapshots that the owner of a new monitor receives are in order:

- `received`: the receipts are what the owner receives;
- `own`: with each cycle stands the one snapshot that it hands over;
- `once`: no cycle begins twice to offer its snapshot;
- `inOrder`: the cycles whose snapshots are received are the first to
  have offered theirs, in this order;
- `pairs`: of two cycles whose snapshots are received, the one that was
  the first to offer is the first to be received;
- `later`: a cycle that has begun to offer when another one is started
  is received first;
- `last`: when nothing waits to be received, the last snapshot received
  is that of the last cycle to have begun to offer. -/
structure InOrder (es : List Event) (t : State) : Prop where
  received : (receipts es).map (·.2) = along step? takenSnapshots {} es
  own : ∀ k snapshot, (k, snapshot) ∈ receipts es →
    ({} : State).observe k Cycle.delivered es = [snapshot]
  once : (offers es).Nodup
  inOrder : (receipts es).map (·.1) <+: offers es
  pairs : ∀ i j, i ∈ (receipts es).map (·.1) → j ∈ (receipts es).map (·.1) →
    ([i, j].Sublist ((receipts es).map (·.1)) ↔ [i, j].Sublist (offers es))
  later : ∀ before after u i j, es = before ++ after → State.run? {} before = some u →
    i ∈ offers before → u.cycles.length ≤ j → j ∈ (receipts es).map (·.1) →
    [i, j].Sublist ((receipts es).map (·.1))
  last : t.mailbox.slot = .free → ((receipts es).map (·.1)).getLast? = (offers es).getLast?

/-- A pair in a list without repetition stands in a first part of it
that has its second element. The two orders are compared with this: the
receipts are a first part of the offers. -/
theorem sublist_of_prefix {l m : List Nat} (hm : m.Nodup) (hl : l <+: m) {i j : Nat}
    (hj : j ∈ l) (hij : [i, j].Sublist m) : [i, j].Sublist l := by
  obtain ⟨rest, rfl⟩ := hl
  obtain ⟨first, second, hsplit, hfirst, hsecond⟩ := List.sublist_append_iff.mp hij
  -- The second element is not in the rest, so nothing of the pair is.
  have hnone : second = [] := by
    by_contra hne
    have hlast : j ∈ second := by
      have hget := congrArg List.getLast? hsplit
      rw [List.getLast?_append_of_ne_nil _ hne] at hget
      exact List.mem_of_getLast? hget.symm
    exact (List.nodup_append.mp hm).2.2 j hj j (hsecond.subset hlast) rfl
  rw [hnone, List.append_nil] at hsplit
  rwa [hsplit]

/-- Snapshots are received in the order in which their cycles have begun
to offer them, whatever the cycles do and in whatever order they were
started. The slot passes snapshots on in the order in which they are
accepted (`sourced`), and room is given to cycles in the order in which
they have asked for it (`queueing`). -/
theorem received_in_order_of_offers (h : State.run? {} es = some t) : InOrder es t := by
  obtain ⟨source, -, hs⟩ := sourced h
  have hq := queueing h
  have hprefix := prefix_offers h
  refine ⟨hs.taken, fun k snapshot => observe_delivered_of_receipt h, hq.once, hprefix,
    ?_, ?_, ?_⟩
  · intro i j _ hj
    exact ⟨fun hij => hij.trans hprefix.sublist, sublist_of_prefix hq.once hprefix hj⟩
  · intro before after u i j hes hu hi hlength hj
    have hoffers : offers es = offers before ++ along step? offered u after := by
      rw [hes]
      exact along_append _ hu
    -- A cycle that is started later offers its snapshot later.
    have hnot : j ∉ offers before := by
      intro hmem
      have hlt := lt_of_mem_offers hu hmem
      omega
    have hafter : j ∈ along step? offered u after := by
      have hmem := hprefix.subset hj
      rw [hoffers] at hmem
      exact (List.mem_append.mp hmem).resolve_left hnot
    refine sublist_of_prefix hq.once hprefix hj ?_
    rw [hoffers]
    exact (List.singleton_sublist.mpr hi).append (List.singleton_sublist.mpr hafter)
  · intro hfree
    have hnobody : t.mailbox.waiting = [] := by
      simp [Mailbox.waiting, hfree, Slot.reservedFor?, hq.free hfree]
    rw [hq.offers, hnobody, List.append_nil, hs.empty (by rw [hfree]; rfl)]

/-- The first of two cycles still inspects its container when the second
one, which is started later, has found nothing to inspect and is received. -/
def overtaken : List Event :=
  [.start 5, .move 0 (.listed (.ok [Cycle.containerA])), .spawn 0, .move 0 .collect,
    .start 5, .move 1 (.listed (.ok [])), .deliver 1, .takeSnapshot, .move 1 .finish,
    .move 0 (.ask 0), .move 0 (.begin 0), .move 0 (.conclude 0 (.assigned "pod" [3])),
    .move 0 (.release 0), .move 0 (.report 0), .move 0 .receive, .deliver 0, .takeSnapshot,
    .move 0 (.join 0), .move 0 .finish]

/-- Both cycles end, and the last snapshot received is that of the one
started first, although it is older than the other one. -/
theorem receipts_overtaken :
    ∃ t, State.run? {} overtaken = some t ∧ (∀ c ∈ t.cycles, c.phase = .done) ∧
      receipts overtaken = [(1, .empty),
        (0, Snapshot.add .empty ⟨Cycle.containerA.id, "pod", [3]⟩)] := by
  have hrun : (State.run? {} overtaken).any fun t => t.cycles.all fun c => c.phase = .done := by
    decide +kernel
  obtain ⟨t, ht, hdone⟩ := (Option.any_eq_true _ _).mp hrun
  refine ⟨t, ht, ?_, by decide +kernel⟩
  simpa using hdone

/-- The second cycle is the first to offer its snapshot, and is received first. -/
theorem received_in_order_of_offers_overtaken :
    ∃ t, State.run? {} overtaken = some t ∧ offers overtaken = [1, 0] ∧
      (receipts overtaken).map (·.1) = [1, 0] ∧ InOrder overtaken t := by
  obtain ⟨t, ht, -, hreceipts⟩ := receipts_overtaken
  refine ⟨t, ht, by decide +kernel, ?_, received_in_order_of_offers ht⟩
  rw [hreceipts]
  rfl

/-- It is not true that of two cycles that have ended and whose
snapshots are received, the one that was started first is the first to
be received: a cycle that is slow is overtaken. -/
theorem not_received_in_order_of_starts :
    ¬ ∀ es t, State.run? {} es = some t → (∀ c ∈ t.cycles, c.phase = .done) →
      ∀ i j, i < j → i ∈ (receipts es).map (·.1) → j ∈ (receipts es).map (·.1) →
        [i, j].Sublist ((receipts es).map (·.1)) := by
  intro h
  obtain ⟨t, ht, hdone, hreceipts⟩ := receipts_overtaken
  have hpair := h overtaken t ht hdone 0 1 (by decide) (by simp [hreceipts])
    (by simp [hreceipts])
  rw [hreceipts] at hpair
  exact absurd hpair (by decide)

end NpuAttribution.Poll.State
