import Mathlib.Data.List.Induction
import NpuAttribution.Poll.Run

/-!
# `NpuAttribution.Proofs.Poll.Runs`: runs step by step

What `follow` and `along` do with one more step at the end, an induction principle made of
this, and the passage from a run of the monitor to the steps of one of its cycles.

`run?_stepsOf` is the passage: if a cycle is started in a run, then the steps that it
makes in the run lead from a new cycle to what the cycle is in the end, and they show what
is seen of the cycle in the run. Other cycles do not occur in it any more, so whatever
holds after all steps of a cycle by itself holds in all runs.
-/

set_option autoImplicit false

namespace NpuAttribution.Poll

section

variable {σ ε α : Type} {step : σ → ε → Option σ}

/-- No steps lead nowhere else. -/
@[simp] theorem follow_nil (s : σ) : follow step s [] = some s := rfl

/-- One more step at the end of a sequence is made from where the
sequence leads. -/
theorem follow_append_singleton (s : σ) (es : List ε) (e : ε) :
    follow step s (es ++ [e]) = (follow step s es).bind fun t => step t e := by
  unfold follow
  rw [List.foldlM_append]
  cases es.foldlM step s with
  | none => rfl
  | some t => simp

/-- What is seen along two sequences, one after the other, is seen along
the first and then along the second one, from where the first one leads. -/
theorem along_append (see : σ → ε → List α) {s t : σ} {es fs : List ε}
    (h : follow step s es = some t) :
    along step see s (es ++ fs) = along step see s es ++ along step see t fs := by
  -- By induction on the first sequence, as `along` looks at its front.
  induction es generalizing s with
  | nil =>
    cases h
    rfl
  | cons x es ih =>
    unfold follow at h
    rw [List.foldlM_cons] at h
    cases hs : step s x with
    | none => simp [hs] at h
    | some u =>
      rw [hs] at h
      simp [along, hs, ih h]

/-- What is seen in one more step at the end of a sequence comes last. -/
theorem along_append_singleton (see : σ → ε → List α) {s t : σ} {es : List ε} {e : ε}
    (h : follow step s es = some t) :
    along step see s (es ++ [e]) = along step see s es ++ see t e := by
  rw [along_append see h]
  cases ht : step t e <;> simp [along, ht]

/-- A property of sequences and of what they lead to holds if it holds
at the start and every step keeps it. All invariants of runs are proved
by this, and their step lemmas are what `keep` asks for. -/
theorem follow_induction {motive : List ε → σ → Prop} {s : σ} (start : motive [] s)
    (keep : ∀ es t e u, follow step s es = some t → motive es t → step t e = some u →
      motive (es ++ [e]) u) :
    ∀ {es : List ε} {t : σ}, follow step s es = some t → motive es t := by
  intro es
  -- A run grows at its end, so the induction takes the last step off.
  induction es using List.reverseRecOn with
  | nil =>
    intro t h
    cases h
    exact start
  | append_singleton es e ih =>
    intro u h
    rw [follow_append_singleton, Option.bind_eq_some_iff] at h
    obtain ⟨t, ht, hu⟩ := h
    exact keep es t e u ht (ih ht) hu

variable {see : σ → ε → List α} {s t u v : σ} {es : List ε} {e : ε} {a : α}

/-- A step that occurs before another one is added still does. -/
theorem Occurs.append_singleton (h : Occurs step s es e u v) (e' : ε) :
    Occurs step s (es ++ [e']) e u v := by
  obtain ⟨before, after, rfl, hu, hv⟩ := h
  exact ⟨before, after ++ [e'], by simp, hu, hv⟩

/-- All steps of a sequence occur in it, each between two states of the run. -/
theorem occurs_of_mem (h : follow step s es = some t) (he : e ∈ es) :
    ∃ u v, Occurs step s es e u v := by
  -- An old step still occurs, and the new one occurs at the end.
  revert he
  refine follow_induction (motive := fun es _ => e ∈ es → ∃ u v, Occurs step s es e u v) ?_ ?_ h
  · intro he
    cases he
  · intro es t e' u ht ih hu he
    rcases List.mem_append.mp he with hold | hnew
    · obtain ⟨u', v', hoccurs⟩ := ih hold
      exact ⟨u', v', hoccurs.append_singleton e'⟩
    · obtain rfl := List.mem_singleton.mp hnew
      exact ⟨t, u, es, [], rfl, ht, hu⟩

/-- What is seen along a sequence is seen in a step that occurs in it. -/
theorem occurs_of_mem_along (h : follow step s es = some t) (ha : a ∈ along step see s es) :
    ∃ e u v, Occurs step s es e u v ∧ a ∈ see u e := by
  revert ha
  refine follow_induction (motive := fun es _ =>
    a ∈ along step see s es → ∃ e u v, Occurs step s es e u v ∧ a ∈ see u e) ?_ ?_ h
  · intro ha
    cases ha
  · intro es t e u ht ih hu ha
    rw [along_append_singleton see ht] at ha
    rcases List.mem_append.mp ha with hold | hnew
    · obtain ⟨e', u', v', hoccurs, ha'⟩ := ih hold
      exact ⟨e', u', v', hoccurs.append_singleton e, ha'⟩
    · exact ⟨e, t, u, ⟨es, [], rfl, ht, hu⟩, hnew⟩

/-- What is seen in a step that occurs in a sequence is seen along the
sequence. -/
theorem mem_along_of_occurs (h : Occurs step s es e u v) (ha : a ∈ see u e) :
    a ∈ along step see s es := by
  obtain ⟨before, after, rfl, hu, -⟩ := h
  rw [along_append see hu]
  exact List.mem_append_right _ (List.mem_append_left _ ha)

end

namespace State

/-- What an event can do to the cycles: start one, let one of them make
a step, or nothing. -/
inductive Changes (s : State) (e : Event) : List Cycle → Prop
  | started (limit : Nat) (none_steps : ∀ j, s.stepOf? j e = none) :
    Changes s e (s.cycles ++ [{ limit := limit }])
  | stepped (k : Nat) (c c' : Cycle) (x : Step) (current : s.cycles[k]? = some c)
    (only : ∀ j, s.stepOf? j e = if j = k then some x else none) (step : c.step? x = some c') :
    Changes s e (s.cycles.set k c')
  | unchanged (none_steps : ∀ j, s.stepOf? j e = none) : Changes s e s.cycles

/-- A possible move of a cycle, with its effect on the monitor: the cycle
changes, and then the monitor reports the error and tells the journal. -/
theorem move?_eq_some {s t : State} {k : Nat} {m : Move} (h : s.move? k m = some t) :
    ∃ c c' effect, s.cycles[k]? = some c ∧ c.move? m = some (c', effect) ∧
      t = (s.setCycle k c').suffer effect := by
  simp only [move?, Option.bind_eq_bind, Option.bind_eq_some_iff, Option.pure_def,
    Option.some.injEq, Prod.exists] at h
  obtain ⟨c, hc, c', effect, hm, rfl⟩ := h
  exact ⟨c, c', effect, hc, hm, rfl⟩

/-- The two things that can come of an offer: the snapshot is put into
the slot, or the cycle waits for the slot. -/
theorem deliver?_eq_some {s t : State} {k : Nat} (h : s.deliver? k = some t) :
    ∃ c snapshot c', s.cycles[k]? = some c ∧ c.handOver? = some (snapshot, c') ∧
      if s.mailbox.hasRoomFor k then
        t = { s.setCycle k c' with mailbox := { s.mailbox with slot := .full snapshot } }
      else t = { s with mailbox := s.mailbox.await k } := by
  simp only [deliver?, Option.bind_eq_bind, Option.bind_eq_some_iff, Option.pure_def,
    Option.some.injEq, Prod.exists] at h
  obtain ⟨c, hc, snapshot, c', hs, rfl⟩ := h
  refine ⟨c, snapshot, c', hc, hs, ?_⟩
  cases hr : s.mailbox.hasRoomFor k <;> simp [Mailbox.offer, hr]

/-- A possible dispatch of a worker, which takes the next number of a task. -/
theorem spawn?_eq_some {s t : State} {k : Nat} (h : s.spawn? k = some t) :
    ∃ c c', s.cycles[k]? = some c ∧ c.spawn? s.tasks = some c' ∧
      t = { s.setCycle k c' with tasks := s.tasks + 1 } := by
  simp only [spawn?, Option.bind_eq_bind, Option.bind_eq_some_iff, Option.pure_def,
    Option.some.injEq] at h
  obtain ⟨c, hc, c', hs, rfl⟩ := h
  exact ⟨c, c', hc, hs, rfl⟩

/-- The owner receives the snapshot in the slot, which is vacated. -/
theorem takeSnapshot_eq_some {s t : State} (h : s.step? .takeSnapshot = some t) :
    ∃ snapshot, s.mailbox.slot = .full snapshot ∧ t = { s with mailbox := s.mailbox.vacate } := by
  simp only [step?, Option.bind_eq_bind, Option.bind_eq_some_iff, Option.pure_def,
    Option.some.injEq, Prod.exists] at h
  obtain ⟨snapshot, m, hm, rfl⟩ := h
  unfold Mailbox.takeSnapshot? at hm
  split at hm
  · rename_i hslot
    cases hm
    exact ⟨_, hslot, rfl⟩
  · cases hm

/-- The owner receives the oldest error, and the others remain. -/
theorem takeError_eq_some {s t : State} (h : s.step? .takeError = some t) :
    ∃ e errors, s.mailbox.errors = e :: errors ∧
      t = { s with mailbox := { s.mailbox with errors } } := by
  simp only [step?, Option.bind_eq_bind, Option.bind_eq_some_iff, Option.pure_def,
    Option.some.injEq, Prod.exists] at h
  obtain ⟨e, m, hm, rfl⟩ := h
  unfold Mailbox.takeError? at hm
  split at hm
  · rename_i herrors
    cases hm
    exact ⟨_, _, herrors, rfl⟩
  · cases hm

/-- Every event changes the cycles in one of the three ways: a new cycle
is started, one cycle makes one step, or nothing changes. This is where
an event of the monitor becomes a step of a cycle. -/
theorem changes_of_step? {s t : State} {e : Event} (h : s.step? e = some t) :
    Changes s e t.cycles := by
  cases e with
  | start limit =>
    cases h
    exact .started limit fun j => rfl
  | spawn k =>
    obtain ⟨c, c', hc, hs, rfl⟩ := spawn?_eq_some h
    refine .stepped k c c' (.spawn s.tasks) hc (fun j => ?_) hs
    simp [stepOf?, eq_comm]
  | move k m =>
    obtain ⟨c, c', effect, hc, hm, rfl⟩ := move?_eq_some h
    rw [cycles_suffer]
    refine .stepped k c c' (.move m) hc (fun j => ?_) (by simp [Cycle.step?, hm])
    simp [stepOf?, eq_comm]
  | deliver k =>
    obtain ⟨c, snapshot, c', hc, hs, ht⟩ := deliver?_eq_some h
    -- An offer is a step of the cycle only if the mailbox takes the snapshot.
    by_cases hr : s.mailbox.hasRoomFor k = true
    · rw [if_pos hr] at ht
      subst ht
      refine .stepped k c c' .handOver hc (fun j => ?_) (by simp [Cycle.step?, hs])
      by_cases hj : k = j
      · subst hj
        simp [stepOf?, hr]
      · simp [stepOf?, hj, Ne.symm hj]
    · rw [if_neg hr] at ht
      subst ht
      refine .unchanged fun j => ?_
      simp only [stepOf?]
      rw [if_neg]
      rintro ⟨rfl, hj⟩
      exact hr hj
  | takeSnapshot =>
    obtain ⟨_, -, rfl⟩ := takeSnapshot_eq_some h
    exact .unchanged fun j => rfl
  | takeError =>
    obtain ⟨_, _, -, rfl⟩ := takeError_eq_some h
    exact .unchanged fun j => rfl
  | note | takeJournal | elsewhere =>
    cases h
    exact .unchanged fun j => rfl

/-- A cycle before an event and after it: it has just been started, or
the event is not about it, or it has made the step that the event is.
Conversely to `changes_of_step?`, this is told from what the cycle is
after the event. -/
theorem cycle_before {s t : State} {e : Event} (h : s.step? e = some t) {k : Nat} {c' : Cycle}
    (hc' : t.cycles[k]? = some c') :
    (s.cycles[k]? = none ∧ ∃ limit, c' = { limit := limit }) ∨
    (s.cycles[k]? = some c' ∧ s.stepOf? k e = none) ∨
    ∃ c x, s.cycles[k]? = some c ∧ s.stepOf? k e = some x ∧ c.step? x = some c' := by
  have hchanges := changes_of_step? h
  -- Which cycles there are after the event is all that matters about its result.
  generalize t.cycles = cycles at hchanges hc'
  cases hchanges with
  | started limit hnone =>
    rw [List.getElem?_append] at hc'
    split at hc'
    · exact .inr (.inl ⟨hc', hnone k⟩)
    · rename_i hlt
      refine .inl ⟨by simpa using hlt, limit, ?_⟩
      rw [List.getElem?_singleton] at hc'
      split at hc'
      · exact (Option.some.inj hc').symm
      · simp at hc'
  | stepped j c d x hcur honly hstep =>
    by_cases hj : k = j
    · subst hj
      have hlt := (List.getElem?_eq_some_iff.mp hcur).1
      rw [List.getElem?_set_self hlt] at hc'
      cases hc'
      exact .inr (.inr ⟨c, x, hcur, by simp [honly], hstep⟩)
    · rw [List.getElem?_set_ne (Ne.symm hj)] at hc'
      exact .inr (.inl ⟨hc', by simp [honly, hj]⟩)
  | unchanged hnone => exact .inr (.inl ⟨hc', hnone k⟩)

/-- No cycle ceases to exist. -/
theorem length_cycles_le {s t : State} {e : Event} (h : s.step? e = some t) :
    s.cycles.length ≤ t.cycles.length := by
  have hchanges := changes_of_step? h
  generalize t.cycles = cycles at hchanges
  cases hchanges <;> simp

/-- A cycle that is started in a run makes the steps that it is seen to
make, and nothing else happens to it. The same steps show whatever can
be seen of it. By this all that is proved of cycles on their own holds
for each of the cycles in a run. -/
theorem run?_stepsOf {s t : State} {es : List Event} (h : s.run? es = some t) {k : Nat}
    (hk : s.cycles.length ≤ k) {c : Cycle} (hc : t.cycles[k]? = some c) :
    ∃ limit, Cycle.run? { limit := limit } (s.stepsOf k es) = some c ∧
      ∀ {α : Type} (see : Cycle → Step → List α),
        s.observe k see es = along Cycle.step? see { limit := limit } (s.stepsOf k es) := by
  -- Before the start of the cycle nothing is seen of it.
  suffices hrun : ∀ {es t}, follow step? s es = some t →
      (t.cycles[k]? = none → ∀ {α : Type} (see : Cycle → Step → List α),
        s.observe k see es = []) ∧
      ∀ c, t.cycles[k]? = some c →
        ∃ limit, follow Cycle.step? { limit := limit } (s.stepsOf k es) = some c ∧
          ∀ {α : Type} (see : Cycle → Step → List α),
            s.observe k see es = along Cycle.step? see { limit := limit } (s.stepsOf k es) from
    (hrun h).2 c hc
  apply follow_induction
  · refine ⟨fun _ _ _ => rfl, fun c hc => ?_⟩
    rw [List.getElem?_eq_none hk] at hc
    cases hc
  · intro es t e u ht ih hu
    have hsee {α : Type} (see : Cycle → Step → List α) :
        s.observe k see (es ++ [e]) = s.observe k see es ++ watch k see t e :=
      along_append_singleton _ ht
    constructor
    -- A cycle that is not there after the event was not there before it.
    · intro hnone α see
      have hold : t.cycles[k]? = none := by
        rw [List.getElem?_eq_none_iff] at hnone ⊢
        exact Nat.le_trans (length_cycles_le hu) hnone
      rw [hsee, ih.1 hold, watch, hold]
      rfl
    · intro c' hc'
      rcases cycle_before hu hc' with ⟨hold, limit, rfl⟩ | ⟨hold, hno⟩ | ⟨c, x, hold, hx, hstep⟩
      -- The cycle has just been started.
      · refine ⟨limit, ?_, fun see => ?_⟩
        · simp [stepsOf, hsee, ih.1 hold, watch, hold]
        · simp [stepsOf, hsee, ih.1 hold, watch, hold, along]
      -- The event is not about this cycle.
      · obtain ⟨limit, hfollow, hobs⟩ := ih.2 c' hold
        have hwatch {α : Type} (see : Cycle → Step → List α) : watch k see t e = [] := by
          simp [watch, hold, hno]
        have hsteps : s.stepsOf k (es ++ [e]) = s.stepsOf k es := by
          simp [stepsOf, hsee, hwatch]
        refine ⟨limit, by rw [hsteps]; exact hfollow, fun see => ?_⟩
        rw [hsee, hwatch, hsteps, List.append_nil]
        exact hobs see
      -- The event is a step of this cycle, and it is the last one.
      · obtain ⟨limit, hfollow, hobs⟩ := ih.2 c hold
        have hwatch {α : Type} (see : Cycle → Step → List α) : watch k see t e = see c x := by
          simp [watch, hold, hx]
        have hsteps : s.stepsOf k (es ++ [e]) = s.stepsOf k es ++ [x] := by
          simp [stepsOf, hsee, hwatch]
        refine ⟨limit, ?_, fun see => ?_⟩
        · rw [hsteps, follow_append_singleton, hfollow]
          exact hstep
        · rw [hsee, hwatch, hsteps, along_append_singleton see hfollow, hobs see]

/-- The moves of a cycle are among its steps. -/
theorem mem_stepsOf_of_move {s t : State} {es : List Event} (h : s.run? es = some t) {k : Nat}
    {m : Move} (hm : .move k m ∈ es) : .move m ∈ s.stepsOf k es := by
  obtain ⟨u, v, hoccurs⟩ := occurs_of_mem h hm
  refine mem_along_of_occurs hoccurs ?_
  obtain ⟨before, after, -, -, hv⟩ := hoccurs
  obtain ⟨c, -, -, hc, -⟩ := move?_eq_some hv
  simp [watch, hc, stepOf?]

/-- What is seen of a cycle is seen in one of its steps. -/
theorem mem_watch {α : Type} {s : State} {k : Nat} {see : Cycle → Step → List α} {e : Event}
    {a : α} (h : a ∈ watch k see s e) :
    ∃ c x, s.cycles[k]? = some c ∧ s.stepOf? k e = some x ∧ a ∈ see c x := by
  unfold watch at h
  split at h
  · rename_i c x hc hx
    exact ⟨c, x, hc, hx, h⟩
  · cases h

/-- A step that is an event is the move of the event, a dispatch or a delivery. -/
theorem event_of_stepOf? {s : State} {k : Nat} {e : Event} {x : Step}
    (h : s.stepOf? k e = some x) :
    (e = .spawn k ∧ x = .spawn s.tasks) ∨ (∃ m, e = .move k m ∧ x = .move m) ∨
    (e = .deliver k ∧ x = .handOver ∧ s.mailbox.hasRoomFor k = true) := by
  cases e with
  | start | takeSnapshot | takeError | note | takeJournal | elsewhere => cases h
  | spawn j | move j m | deliver j =>
    simp only [stepOf?, Option.ite_none_right_eq_some, Option.some.injEq] at h
    grind

/-- Among the steps of a cycle there are no moves but those of the run,
and no workers are dropped. -/
theorem mem_of_mem_stepsOf {s t : State} {es : List Event} (h : s.run? es = some t) {k : Nat}
    {x : Step} (hx : x ∈ s.stepsOf k es) :
    x.drops = false ∧ ∀ m, x = .move m → .move k m ∈ es := by
  obtain ⟨e, u, v, ⟨before, after, rfl, -, -⟩, hmem⟩ := occurs_of_mem_along h hx
  obtain ⟨c, y, -, hstep, hy⟩ := mem_watch hmem
  obtain rfl := List.mem_singleton.mp hy
  rcases event_of_stepOf? hstep with ⟨-, rfl⟩ | ⟨m, rfl, rfl⟩ | ⟨-, rfl, -⟩
  · exact ⟨rfl, nofun⟩
  · refine ⟨rfl, fun m' hm => ?_⟩
    cases hm
    simp
  · exact ⟨rfl, nofun⟩

end State

end NpuAttribution.Poll
