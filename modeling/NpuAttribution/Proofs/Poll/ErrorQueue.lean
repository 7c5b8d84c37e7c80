import NpuAttribution.Poll.Traffic
import NpuAttribution.Proofs.Poll.Endings

/-!
# `NpuAttribution.Proofs.Poll.ErrorQueue`: errors are queued or dropped

Errors that cycles report wait in one queue. It is full with 64 of them, and what is
reported then is dropped, which the journal is told. `ErrorStep` lists what an event can do
to the queue. From it follow the invariants of the queue along a run (`errorsQueued`): it
never holds more than 64 errors, the owner receives them in the order of the reports, and
every error that is reported is in the queue or in the journal, but not in both.

Events of the owner and of other parties report nothing, and the journal may be told other
things by cycles, but none at the level of errors (`level_of_lines`).
-/

set_option autoImplicit false

namespace NpuAttribution.Poll

/-- A cycle tells the journal nothing at the level of errors by itself:
the lines that it writes are warnings, so a line at the level of errors
is one about an error that was dropped. -/
theorem Cycle.level_of_lines {c c' : Cycle} {m : Move} {effect : Effect}
    (h : c.move? m = some (c', effect)) : ∀ l ∈ effect.lines, l.level ≠ .error := by
  intro l hl
  cases effects_of_move? h with
  | nothing heffect | error _ _ heffect =>
    rw [heffect] at hl
    cases hl
  | warning l' hwarn heffect =>
    rw [heffect, List.mem_singleton] at hl
    rw [hl, hwarn]
    simp

namespace State

variable {s t u v : State} {es : List Event} {e : Event} {k : Nat}

/-- What an event can do to the queue of errors:

- `quiet`: nothing;
- `queued`: an error is reported and put into the queue;
- `dropped`: an error is reported when the queue is full, and the
  journal is told;
- `taken`: the oldest error is received. -/
inductive ErrorStep (s : State) (e : Event) (t : State) : Prop
  | quiet (htake : e ≠ .takeError) (hreported : s.reported e = [])
    (hcomplaints : s.complaints e = []) (hqueued : s.queued e = [])
    (herrors : t.mailbox.errors = s.mailbox.errors)
  | queued (err : MonitorError) (htake : e ≠ .takeError) (hreported : s.reported e = [err])
    (hcomplaints : s.complaints e = []) (hqueued : s.queued e = [err])
    (hroom : s.mailbox.errors.length < Mailbox.errorCapacity)
    (herrors : t.mailbox.errors = s.mailbox.errors ++ [err])
  | dropped (err : MonitorError) (htake : e ≠ .takeError) (hreported : s.reported e = [err])
    (hcomplaints : s.complaints e = [Mailbox.droppedLine err]) (hqueued : s.queued e = [])
    (hfull : Mailbox.errorCapacity ≤ s.mailbox.errors.length)
    (herrors : t.mailbox.errors = s.mailbox.errors)
  | taken (err : MonitorError) (he : e = .takeError)
    (herrors : s.mailbox.errors = err :: t.mailbox.errors)

/-- An event that is neither a move nor the receipt of an error leaves
the queue alone, if it leaves the errors in the mailbox as they are. -/
theorem errorStep_quiet (hmove : ∀ k m, e ≠ .move k m) (htake : e ≠ .takeError)
    (herrors : t.mailbox.errors = s.mailbox.errors) : ErrorStep s e t := by
  cases e with
  | move k m => exact absurd rfl (hmove k m)
  | _ => exact .quiet htake rfl rfl rfl herrors

/-- A move reports nothing, or an error that is queued or dropped. The
two cases are told apart by the room in the queue, and the journal gains
a line in the second one only. -/
theorem errorStep_move {m : Move} (h : s.step? (.move k m) = some t) :
    ErrorStep s (.move k m) t := by
  obtain ⟨c, c', effect, hc, hm, ht⟩ := move?_eq_some h
  have hreported : s.reported (.move k m) = effect.error.toList := by
    simp [reported, watch, hc, stepOf?, Cycle.errors, hm]
  have hlines : effect.lines.filter (fun l => l.level = .error) = [] := by
    rw [List.filter_eq_nil_iff]
    intro l hl
    simpa using Cycle.level_of_lines hm l hl
  -- What is queued and what the journal is told are read off the state after the
  -- move.
  have hqueued : s.queued (.move k m)
      = t.mailbox.errors.drop s.mailbox.errors.length := by
    simp only [queued, h]
  have hcomplaints : s.complaints (.move k m)
      = (t.journal.drop s.journal.length).filter fun l => l.level = .error := by
    simp only [complaints, h]
  cases he : effect.error with
  | none =>
    have herrors : t.mailbox.errors = s.mailbox.errors := by
      rw [ht]
      simp [suffer, report, he, write, setCycle]
    have hjournal : t.journal = s.journal ++ effect.lines := by
      rw [ht]
      simp [suffer, report, he, write, setCycle]
    refine .quiet (by simp) (by rw [hreported, he]; rfl) ?_ ?_ herrors
    · rw [hcomplaints, hjournal, List.drop_left, hlines]
    · rw [hqueued, herrors, List.drop_length]
  | some err =>
    rw [he] at hreported
    -- The error is all the effect that the move has.
    have hnone := Cycle.lines_of_error hm he
    by_cases hroom : s.mailbox.errors.length < Mailbox.errorCapacity
    · have herrors : t.mailbox.errors = s.mailbox.errors ++ [err] := by
        rw [ht]
        simp [suffer, report, he, Mailbox.report, hroom, write, setCycle]
      have hjournal : t.journal = s.journal := by
        rw [ht]
        simp [suffer, report, he, hnone, Mailbox.report, hroom, write, setCycle]
      refine .queued err (by simp) hreported ?_ ?_ hroom herrors
      · rw [hcomplaints, hjournal, List.drop_length]
        rfl
      · rw [hqueued, herrors, List.drop_left]
    · have herrors : t.mailbox.errors = s.mailbox.errors := by
        rw [ht]
        simp [suffer, report, he, Mailbox.report, hroom, write, setCycle]
      have hjournal : t.journal = s.journal ++ [Mailbox.droppedLine err] := by
        rw [ht]
        simp [suffer, report, he, hnone, Mailbox.report, hroom, write, setCycle]
      refine .dropped err (by simp) hreported ?_ ?_ (Nat.le_of_not_lt hroom) herrors
      · rw [hcomplaints, hjournal, List.drop_left]
        rfl
      · rw [hqueued, herrors, List.drop_length]

/-- Every event does one of the four things to the queue of errors.
What follows in this module is by these four cases, and does not look
at the events again. -/
theorem errorStep_of_step? (h : s.step? e = some t) : ErrorStep s e t := by
  cases e with
  | move k m => exact errorStep_move h
  | takeError =>
    obtain ⟨err, errors, herrors, rfl⟩ := takeError_eq_some h
    exact .taken err rfl herrors
  | spawn k =>
    obtain ⟨c, c', -, -, rfl⟩ := spawn?_eq_some h
    exact errorStep_quiet (by simp) (by simp) rfl
  | deliver k =>
    obtain ⟨c, snapshot, c', -, -, ht⟩ := deliver?_eq_some h
    refine errorStep_quiet (by simp) (by simp) ?_
    split at ht
    · rw [ht]
    · rw [ht]
      exact Mailbox.errors_await s.mailbox k
  | takeSnapshot =>
    obtain ⟨snapshot, -, rfl⟩ := takeSnapshot_eq_some h
    exact errorStep_quiet (by simp) (by simp) (Mailbox.errors_vacate s.mailbox)
  | start | note | takeJournal | elsewhere =>
    cases h
    exact errorStep_quiet (by simp) (by simp) rfl

/-- What becomes of the error that is reported in an event, if there is
one: it is put into the queue and nothing is said about it, or the queue
is full, and the journal is told once that the error is dropped. -/
def Settled (u : State) (e : Event) : Prop :=
  (u.reported e).length ≤ 1 ∧
  ((u.queued e = u.reported e ∧ u.complaints e = []) ∨
    (u.mailbox.errors.length = Mailbox.errorCapacity ∧ u.queued e = [] ∧
      u.complaints e = (u.reported e).map Mailbox.droppedLine))

/-- The queue of errors after a run:

- `bounded`: there are 64 errors in it at most;
- `inOrder`: the owner receives what was in it and what has been put into
  it, in this order, and the rest is still in it;
- `settled`: every error that is reported is either queued or dropped;
- `split`: so all errors that are reported are those queued and those
  dropped, and about each of the latter there is one line in the journal. -/
structure ErrorsQueued (s : State) (es : List Event) (t : State) : Prop where
  bounded : t.mailbox.errors.length ≤ Mailbox.errorCapacity
  inOrder : s.mailbox.errors ++ along step? queued s es
    = along step? takenErrors s es ++ t.mailbox.errors
  settled : ∀ e u v, Occurs step? s es e u v → Settled u e
  split : ∃ dropped, (along step? reported s es).Perm (along step? queued s es ++ dropped) ∧
    along step? complaints s es = dropped.map Mailbox.droppedLine

/-- The queue never holds too many errors: something is put into it only
if there is room. -/
theorem length_errors_le (h : s.run? es = some t)
    (hroom : s.mailbox.errors.length ≤ Mailbox.errorCapacity) :
    t.mailbox.errors.length ≤ Mailbox.errorCapacity := by
  refine follow_induction
    (motive := fun _ t => t.mailbox.errors.length ≤ Mailbox.errorCapacity) hroom ?_ h
  intro es u e v _ ih hstep
  cases errorStep_of_step? hstep with
  | quiet _ _ _ _ herrors | dropped _ _ _ _ _ _ herrors => rwa [herrors]
  | queued err _ _ _ _ hroom herrors =>
    rw [herrors, List.length_append, List.length_singleton]
    omega
  | taken err _ herrors =>
    rw [herrors, List.length_cons] at ih
    omega

/-- What was in the queue and what is put into it is received in this
order. By induction on the run: an error is put in at the end and taken
out at the front. -/
theorem takenErrors_append (h : s.run? es = some t) :
    s.mailbox.errors ++ along step? queued s es
      = along step? takenErrors s es ++ t.mailbox.errors := by
  refine follow_induction (motive := fun es t =>
    s.mailbox.errors ++ along step? queued s es
      = along step? takenErrors s es ++ t.mailbox.errors) (List.append_nil _) ?_ h
  intro es u e v hrun ih hstep
  rw [along_append_singleton _ hrun, along_append_singleton _ hrun, ← List.append_assoc, ih]
  have hnone (htake : e ≠ .takeError) : u.takenErrors e = [] := by
    cases e with
    | takeError => exact absurd rfl htake
    | _ => rfl
  cases errorStep_of_step? hstep with
  | quiet htake _ _ hqueued herrors | dropped _ htake _ _ hqueued _ herrors =>
    rw [hqueued, hnone htake, herrors, List.append_nil, List.append_nil]
  | queued err htake _ _ hqueued _ herrors =>
    rw [hqueued, hnone htake, herrors, List.append_nil, List.append_assoc]
  | taken err he herrors =>
    subst he
    have htaken : u.takenErrors .takeError = [err] := by simp [takenErrors, herrors]
    have hqueued : u.queued .takeError = [] := rfl
    rw [hqueued, htaken, herrors, List.append_nil, List.append_assoc]
    rfl

/-- What is reported in an event is queued or dropped. If it is
dropped, then the queue is full, and not just too small, as it never
holds too many errors. -/
theorem settled (hroom : u.mailbox.errors.length ≤ Mailbox.errorCapacity)
    (hstep : u.step? e = some v) : Settled u e := by
  cases errorStep_of_step? hstep with
  | quiet _ hreported hcomplaints hqueued _ =>
    exact ⟨by simp [hreported], .inl ⟨by rw [hqueued, hreported], hcomplaints⟩⟩
  | queued err _ hreported hcomplaints hqueued _ _ =>
    exact ⟨by simp [hreported], .inl ⟨by rw [hqueued, hreported], hcomplaints⟩⟩
  | dropped err _ hreported hcomplaints hqueued hfull _ =>
    exact ⟨by simp [hreported], .inr ⟨by omega, hqueued, by rw [hcomplaints, hreported]; rfl⟩⟩
  | taken err he _ =>
    subst he
    exact ⟨Nat.zero_le 1, .inl ⟨rfl, rfl⟩⟩

/-- The errors that are reported are those that are queued and those
that are dropped, and the lines about errors are those about the dropped
ones, in the order of the reports. -/
theorem reported_perm (h : s.run? es = some t) :
    ∃ dropped, (along step? reported s es).Perm (along step? queued s es ++ dropped) ∧
      along step? complaints s es = dropped.map Mailbox.droppedLine := by
  refine follow_induction (motive := fun es _ =>
    ∃ dropped, (along step? reported s es).Perm (along step? queued s es ++ dropped) ∧
      along step? complaints s es = dropped.map Mailbox.droppedLine) ⟨[], .refl _, rfl⟩ ?_ h
  intro es u e v hrun ⟨dropped, hperm, hlines⟩ hstep
  rw [along_append_singleton _ hrun, along_append_singleton _ hrun, along_append_singleton _ hrun,
    hlines]
  -- What is dropped is put behind what was dropped before.
  cases errorStep_of_step? hstep with
  | quiet _ hreported hcomplaints hqueued _ =>
    rw [hreported, hcomplaints, hqueued]
    exact ⟨dropped, by simpa using hperm, by simp⟩
  | queued err _ hreported hcomplaints hqueued _ _ =>
    rw [hreported, hcomplaints, hqueued]
    refine ⟨dropped, (hperm.append_right [err]).trans ?_, by simp⟩
    rw [List.append_assoc, List.append_assoc]
    exact List.perm_append_comm.append_left _
  | dropped err _ hreported hcomplaints hqueued _ _ =>
    rw [hreported, hcomplaints, hqueued]
    refine ⟨dropped ++ [err], ?_, by simp⟩
    rw [List.append_nil, ← List.append_assoc]
    exact hperm.append_right [err]
  | taken err he _ =>
    subst he
    exact ⟨dropped, by simpa [reported, queued] using hperm, by simp [complaints]⟩

/-- The queue of errors is always in order: it is bounded, it is first
in, first out, and every error that is reported is either in it or
known to be dropped. -/
theorem errorsQueued (h : s.run? es = some t)
    (hroom : s.mailbox.errors.length ≤ Mailbox.errorCapacity) : ErrorsQueued s es t := by
  refine ⟨length_errors_le h hroom, takenErrors_append h, ?_, reported_perm h⟩
  intro e u v ⟨before, after, _, hu, hstep⟩
  exact settled (length_errors_le hu hroom) hstep

end State

end NpuAttribution.Poll
