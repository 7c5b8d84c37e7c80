import NpuAttribution.Runtime.Client

/-!
# `NpuAttribution.Proofs.Runtime.Connections`: what connecting comes to

Connecting tries one endpoint after the other, and what it comes to depends only on which of
them can be reached. `connected_of_connect` says this without reference to the order of
attempts: either both roles have an endpoint that can be reached, and then the first ones
make the pair, or one of them has none, and then there is no pair at all.
-/

set_option autoImplicit false

namespace NpuAttribution

namespace Host

/-- An endpoint leads to a socket. -/
def Reaches (h : Host) (e : Endpoint) (socket : Socket) : Prop :=
  e.path.utf8ByteSize < pathBound ∧ h.socketAt? e.path = some socket

/-- None of the endpoints leads to a socket. -/
def ReachesNone (h : Host) (es : List Endpoint) : Prop :=
  ∀ e ∈ es, ∀ socket, ¬ h.Reaches e socket

/-- The first endpoint that leads to a socket leads to this one. -/
def FirstReaches (h : Host) (es : List Endpoint) (socket : Socket) : Prop :=
  ∃ before e after, es = before ++ e :: after ∧ h.ReachesNone before ∧ h.Reaches e socket

section

variable {h : Host} {e : Endpoint} {es : List Endpoint} {socket other : Socket}

/-- Dialling an endpoint succeeds if and only if it leads to a socket.
The length of its path is a condition too, since a longer one does not
fit into an address. -/
theorem dial_eq_some_iff : (h.dial e).1 = some socket ↔ h.Reaches e socket := by
  unfold dial Reaches
  -- A path that is too long is not even tried.
  by_cases hshort : e.path.utf8ByteSize < pathBound
  · simp [hshort]
  · simp [hshort]

/-- Dialling an endpoint fails if and only if it leads to no socket. -/
theorem dial_eq_none_iff : (h.dial e).1 = none ↔ ∀ socket, ¬ h.Reaches e socket := by
  rw [Option.eq_none_iff_forall_ne_some]
  exact forall_congr' fun socket => not_congr dial_eq_some_iff

/-- The first of some endpoints, if it leads to a socket. -/
theorem firstReaches_cons_of_reaches (hreaches : h.Reaches e socket) :
    h.FirstReaches (e :: es) socket :=
  ⟨[], e, es, rfl, nofun, hreaches⟩

/-- An endpoint that leads nowhere makes no difference to which one is
the first. -/
theorem firstReaches_cons_of_not (hnot : ∀ socket, ¬ h.Reaches e socket) :
    h.FirstReaches (e :: es) socket ↔ h.FirstReaches es socket := by
  constructor
  · rintro ⟨before, f, after, hes, hnone, hreaches⟩
    -- The endpoint in front is not the one that leads to the socket.
    cases before with
    | nil =>
      obtain ⟨rfl, -⟩ := List.cons.inj hes
      exact absurd hreaches (hnot socket)
    | cons d before =>
      obtain ⟨rfl, rfl⟩ := List.cons.inj hes
      exact ⟨before, f, after, rfl, fun d hd => hnone d (List.mem_cons_of_mem _ hd), hreaches⟩
  · rintro ⟨before, f, after, rfl, hnone, hreaches⟩
    exact ⟨e :: before, f, after, rfl, List.forall_mem_cons.mpr ⟨hnot, hnone⟩, hreaches⟩

/-- There is only one socket to which the first endpoint leads. The
induction is on the endpoints, and what decides is whether the one in
front leads anywhere. -/
theorem FirstReaches.unique (hs : h.FirstReaches es socket) (ho : h.FirstReaches es other) :
    socket = other := by
  induction es with
  | nil =>
    obtain ⟨before, e, after, hes, -⟩ := hs
    simp at hes
  | cons e es ih =>
    by_cases hreaches : ∃ s, h.Reaches e s
    · -- Both must be the socket of the endpoint in front.
      have hfront (s : Socket) (hs : h.FirstReaches (e :: es) s) : h.Reaches e s := by
        obtain ⟨before, f, after, hes, hnone, hf⟩ := hs
        cases before with
        | nil =>
          obtain ⟨rfl, -⟩ := List.cons.inj hes
          exact hf
        | cons d before =>
          obtain ⟨rfl, -⟩ := List.cons.inj hes
          obtain ⟨s', hs'⟩ := hreaches
          exact absurd hs' (hnone e List.mem_cons_self s')
      have hsame := (hfront socket hs).2.symm.trans (hfront other ho).2
      exact Option.some.inj hsame
    -- The endpoint in front leads nowhere, so both are found behind it.
    · have hnot : ∀ s, ¬ h.Reaches e s := fun s hs => hreaches ⟨s, hs⟩
      rw [firstReaches_cons_of_not hnot] at hs ho
      exact ih hs ho

/-- If none of the endpoints leads to a socket then there is no
first one that does. -/
theorem ReachesNone.not_first (hnone : h.ReachesNone es) : ¬ h.FirstReaches es socket := by
  rintro ⟨before, e, after, rfl, -, hreaches⟩
  exact hnone e (by simp) socket hreaches

end

end Host

/-- The connections that have been made. -/
def Trace.made (t : Trace) : List Attempt := t.attempts.filter (·.reached)

namespace ConnectionPair

/-- Connecting leads to this pair:

- `first`: the first CRI endpoint that can be reached leads to its one
  side;
- `shared`: if both roles have the same endpoints then both sides are
  the same;
- `apart`: otherwise the first runtime endpoint that can be reached
  leads to its other side. -/
structure Connects (host : Host) (cri runtime : List Endpoint) (pair : ConnectionPair) :
    Prop where
  first : host.FirstReaches cri pair.cri
  shared : Endpoint.sameList cri runtime = true → pair.runtime = pair.cri
  apart : Endpoint.sameList cri runtime = false → host.FirstReaches runtime pair.runtime

/-- What connecting comes to, in which one connection is made for two
roles that have the same endpoints, and in which nothing is asked:

- `connected`: the pair, made of one connection or of two;
- `noCri`: no CRI endpoint can be reached;
- `noRuntime`: one can, but no endpoint of the runtime, which has
  endpoints of its own. -/
inductive Connected (host : Host) (cri runtime : List Endpoint) :
    Except RuntimeError ConnectionPair × Trace → Prop
  | connected (pair : ConnectionPair) (trace : Trace) (hpair : Connects host cri runtime pair)
    (hmade : trace.made.length = if Endpoint.sameList cri runtime then 1 else 2)
    (hrequests : trace.requests = []) : Connected host cri runtime (.ok pair, trace)
  | noCri (trace : Trace) (hcri : host.ReachesNone cri) (hmade : trace.made = [])
    (hrequests : trace.requests = []) :
    Connected host cri runtime
      (.error (if cri.isEmpty then .noEndpoint .cri else .connect .cri cri), trace)
  | noRuntime (socket : Socket) (trace : Trace) (hcri : host.FirstReaches cri socket)
    (hsame : Endpoint.sameList cri runtime = false) (hruntime : host.ReachesNone runtime)
    (hrequests : trace.requests = []) :
    Connected host cri runtime
      (.error (if runtime.isEmpty then .noEndpoint .runtime else .connect .runtime runtime), trace)

section

variable {host : Host} {role : Role} {cri runtime es : List Endpoint}

/-- There is only one pair to which connecting leads. -/
theorem Connects.unique {pair other : ConnectionPair} (h : Connects host cri runtime pair)
    (h' : Connects host cri runtime other) : pair = other := by
  have hcri := h.first.unique h'.first
  have hruntime : pair.runtime = other.runtime := by
    cases hsame : Endpoint.sameList cri runtime with
    | true => rw [h.shared hsame, h'.shared hsame, hcri]
    | false => exact (h.apart hsame).unique (h'.apart hsame)
  cases pair
  cases other
  simp_all

/-- An attempt is a connection if it reaches a socket, and one dialling
makes one at most. -/
theorem made_dial (host : Host) (e : Endpoint) :
    ((host.dial e).2.filter (·.reached)).length = (host.dial e).1.toList.length := by
  unfold Host.dial
  by_cases hshort : e.path.utf8ByteSize < Host.pathBound
  · simp only [hshort, if_true]
    cases host.socketAt? e.path <;> rfl
  · simp [hshort]

/-- Trying endpoints leads to the socket of the first one that can be reached. -/
theorem firstReachable_eq_some_iff {socket : Socket} :
    (firstReachable host role es).1 = some socket ↔ host.FirstReaches es socket := by
  -- By induction on the endpoints, in the order in which they are tried.
  induction es with
  | nil =>
    constructor
    · nofun
    · rintro ⟨before, e, after, hes, -⟩
      simp at hes
  | cons e es ih =>
    unfold firstReachable
    split
    · rename_i found attempts hdial
      have hreaches : host.Reaches e found := Host.dial_eq_some_iff.mp (by rw [hdial])
      constructor
      · intro heq
        cases heq
        exact Host.firstReaches_cons_of_reaches hreaches
      · intro hfirst
        exact congrArg some ((Host.firstReaches_cons_of_reaches hreaches).unique hfirst)
    · rename_i attempts hdial
      have hnot := Host.dial_eq_none_iff.mp (congrArg Prod.fst hdial)
      rw [Host.firstReaches_cons_of_not hnot]
      exact ih

/-- Trying endpoints fails if and only if none can be reached. -/
theorem firstReachable_eq_none_iff :
    (firstReachable host role es).1 = none ↔ host.ReachesNone es := by
  constructor
  · intro hnone
    induction es with
    | nil => nofun
    | cons e es ih =>
      unfold firstReachable at hnone
      split at hnone
      · cases hnone
      · rename_i attempts hdial
        exact List.forall_mem_cons.mpr
          ⟨Host.dial_eq_none_iff.mp (congrArg Prod.fst hdial), ih hnone⟩
  · intro hnone
    rw [Option.eq_none_iff_forall_ne_some]
    intro socket hsome
    exact hnone.not_first (firstReachable_eq_some_iff.mp hsome)

/-- Trying endpoints makes at most one connection, and only in the end. -/
theorem made_firstReachable (host : Host) (role : Role) (es : List Endpoint) :
    (firstReachable host role es).2.made.length
      = (firstReachable host role es).1.toList.length := by
  induction es with
  | nil => rfl
  | cons e es ih =>
    have hmade := made_dial host e
    unfold firstReachable
    split
    · rename_i found attempts hdial
      rw [hdial] at hmade
      exact hmade
    · rename_i attempts hdial
      rw [hdial] at hmade
      -- An attempt that fails makes no connection, the rest is tried as if it had not been.
      have hnone : attempts.filter (·.reached) = [] := List.length_eq_zero_iff.mp hmade
      show ((attempts ++ (firstReachable host role es).2.attempts).filter _).length = _
      rw [List.filter_append, hnone]
      exact ih

/-- Trying endpoints asks nothing. Requests go over connections,
which are made first. -/
theorem requests_firstReachable (host : Host) (role : Role) (es : List Endpoint) :
    (firstReachable host role es).2.requests = [] := by
  induction es with
  | nil => rfl
  | cons e es ih =>
    unfold firstReachable
    split
    · rfl
    · exact ih

/-- What connecting in one role comes to: a socket, over one
connection, or an error without any. An empty list of endpoints has an
error of its own. -/
theorem connectAny_cases (host : Host) (role : Role) (es : List Endpoint) :
    (∃ socket trace, connectAny host role es = (.ok socket, trace) ∧ host.FirstReaches es socket ∧
      trace.made.length = 1 ∧ trace.requests = []) ∨
    (∃ trace, connectAny host role es
        = (.error (if es.isEmpty then .noEndpoint role else .connect role es), trace) ∧
      host.ReachesNone es ∧ trace.made = [] ∧ trace.requests = []) := by
  have hmade := made_firstReachable host role es
  have hrequests := requests_firstReachable host role es
  unfold connectAny
  split
  · rename_i socket trace hfirst
    rw [hfirst] at hmade hrequests
    exact .inl ⟨socket, trace, rfl, firstReachable_eq_some_iff.mp (congrArg Prod.fst hfirst), hmade,
      hrequests⟩
  · rename_i trace hfirst
    rw [hfirst] at hmade hrequests
    exact .inr ⟨trace, rfl, firstReachable_eq_none_iff.mp (congrArg Prod.fst hfirst),
      List.length_eq_zero_iff.mp hmade, hrequests⟩

/-- What connecting comes to. The CRI endpoints are tried first, and
then those of the runtime unless they are the same; each outcome is
one of `Connected`. -/
theorem connected_of_connect (host : Host) (cri runtime : List Endpoint) :
    Connected host cri runtime (connect host cri runtime) := by
  unfold connect
  rcases connectAny_cases host .cri cri with
    ⟨socket, trace, heq, hfirst, hmade, hrequests⟩ | ⟨trace, heq, hnone, hmade, hrequests⟩
  · rw [heq]
    simp only
    -- With the same endpoints for both roles, the one connection serves both.
    by_cases hsame : Endpoint.sameList cri runtime = true
    · rw [if_pos hsame]
      refine .connected ⟨socket, socket⟩ trace ⟨hfirst, fun _ => rfl, ?_⟩ ?_ hrequests
      · intro hother
        rw [hsame] at hother
        cases hother
      · rw [hmade, if_pos hsame]
    · rw [if_neg hsame]
      have hsame := Bool.eq_false_iff.mpr hsame
      rcases connectAny_cases host .runtime runtime with
        ⟨other, more, heq', hfirst', hmade', hrequests'⟩ | ⟨more, heq', hnone, hmade', hrequests'⟩
      · rw [heq']
        refine .connected ⟨socket, other⟩ (trace ++ more) ⟨hfirst, ?_, fun _ => hfirst'⟩ ?_ ?_
        · intro hother
          rw [hsame] at hother
          cases hother
        · show ((trace.attempts ++ more.attempts).filter _).length = _
          unfold Trace.made at hmade hmade'
          rw [List.filter_append, List.length_append, hmade, hmade', hsame]
          rfl
        · show trace.requests ++ more.requests = []
          rw [hrequests, hrequests']
          rfl
      · rw [heq']
        -- The connection that has been made for the CRI is dropped.
        refine .noRuntime socket (trace ++ more) hfirst hsame hnone ?_
        show trace.requests ++ more.requests = []
        rw [hrequests, hrequests']
        rfl
  · rw [heq]
    exact .noCri trace hnone hmade hrequests

end

end ConnectionPair

end NpuAttribution
