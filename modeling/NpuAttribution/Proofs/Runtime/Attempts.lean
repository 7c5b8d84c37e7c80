import NpuAttribution.Proofs.Runtime.Connections

/-!
# `NpuAttribution.Proofs.Runtime.Attempts`: which endpoints are tried

The endpoints of a role are tried one after the other until one of them is reached. `Tries` says
which ones have been tried then, and what this has left behind: an attempt at each of them and,
if it has failed, a line in the journal. Either the last one that has been tried is the first one
that can be reached, or none can be reached and all of them have been tried.

`connect_tries` puts this together for both roles. The endpoints of the runtime are tried after
those for the CRI, and it may be that they are not tried at all.
-/

set_option autoImplicit false

namespace NpuAttribution

/-- One thing for the one role, and one for the other. -/
def Role.pick {α : Type} (cri runtime : α) : Role → α
  | .cri => cri
  | .runtime => runtime

/-- Nothing is added by a trace in which nothing has happened. -/
theorem Trace.append_empty (t : Trace) : t ++ Trace.empty = t := by
  show Trace.mk (t.attempts ++ []) (t.requests ++ []) (t.lines ++ []) = t
  simp only [List.append_nil]

/-- What has happened is added up in the order in which it has happened. -/
theorem Trace.append_assoc (a b c : Trace) : a ++ b ++ c = a ++ (b ++ c) := by
  show Trace.mk (_ ++ _ ++ _) (_ ++ _ ++ _) (_ ++ _ ++ _) = _
  simp only [List.append_assoc]
  rfl

namespace ConnectionPair

/-- What is left behind by endpoints that have been tried in vain: an
attempt at each of them, except that there is none at a path of 108
bytes or more, and a line in the journal for each. -/
def inVain (role : Role) (es : List Endpoint) : Trace :=
  { attempts := (es.filter fun e => e.path.utf8ByteSize < 108).map fun e => ⟨e, false⟩
    lines := es.map (unreachable role) }

/-- Endpoints of a role have been tried in their order, and this is left
behind:

- `untried`: none has been tried;
- `reached`: the first one that can be reached has been tried after all
  those in front of it;
- `exhausted`: none can be reached, and all have been tried. -/
inductive Tries (host : Host) (role : Role) (es : List Endpoint) : List Endpoint → Trace → Prop
  | untried : Tries host role es [] .empty
  | reached (failed : List Endpoint) (e : Endpoint) (after : List Endpoint) (socket : Socket)
    (hes : es = failed ++ e :: after) (hfailed : host.ReachesNone failed)
    (hreaches : host.Reaches e socket) :
    Tries host role es (failed ++ [e]) (inVain role failed ++ { attempts := [⟨e, true⟩] })
  | exhausted (hnone : host.ReachesNone es) : Tries host role es es (inVain role es)

/-- Endpoints of both roles have been tried, with this result, and this
is left behind:

- `traced`: first the endpoints for the CRI are tried, and then those of
  the runtime;
- `cri`: there is an endpoint for the CRI that has been tried;
- `runtime`: an endpoint of the runtime has been tried as well, unless
  nothing has been reached before or both roles have the same endpoints;
- `failed`: the result is an error if and only if in one of the roles
  all endpoints have been tried in vain, and then it names the role and
  these endpoints. -/
structure TriesEndpoints {α : Type} (host : Host) (es : Role → List Endpoint)
    (result : Except RuntimeError α) (trace : Trace) (tried : Role → List Endpoint) : Prop where
  traced : ∃ part : Role → Trace, trace = part .cri ++ part .runtime ∧
    ∀ role, Tries host role (es role) (tried role) (part role)
  cri : tried .cri ≠ []
  runtime : tried .runtime = [] ↔
    host.ReachesNone (es .cri) ∨ Endpoint.sameList (es .cri) (es .runtime) = true
  failed : ∀ e, result = .error e ↔ ∃ role, e = .connect role (es role) ∧
    tried role = es role ∧ host.ReachesNone (es role)

section

variable {host : Host} {role : Role} {tried : List Endpoint} {trace : Trace}

/-! ### One role -/

/-- What has been tried is what comes first among the endpoints. -/
theorem Tries.isPrefix {es : List Endpoint} (h : Tries host role es tried trace) :
    tried <+: es := by
  cases h with
  | untried => exact List.nil_prefix
  | reached failed e after _ hes =>
    exact ⟨after, by rw [hes, List.append_assoc, List.singleton_append]⟩
  | exhausted => exact List.prefix_refl _

/-- If none can be reached, and something has been tried, then all
have been tried. The last one that has been tried would otherwise
have been reached. -/
theorem Tries.eq_of_reachesNone {es : List Endpoint} (h : Tries host role es tried trace)
    (hsome : tried ≠ []) (hnone : host.ReachesNone es) : tried = es := by
  cases h with
  | untried => exact absurd rfl hsome
  | reached failed e after socket hes _ hreaches =>
    exact absurd hreaches (hnone e (by simp [hes]) socket)
  | exhausted => rfl

/-- What is left behind by endpoints is added up, one endpoint after the other. -/
theorem inVain_append (role : Role) (es es' : List Endpoint) :
    inVain role (es ++ es') = inVain role es ++ inVain role es' := by
  unfold inVain
  rw [List.filter_append, List.map_append, List.map_append]
  rfl

/-- What dialling an endpoint comes to. It leads to a socket, or it
leaves behind what an endpoint does that is tried in vain. -/
theorem dial_cases (host : Host) (e : Endpoint) :
    (∃ socket, host.Reaches e socket ∧ host.dial e = (some socket, [⟨e, true⟩])) ∨
      (∀ socket, ¬ host.Reaches e socket) ∧
        ∀ role, host.dial e = (none, (inVain role [e]).attempts) := by
  unfold Host.dial Host.Reaches inVain
  by_cases hshort : e.path.utf8ByteSize < Host.pathBound
  · have hfits : e.path.utf8ByteSize < 108 := hshort
    cases host.socketAt? e.path with
    | none => exact .inr ⟨nofun, fun role => by simp [hshort, hfits]⟩
    | some socket => exact .inl ⟨socket, ⟨hshort, rfl⟩, by simp [hshort]⟩
  · have hlong : ¬ e.path.utf8ByteSize < 108 := hshort
    exact .inr ⟨fun _ h => hshort h.1, fun role => by simp [hshort, hlong]⟩

/-- What trying endpoints comes to, with all that it leaves behind. The
induction is on the endpoints, and what is left behind by the one in
front comes first. -/
theorem firstReachable_cases (host : Host) (role : Role) (es : List Endpoint) :
    (∃ failed e after socket, es = failed ++ e :: after ∧ host.ReachesNone failed ∧
      host.Reaches e socket ∧ firstReachable host role es =
        (some socket, inVain role failed ++ { attempts := [⟨e, true⟩] })) ∨
      host.ReachesNone es ∧ firstReachable host role es = (none, inVain role es) := by
  induction es with
  | nil => exact .inr ⟨nofun, rfl⟩
  | cons e es ih =>
    unfold firstReachable
    rcases dial_cases host e with ⟨socket, hreaches, hdial⟩ | ⟨hnot, hdial⟩
    · rw [hdial]
      exact .inl ⟨[], e, es, socket, rfl, nofun, hreaches, rfl⟩
    · -- The endpoint in front has been tried in vain, whatever comes of the others.
      rw [hdial role]
      rcases ih with ⟨failed, f, after, socket, rfl, hfailed, hreaches, hrest⟩ | ⟨hnone, hrest⟩
      · refine .inl ⟨e :: failed, f, after, socket, rfl,
          List.forall_mem_cons.mpr ⟨hnot, hfailed⟩, hreaches, ?_⟩
        rw [hrest]
        show (some socket, inVain role [e] ++ (inVain role failed ++ _)) = _
        rw [← Trace.append_assoc, ← inVain_append, List.singleton_append]
      · refine .inr ⟨List.forall_mem_cons.mpr ⟨hnot, hnone⟩, ?_⟩
        rw [hrest]
        show (none, inVain role [e] ++ inVain role es) = _
        rw [← inVain_append, List.singleton_append]

/-- Connecting to a role tries its endpoints. It fails if and only
if none can be reached. An empty list would be an error of its own,
and is excluded. -/
theorem connectAny_tries (host : Host) (role : Role) {es : List Endpoint} (hne : es ≠ []) :
    ∃ tried, Tries host role es tried (connectAny host role es).2 ∧ tried ≠ [] ∧
      ∀ e, (connectAny host role es).1 = .error e ↔
        e = .connect role es ∧ host.ReachesNone es := by
  unfold connectAny
  rcases firstReachable_cases host role es with
    ⟨failed, e, after, socket, hes, hfailed, hreaches, hfirst⟩ | ⟨hnone, hfirst⟩
  · rw [hfirst]
    refine ⟨failed ++ [e], .reached failed e after socket hes hfailed hreaches, by simp,
      fun _ => iff_of_false nofun ?_⟩
    rintro ⟨-, hnone⟩
    exact hnone e (by simp [hes]) socket hreaches
  · rw [hfirst]
    simp only [List.isEmpty_iff, if_neg hne]
    refine ⟨es, .exhausted hnone, hne, fun e => ⟨fun h => ?_, fun h => ?_⟩⟩
    · cases h
      exact ⟨rfl, hnone⟩
    · rw [h.1]

end

/-! ### Both roles -/

variable {host : Host} {es : Role → List Endpoint} {trace : Trace}

/-- It does not matter what becomes of a result that is no error. -/
theorem TriesEndpoints.map {α β : Type} {result : Except RuntimeError α}
    {tried : Role → List Endpoint} (h : TriesEndpoints host es result trace tried) (f : α → β) :
    TriesEndpoints host es (result.map f) trace tried where
  traced := h.traced
  cri := h.cri
  runtime := h.runtime
  failed e := by
    rw [← h.failed]
    cases result with
    | error =>
      show Except.error _ = Except.error e ↔ Except.error _ = Except.error e
      rw [Except.error.injEq, Except.error.injEq]
    | ok => exact iff_of_false nofun nofun

/-- Only endpoints for the CRI are tried if none of them is reached, or
if the one that is reached serves both roles. The endpoints of the
runtime are untried then. -/
theorem triesEndpoints_alone (host : Host) (hne : ∀ role, es role ≠ [])
    (hskip : host.ReachesNone (es .cri) ∨ Endpoint.sameList (es .cri) (es .runtime) = true) :
    ∃ tried, TriesEndpoints host es (connectAny host .cri (es .cri)).1
      (connectAny host .cri (es .cri)).2 tried := by
  obtain ⟨tried, htries, hsome, herror⟩ := connectAny_tries host .cri (hne .cri)
  refine ⟨Role.pick tried [], ⟨Role.pick _ .empty, (Trace.append_empty _).symm, ?_⟩, hsome,
    iff_of_true rfl hskip, fun e => (herror e).trans ⟨?_, ?_⟩⟩
  · rintro (_ | _)
    · exact htries
    · exact .untried
  · rintro ⟨rfl, hnone⟩
    exact ⟨.cri, rfl, htries.eq_of_reachesNone hsome hnone, hnone⟩
  · rintro ⟨_ | _, rfl, htried, hnone⟩
    · exact ⟨rfl, hnone⟩
    · exact absurd htried (hne .runtime).symm

/-- Otherwise endpoints of the runtime are tried as well, and their
result decides. -/
theorem triesEndpoints_both (host : Host) (hne : ∀ role, es role ≠ [])
    (hreached : ¬ host.ReachesNone (es .cri))
    (hsame : ¬ Endpoint.sameList (es .cri) (es .runtime) = true) :
    ∃ tried, TriesEndpoints host es (connectAny host .runtime (es .runtime)).1
      ((connectAny host .cri (es .cri)).2 ++ (connectAny host .runtime (es .runtime)).2)
      tried := by
  obtain ⟨tried, htries, hsome, -⟩ := connectAny_tries host .cri (hne .cri)
  obtain ⟨tried', htries', hsome', herror⟩ := connectAny_tries host .runtime (hne .runtime)
  refine ⟨Role.pick tried tried', ⟨Role.pick _ _, rfl, ?_⟩, hsome,
    iff_of_false hsome' (not_or.mpr ⟨hreached, hsame⟩), fun e => (herror e).trans ⟨?_, ?_⟩⟩
  · rintro (_ | _)
    · exact htries
    · exact htries'
  · rintro ⟨rfl, hnone⟩
    exact ⟨.runtime, rfl, htries'.eq_of_reachesNone hsome' hnone, hnone⟩
  · rintro ⟨_ | _, rfl, -, hnone⟩
    · exact absurd hnone hreached
    · exact ⟨rfl, hnone⟩

/-- Connecting tries the endpoints of both roles. Whether the second
role is tried at all is decided by the first one, and this is the case
distinction here. -/
theorem connect_tries (host : Host) (hne : ∀ role, es role ≠ []) :
    ∃ tried, TriesEndpoints host es (connect host (es .cri) (es .runtime)).1
      (connect host (es .cri) (es .runtime)).2 tried := by
  have halone := triesEndpoints_alone host hne
  have hboth := triesEndpoints_both host hne
  obtain ⟨-, -, -, herror⟩ := connectAny_tries host .cri (hne .cri)
  unfold connect
  generalize connectAny host .cri (es .cri) = outcome at halone hboth herror ⊢
  rcases outcome with ⟨e | socket, trace⟩
  · obtain ⟨tried, htries⟩ := halone (.inl ((herror e).mp rfl).2)
    exact ⟨tried, htries.map fun s => ConnectionPair.mk s s⟩
  · by_cases hsame : Endpoint.sameList (es .cri) (es .runtime) = true
    · obtain ⟨tried, htries⟩ := halone (.inr hsame)
      dsimp only
      rw [if_pos hsame]
      exact ⟨tried, htries.map fun s => ConnectionPair.mk s s⟩
    · have hreached : ¬ host.ReachesNone (es .cri) := fun hnone =>
        nomatch (herror _).mpr ⟨rfl, hnone⟩
      obtain ⟨tried, htries⟩ := hboth hreached hsame
      dsimp only
      rw [if_neg hsame]
      exact ⟨tried, htries.map _⟩

end ConnectionPair

/-- A client does what connecting does, and keeps only the pair. -/
theorem Client.init_eq (c : Client) (host : Host) :
    (c.init host).1 = (ConnectionPair.connect host c.criEndpoints c.runtimeEndpoints).1.map
        (fun _ => ()) ∧
      (c.init host).2.2 = (ConnectionPair.connect host c.criEndpoints c.runtimeEndpoints).2 := by
  unfold Client.init
  split
  · rename_i hconnect
    rw [hconnect]
    exact ⟨rfl, rfl⟩
  · rename_i hconnect
    rw [hconnect]
    exact ⟨rfl, rfl⟩

end NpuAttribution
