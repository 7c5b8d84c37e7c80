import NpuAttribution.Proofs.Config.Backups
import NpuAttribution.Proofs.Poll.Schedules
import NpuAttribution.Proofs.Runtime.Connections
import NpuAttribution.Proofs.Runtime.Requests
import NpuAttribution.Session

/-!
# `NpuAttribution.Proofs.Session`: the connections of a session

Whatever happens in a session, and in whatever order, its client holds the pair of the last
`init` that has been successful, unless it has been closed since. `keeps_connections` says
so, and it also says what each action does with the pair that is held: where it sends its
requests, and that nothing but `init` and `close` changes the pair.

Fetches are part of this step by step. A fetch that a schedule makes in one go is a special
case (`run_fetches_of_traced`).
-/

set_option autoImplicit false

namespace NpuAttribution

open ConnectionPair (Connects)
open Poll (Backend Event)

namespace Session

/-- What trying to connect says at the moment. -/
def initResult (s : Session) : Except RuntimeError Unit := (s.client.init s.host).1

/-- What an `init` comes to in a session with the given options:

- `connected`: it is successful, and the pair to which connecting leads
  now is held from now on;
- `noCri`: no CRI endpoint can be reached, and everything is held that
  was held before;
- `noRuntime`: a CRI endpoint can be reached but no runtime endpoint,
  and everything is held that was held before. -/
inductive InitEnds (o : Options) (u : Session) : Prop
  | connected (pair : ConnectionPair)
    (hpair : Connects u.host o.criEndpoints o.descriptorEndpoints pair)
    (hresult : u.initResult = .ok ())
    (hheld : (u.step .init).1.client = { u.client with connections := some pair })
    (hmade : (u.step .init).2.made.length
      = if Endpoint.sameList o.criEndpoints o.descriptorEndpoints then 1 else 2)
  | noCri (hcri : u.host.ReachesNone o.criEndpoints)
    (hresult : u.initResult = .error (.connect .cri o.criEndpoints))
    (hheld : (u.step .init).1.client = u.client)
  | noRuntime (socket : Socket) (hcri : u.host.FirstReaches o.criEndpoints socket)
    (hsame : Endpoint.sameList o.criEndpoints o.descriptorEndpoints = false)
    (hruntime : u.host.ReachesNone o.descriptorEndpoints)
    (hresult : u.initResult = .error (.connect .runtime o.descriptorEndpoints))
    (hheld : (u.step .init).1.client = u.client)

/-- What an action does with the pair that is held:

- `init`: an `init` replaces it or leaves it as it is;
- `close`: nothing is held after a `close`, and a second one changes
  nothing;
- `other`: all other actions leave it as it is;
- `listed`: listing the containers is one request if a pair is held;
- `routed`: all requests go where they belong over the pair that is
  held;
- `unconnected`: if none is held, then nothing is asked, and this is
  what is answered. -/
structure Respects (o : Options) (u : Session) (a : Action) : Prop where
  init : a = .init → InitEnds o u
  close : a = .close → (u.step a).1.client.connections = none ∧
    ((u.step a).1.step .close).1 = (u.step a).1
  other : a ≠ .init → a ≠ .close → (u.step a).1.client = u.client
  listed : a = .list → u.requests a = u.client.connections.toList.map Client.listRequest
  routed : u.client.Routes (u.requests a)
  unconnected : u.client.connections = none → u.requests a = [] ∧
    (u.client.list u.services).1 = .error .notConnected ∧
    (∀ id, u.client.shape = .oci → (u.client.spec u.services id).1 = .error .notConnected) ∧
    ∀ id, u.client.shape = .isula →
      (u.client.isulaContainer u.services id).1 = .error .notConnected

/-- The pair is the one to which the last successful `init` has led:

- `split`, `success`: there has been an `init`, and it was successful;
- `connects`: connecting has led to the pair at that moment;
- `unclosed`: there has been no `close` since then;
- `last`: no `init` has been successful since then. -/
structure LastConnected (o : Options) (s : Session) (as : List Action) (pair : ConnectionPair)
    (before after : List Action) : Prop where
  split : as = before ++ .init :: after
  success : (s.run before).initResult = .ok ()
  connects : Connects (s.run before).host o.criEndpoints o.descriptorEndpoints pair
  unclosed : .close ∉ after
  last : ∀ middle rest, after = middle ++ .init :: rest →
    (s.run (before ++ .init :: middle)).initResult ≠ .ok ()

/-- What a session does with its connections:

- `held`: a pair is held if and only if there has been a successful
  `init` and no `close` since then;
- `latest`: a pair is held if and only if the last successful `init` has
  led to it;
- `each`: every action respects the pair that is held. -/
structure KeepsConnections (o : Options) (s : Session) (as : List Action) : Prop where
  held : (s.run as).client.connections.isSome = true ↔
    ∃ before after, as = before ++ .init :: after ∧ (s.run before).initResult = .ok () ∧
      .close ∉ after
  latest : ∀ pair, (s.run as).client.connections = some pair ↔
    ∃ before after, LastConnected o s as pair before after
  each : ∀ before a after, as = before ++ a :: after → Respects o (s.run before) a

section

variable {o : Options} {s u : Session} {as before after : List Action} {a : Action}
  {pair : ConnectionPair}

/-- Actions are taken one after the other, and the session goes on
from where it was. -/
theorem run_append (s : Session) (as bs : List Action) : s.run (as ++ bs) = (s.run as).run bs :=
  List.foldl_append

/-- The last action is a step after all others. -/
theorem run_append_singleton (s : Session) (as : List Action) (a : Action) :
    s.run (as ++ [a]) = ((s.run as).step a).1 :=
  s.run_append as [a]

/-- A fetch does not touch the client, it only asks by it. -/
theorem client_fetch (u : Session) (e : Event) : (u.fetch e).1.client = u.client := by
  unfold fetch
  split <;> rfl

/-- Nothing but `init` and `close` touches the client. -/
theorem client_step (hinit : a ≠ .init) (hclose : a ≠ .close) :
    (u.step a).1.client = u.client := by
  cases a with
  | init => exact absurd rfl hinit
  | close => exact absurd rfl hclose
  | fetch e => exact u.client_fetch e
  | reach | answer | list | spec | isulaContainer => rfl

/-! ## Connecting -/

/-- The client of a session tries the endpoints that the options say. -/
def Serves (o : Options) (u : Session) : Prop :=
  u.client.criEndpoints = o.criEndpoints ∧ u.client.runtimeEndpoints = o.descriptorEndpoints

/-- A client that has connected holds the pair to which connecting has led. -/
theorem init_of_ok {host : Host} {c : Client} {trace : Trace}
    (h : ConnectionPair.connect host c.criEndpoints c.runtimeEndpoints = (.ok pair, trace)) :
    c.init host = (.ok (), { c with connections := some pair }, trace) := by
  unfold Client.init
  rw [h]

/-- A client that has not connected is as it was, with the pair that it
held before. -/
theorem init_of_error {host : Host} {c : Client} {e : RuntimeError} {trace : Trace}
    (h : ConnectionPair.connect host c.criEndpoints c.runtimeEndpoints = (.error e, trace)) :
    c.init host = (.error e, c, trace) := by
  unfold Client.init
  rw [h]

/-- What an `init` comes to. The three cases are those of connecting,
and the error for an empty list of endpoints cannot occur, as every role
has its configured endpoint. -/
theorem initEnds (h : Serves o u) : InitEnds o u := by
  have hconnected :=
    ConnectionPair.connected_of_connect u.host o.criEndpoints o.descriptorEndpoints
  have hcri : o.criEndpoints.isEmpty = false :=
    List.isEmpty_eq_false_iff.mpr (Endpoint.withBackups_ne_nil _ _ _)
  have hruntime : o.descriptorEndpoints.isEmpty = false :=
    List.isEmpty_eq_false_iff.mpr (Endpoint.withBackups_ne_nil _ _ _)
  -- The client tries the endpoints of the options, of which there are some for either role.
  have hsame : ConnectionPair.connect u.host u.client.criEndpoints u.client.runtimeEndpoints
      = ConnectionPair.connect u.host o.criEndpoints o.descriptorEndpoints := by
    rw [h.1, h.2]
  generalize ConnectionPair.connect u.host o.criEndpoints o.descriptorEndpoints = x
    at hconnected hsame
  cases hconnected with
  | connected pair trace hpair hmade =>
    have hinit := init_of_ok hsame
    refine .connected pair hpair (congrArg (·.1) hinit) (congrArg (·.2.1) hinit) ?_
    show (u.client.init u.host).2.2.made.length = _
    rw [hinit]
    exact hmade
  | noCri trace hnone =>
    have hinit := init_of_error hsame
    rw [hcri] at hinit
    exact .noCri hnone (congrArg (·.1) hinit) (congrArg (·.2.1) hinit)
  | noRuntime socket trace hfirst hother hnone =>
    have hinit := init_of_error hsame
    rw [hruntime] at hinit
    exact .noRuntime socket hfirst hother hnone (congrArg (·.1) hinit) (congrArg (·.2.1) hinit)

/-- Connecting asks nothing, so an `init` makes no requests. -/
theorem requests_init (host : Host) (c : Client) : (c.init host).2.2.requests = [] := by
  have hconnected := ConnectionPair.connected_of_connect host c.criEndpoints c.runtimeEndpoints
  unfold Client.init
  split
  · rename_i hx
    rw [hx] at hconnected
    cases hconnected with
    | connected _ _ _ _ hrequests => exact hrequests
  · rename_i hx
    rw [hx] at hconnected
    cases hconnected with
    | noCri _ _ _ hrequests => exact hrequests
    | noRuntime _ _ _ _ _ hrequests => exact hrequests

/-- The endpoints stay what they are, whatever the action is. -/
theorem serves_step (h : Serves o u) (a : Action) : Serves o (u.step a).1 := by
  -- An `init` changes at most the pair, a `close` changes nothing else.
  by_cases hinit : a = .init
  · subst hinit
    cases initEnds h with
    | connected _ _ _ hheld => exact ⟨by rw [hheld]; exact h.1, by rw [hheld]; exact h.2⟩
    | noCri _ _ hheld | noRuntime _ _ _ _ _ hheld =>
      exact ⟨by rw [hheld]; exact h.1, by rw [hheld]; exact h.2⟩
  · by_cases hclose : a = .close
    · subst hclose
      exact h
    · unfold Serves
      rw [client_step hinit hclose]
      exact h

/-- The client of a session tries the endpoints of the options at any
time. The induction is on the actions. -/
theorem serves_run (o : Options) (host : Host) (services : Services) (as : List Action) :
    Serves o ((start o host services).run as) := by
  induction as using List.reverseRecOn with
  | nil => exact ⟨rfl, rfl⟩
  | append_singleton as a ih =>
    rw [run_append_singleton]
    exact serves_step ih a

/-! ## The pair that is held -/

/-- An action in a sequence that ends with another is this one or comes before. -/
theorem append_singleton_eq {b : Action} :
    as ++ [a] = before ++ b :: after ↔
      (after = [] ∧ as = before ∧ a = b) ∨
      ∃ after', after = after' ++ [a] ∧ as = before ++ b :: after' := by
  constructor
  · intro h
    rcases List.eq_nil_or_concat after with rfl | ⟨after', x, rfl⟩
    · obtain ⟨rfl, hab⟩ := List.append_inj' h rfl
      exact .inl ⟨rfl, rfl, (List.cons.inj hab).1⟩
    · rw [List.concat_eq_append, ← List.cons_append, ← List.append_assoc] at h
      obtain ⟨rfl, hax⟩ := List.append_inj' h rfl
      obtain ⟨rfl, -⟩ := List.cons.inj hax
      exact .inr ⟨after', List.concat_eq_append, rfl⟩
  · rintro (⟨rfl, rfl, rfl⟩ | ⟨after', rfl, rfl⟩)
    · rfl
    · simp

/-- An action that neither closes nor connects does not change which
`init` is the last successful one. The sequence is split at the same
place with or without the action. -/
theorem lastConnected_append (hclose : a ≠ .close)
    (hfail : a = .init → (s.run as).initResult ≠ .ok ()) :
    (∃ before after, LastConnected o s (as ++ [a]) pair before after) ↔
      ∃ before after, LastConnected o s as pair before after := by
  constructor
  · rintro ⟨before, after, h⟩
    rcases append_singleton_eq.mp h.split with ⟨rfl, rfl, ha⟩ | ⟨after', rfl, has⟩
    -- The new action would be the successful `init`, but it has failed.
    · exact absurd h.success (hfail ha)
    · refine ⟨before, after', has, h.success, h.connects, fun hmem => ?_, ?_⟩
      · exact h.unclosed (List.mem_append_left _ hmem)
      · rintro middle rest rfl
        exact h.last middle (rest ++ [a]) (by simp)
  · rintro ⟨before, after, h⟩
    refine ⟨before, after ++ [a], append_singleton_eq.mpr (.inr ⟨after, rfl, h.split⟩), h.success,
      h.connects, fun hmem => ?_, fun middle rest heq => ?_⟩
    · rcases List.mem_append.mp hmem with hold | hnew
      · exact h.unclosed hold
      · exact hclose (List.mem_singleton.mp hnew).symm
    -- An `init` after the last successful one is an old one or the new action. Both fail.
    · rcases append_singleton_eq.mp heq with ⟨-, rfl, ha⟩ | ⟨rest', -, hold⟩
      · rw [← h.split]
        exact hfail ha
      · exact h.last middle rest' hold

/-- A successful `init` is the last one, and it has led to one pair only. -/
theorem lastConnected_append_init (hsuccess : (s.run as).initResult = .ok ())
    (hpair : Connects (s.run as).host o.criEndpoints o.descriptorEndpoints pair)
    {other : ConnectionPair} :
    (∃ before after, LastConnected o s (as ++ [.init]) other before after) ↔ pair = other := by
  constructor
  · rintro ⟨before, after, h⟩
    rcases append_singleton_eq.mp h.split with ⟨-, rfl, -⟩ | ⟨after', rfl, rfl⟩
    · exact hpair.unique h.connects
    -- The pair would be of an earlier `init`, but the new one is successful and comes later.
    · exact absurd hsuccess (h.last after' [] rfl)
  · rintro rfl
    exact ⟨as, [], rfl, hsuccess, hpair, nofun, by simp⟩

/-- After a `close` there is no last successful `init`. -/
theorem not_lastConnected_append_close :
    ¬ LastConnected o s (as ++ [.close]) pair before after := by
  intro h
  rcases append_singleton_eq.mp h.split with ⟨-, -, ha⟩ | ⟨after', rfl, -⟩
  · cases ha
  · exact h.unclosed (by simp)

/-- The pair that is held is the one to which the last successful `init`
has led. The induction is on the actions from the last one back, with the
statement itself as its invariant: an `init` that is successful replaces
the pair, one that is not leaves it, and a `close` lets go of it. -/
theorem connections_run (o : Options) (host : Host) (services : Services) (as : List Action)
    (pair : ConnectionPair) :
    ((start o host services).run as).client.connections = some pair ↔
      ∃ before after, LastConnected o (start o host services) as pair before after := by
  -- The invariant is the statement itself: an action that connects or closes decides which
  -- `init` counts, and every other action leaves both sides as they are.
  induction as using List.reverseRecOn with
  | nil =>
    constructor
    · nofun
    · rintro ⟨before, after, h⟩
      simpa using h.split
  | append_singleton as a ih =>
    have hserves := serves_run o host services as
    rw [run_append_singleton]
    by_cases hinit : a = .init
    · subst hinit
      cases initEnds hserves with
      | connected other hpair hresult hheld =>
        rw [hheld, lastConnected_append_init hresult hpair]
        exact Option.some_inj
      | noCri hcri hresult hheld | noRuntime _ _ _ _ hresult hheld =>
        have hfail : ((start o host services).run as).initResult ≠ .ok () := by
          rw [hresult]
          nofun
        have hopen : Action.init ≠ .close := nofun
        rw [hheld, ih]
        exact (lastConnected_append hopen fun _ => hfail).symm
    · by_cases hclose : a = .close
      · subst hclose
        constructor
        · nofun
        · rintro ⟨before, after, h⟩
          exact absurd h not_lastConnected_append_close
      · rw [client_step hinit hclose, ih, lastConnected_append hclose fun h => absurd h hinit]

/-- A pair that is held is held, or another one, until the next `close`. -/
theorem isSome_step (hserves : Serves o u) (hclose : a ≠ .close)
    (h : u.client.connections.isSome = true) :
    (u.step a).1.client.connections.isSome = true := by
  by_cases hinit : a = .init
  · subst hinit
    cases initEnds hserves with
    | connected _ _ _ hheld => rw [hheld]; rfl
    | noCri _ _ hheld | noRuntime _ _ _ _ _ hheld => rwa [hheld]
  · rwa [client_step hinit hclose]

/-- After a successful `init` a pair is held until the next `close`,
though it need not be the same one. -/
theorem isSome_run (o : Options) (host : Host) (services : Services) (before after : List Action)
    (hsuccess : ((start o host services).run before).initResult = .ok ())
    (hclose : .close ∉ after) :
    ((start o host services).run (before ++ .init :: after)).client.connections.isSome = true := by
  -- By induction on what has happened since the successful `init`.
  induction after using List.reverseRecOn with
  | nil =>
    rw [run_append_singleton]
    cases initEnds (serves_run o host services before) with
    | connected _ _ _ hheld => rw [hheld]; rfl
    | noCri _ hresult | noRuntime _ _ _ _ hresult =>
      rw [hresult] at hsuccess
      cases hsuccess
  | append_singleton after a ih =>
    rw [← List.cons_append, ← List.append_assoc, run_append_singleton]
    refine isSome_step (serves_run o host services _) ?_ (ih fun hmem => ?_)
    · rintro rfl
      exact hclose (by simp)
    · exact hclose (List.mem_append_left _ hmem)

/-! ## The requests -/

/-- The requests that a step of a fetch makes go where they belong. The
session gives the fetch its client, and this has the pair. -/
theorem routes_asked (services : Services) (c : Client) (monitor : Poll.State) (e : Event) :
    c.Routes (monitor.asked (.ofClient services c) e) := by
  -- Requests are made by a listing or at the beginning of an inspection.
  cases e with
  | move k m =>
    unfold Poll.State.asked
    simp only
    split
    · rename_i cycle _
      cases m with
      | listed r => exact c.routes_list services
      | begin i =>
        simp only [Poll.Cycle.asked]
        split
        · rename_i w _
          exact c.routes_inspectBy services w.container
        · exact c.routes_nil
      | collect | ask | conclude | release | report | receive | expire | hangUp | join | finish =>
        exact c.routes_nil
    · exact c.routes_nil
  | start | spawn | deliver | takeSnapshot | takeError | note | takeJournal | elsewhere =>
    exact c.routes_nil

/-- All requests of an action go where they belong, over the pair that
is held when they are made. -/
theorem routes_requests (u : Session) (a : Action) : u.client.Routes (u.requests a) := by
  cases a with
  | init =>
    show u.client.Routes (u.client.init u.host).2.2.requests
    rw [requests_init]
    exact u.client.routes_nil
  | list => exact u.client.routes_list u.services
  | spec id => exact u.client.routes_spec u.services id
  | isulaContainer id => exact u.client.routes_isulaContainer u.services id
  | fetch e =>
    show u.client.Routes (u.fetch e).2.requests
    unfold fetch
    split
    · exact routes_asked u.services u.client u.monitor e
    · exact u.client.routes_nil
  | reach | answer | close => exact u.client.routes_nil

/-- Every action respects the pair that is held, in any state that a
session can get to. -/
theorem respects (h : Serves o u) (a : Action) : Respects o u a where
  init _ := initEnds h
  close ha := by
    subst ha
    exact ⟨rfl, rfl⟩
  -- The remaining parts are about requests and answers, not about the pair.
  other := client_step
  listed ha := by
    subst ha
    exact u.client.requests_list u.services
  routed := u.routes_requests a
  unconnected hnone := by
    refine ⟨?_, ?_, fun id hshape => ?_, fun id hshape => ?_⟩
    · -- A request would go over a pair, but there is none.
      refine List.eq_nil_iff_forall_not_mem.mpr fun r hr => ?_
      obtain ⟨pair, hpair, -⟩ := u.routes_requests a r hr
      rw [hnone] at hpair
      cases hpair
    · simp only [Client.list, hnone]
    · simp only [Client.spec, hshape, hnone]
    · simp only [Client.isulaContainer, hshape, hnone]

end

/-- Whatever happens in a session, it keeps its connections: over every
list of actions, on hosts whose sockets come and go in any way, and with
services that reply anything. The parts about the pair follow from
`connections_run` and `isSome_run`, and `respects` is applied to the
state before each action. -/
theorem keeps_connections (o : Options) (host : Host) (services : Services) (as : List Action) :
    KeepsConnections o (start o host services) as where
  held := by
    constructor
    · intro hsome
      obtain ⟨pair, hpair⟩ := Option.isSome_iff_exists.mp hsome
      obtain ⟨before, after, h⟩ := (connections_run o host services as pair).mp hpair
      exact ⟨before, after, h.split, h.success, h.unclosed⟩
    · rintro ⟨before, after, rfl, hsuccess, hclose⟩
      exact isSome_run o host services before after hsuccess hclose
  latest := connections_run o host services as
  each before a after _ := respects (serves_run o host services before) a

-- A second `init` finds the CRI socket but not the other one, and the first pair is kept.
example :
    let cri : Socket := ⟨"/run/dockershim.sock"⟩
    let runtime : Socket := ⟨"/run/containerd/containerd.sock"⟩
    let listening (sockets : List Socket) : Host := ⟨fun path => sockets.find? (·.path = path)⟩
    ((start (.ofEngine .docker) (listening [cri, runtime]) fun _ => .status 5 "").run
      [.init, .reach (listening [cri]), .init]).client.connections = some ⟨cri, runtime⟩ := by
  decide +kernel

/-! ## Scheduled fetches -/

section

variable {s : Session} {majors : List Nat} {schedule : Poll.Schedule} {es : List Event}

/-- A step of a fetch that heeds the backend and that can be made. -/
theorem step_fetch {e : Event} {monitor : Poll.State} (hheed : heed s.backend e = e)
    (h : s.monitor.step? e = some monitor) :
    s.step (.fetch e) = ({ s with monitor }, { requests := s.monitor.asked s.backend e }) := by
  show s.fetch e = _
  unfold fetch
  rw [hheed, h]

/-- The steps of a fetch can be made in a session, if nothing else
happens. The induction is on the steps. -/
theorem run_fetches (hheed : ∀ e ∈ es, heed s.backend e = e) {monitor : Poll.State}
    (h : s.monitor.run? es = some monitor) :
    s.run (es.map .fetch) = { s with monitor } ∧
      s.requestsOf (es.map .fetch)
        = Poll.along Poll.State.step? (Poll.State.asked s.backend) s.monitor es := by
  -- The steps do not touch the client, so the backend is the same for all of them.
  induction es generalizing s with
  | nil =>
    cases h
    exact ⟨rfl, rfl⟩
  | cons e es ih =>
    obtain ⟨next, hnext, hrest⟩ := Option.bind_eq_some_iff.mp h
    have hstep := step_fetch (hheed e List.mem_cons_self) hnext
    obtain ⟨hrun, hrequests⟩ := ih (s := { s with monitor := next })
      (fun e he => hheed e (List.mem_cons_of_mem _ he)) hrest
    constructor
    · show (s.step (.fetch e)).1.run (es.map .fetch) = _
      rw [hstep]
      exact hrun
    · show s.requests (.fetch e) ++ (s.step (.fetch e)).1.requestsOf (es.map .fetch) = _
      unfold requests
      rw [hstep, hrequests]
      simp only [Poll.along, hnext]
      rfl

/-- A fetch that a schedule makes in one go consists of such steps, and
it makes the same requests. So what is said about sessions covers the
fetches of schedules. -/
theorem run_fetches_of_traced (h : Poll.Schedule.Traced s.backend majors schedule es)
    (hnew : s.monitor = {}) :
    s.run (es.map .fetch) = { s with monitor := schedule.state } ∧
      s.requestsOf (es.map .fetch) = schedule.requests := by
  have hheed : ∀ e ∈ es, heed s.backend e = e := by
    intro e he
    cases e with
    | move k m =>
      cases m with
      | listed r =>
        rw [h.listing k r he]
        rfl
      | collect | ask | begin | conclude | release | report | receive | expire | hangUp | join
      | finish => rfl
    | start | spawn | deliver | takeSnapshot | takeError | note | takeJournal | elsewhere => rfl
  rw [h.requests, ← hnew]
  exact run_fetches hheed (by rw [hnew]; exact h.run)

end

end Session

end NpuAttribution
