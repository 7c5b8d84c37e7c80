import NpuAttribution.Poll.Run

/-!
# `NpuAttribution.Session`: a client in a world that changes

A client lives long. It is connected, closed and connected again, it is asked for containers
and descriptors, and fetches go on in the background. Meanwhile sockets appear and disappear,
and services change what they reply. A session is all this, one `Action` after the other and
in any order.

A fetch is not one action, but each of its steps is. So anything may come between two steps
of a fetch, and several fetches may overlap. When a fetch lists the containers or begins an
inspection, it does so through the client as it is at this moment.
-/

set_option autoImplicit false

namespace NpuAttribution

open Poll (Backend Event)

/-- A client, the world around it, and what goes on in the background. -/
structure Session where
  host : Host
  services : Services
  client : Client
  monitor : Poll.State := {}

namespace Session

/-- What can happen in a session. -/
inductive Action
  /-- From now on paths lead where they lead on the given host. Connections stay open. -/
  | reach (host : Host)
  /-- From now on requests are answered in this way. -/
  | answer (services : Services)
  | init
  | close
  | list
  | spec (id : ContainerId)
  | isulaContainer (id : ContainerId)
  /-- A fetch is started or makes a step. -/
  | fetch (e : Event)

/-- The session of a client that is new. -/
def start (o : Options) (host : Host) (services : Services) : Session :=
  { host, services, client := .ofOptions o }

/-- Where the fetches have their containers and descriptors from at the moment. -/
def backend (s : Session) : Backend := .ofClient s.services s.client

/-- A listing always lists what the backend lists. What an inspection
comes to is left open, as it follows from a reply to an earlier request. -/
def heed (b : Backend) : Event → Event
  -- What was said about the listing is replaced by what the backend says.
  | .move k (.listed _) => .move k (.listed b.listing.1)
  | e => e

/-- A fetch makes a step, if it can. -/
def fetch (s : Session) (e : Event) : Session × Trace :=
  match s.monitor.step? (heed s.backend e) with
  | some monitor => ({ s with monitor }, { requests := s.monitor.asked s.backend e })
  | none => (s, .empty)

/-- What an action leads to, and what it does to the outside world. -/
def step (s : Session) : Action → Session × Trace
  | .reach host => ({ s with host }, .empty)
  | .answer services => ({ s with services }, .empty)
  -- The outcome of connecting is for the caller and changes nothing else.
  | .init =>
    let (_, client, trace) := s.client.init s.host
    ({ s with client }, trace)
  | .close => ({ s with client := s.client.close }, .empty)
  | .list => (s, (s.client.list s.services).2)
  | .spec id => (s, (s.client.spec s.services id).2)
  | .isulaContainer id => (s, (s.client.isulaContainer s.services id).2)
  | .fetch e => s.fetch e

/-- The requests that an action makes. -/
def requests (s : Session) (a : Action) : List Request := (s.step a).2.requests

/-- The requests that a sequence of actions makes. -/
def requestsOf (s : Session) : List Action → List Request
  | [] => []
  | a :: as => s.requests a ++ requestsOf (s.step a).1 as

/-- What a sequence of actions leads to. -/
def run (s : Session) (as : List Action) : Session := as.foldl (fun s a => (s.step a).1) s

end Session

end NpuAttribution
