import NpuAttribution.Config.Options
import NpuAttribution.Runtime.Exchange

/-!
# `NpuAttribution.Runtime.Connections`: the pair of connections

Two connections are needed, one to list the containers and one to have them described.
For either role the endpoints are tried in order and the first that can be reached is
taken. If both roles have the same endpoints, they share one connection. Connecting
succeeds as a whole or not at all.
-/

set_option autoImplicit false

namespace NpuAttribution

/-- The sockets at the other ends of the two connections. -/
structure ConnectionPair where
  cri : Socket
  runtime : Socket
  deriving DecidableEq, Repr

namespace ConnectionPair

/-- The journal line about an endpoint that could not be reached. It
says why only in general terms. -/
def unreachable (role : Role) (e : Endpoint) : Line :=
  let name := role.name
  let path := e.path
  ⟨.warn, s!"failed to connect to {name} endpoint `{path}`: {RuntimeError.unreachable}"⟩

/-- Tries endpoints one after the other until one is reached. An
endpoint behind it is not even dialled, and each one before it is
worth a warning. -/
def firstReachable (host : Host) (role : Role) : List Endpoint → Option Socket × Trace
  | [] => (none, .empty)
  | e :: es =>
    match host.dial e with
    | (some socket, attempts) => (some socket, { attempts })
    | (none, attempts) =>
      let (socket, trace) := firstReachable host role es
      (socket, { attempts, lines := [unreachable role e] } ++ trace)

/-- Connects to the first endpoint that can be reached. Without any
endpoint nothing has been tried, which is an error of its own. -/
def connectAny (host : Host) (role : Role) (endpoints : List Endpoint) :
    Except RuntimeError Socket × Trace :=
  match firstReachable host role endpoints with
  | (some socket, trace) => (.ok socket, trace)
  | (none, trace) =>
    (.error (if endpoints.isEmpty then .noEndpoint role else .connect role endpoints), trace)

/-- Makes both connections, the CRI connection first. If it cannot be
made, the runtime side is not dialled at all. -/
def connect (host : Host) (cri runtime : List Endpoint) :
    Except RuntimeError ConnectionPair × Trace :=
  match connectAny host .cri cri with
  | (.error e, trace) => (.error e, trace)
  | (.ok socket, trace) =>
    -- Same endpoints lead to the same socket, so one connection serves both roles.
    if Endpoint.sameList cri runtime then
      (.ok ⟨socket, socket⟩, trace)
    else
      let (other, more) := connectAny host .runtime runtime
      (other.map fun other => ⟨socket, other⟩, trace ++ more)

end ConnectionPair

end NpuAttribution
