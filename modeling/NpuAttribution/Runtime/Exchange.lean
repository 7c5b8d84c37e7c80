import NpuAttribution.Journal
import NpuAttribution.Runtime.Error
import NpuAttribution.Wire.Message

/-!
# `NpuAttribution.Runtime.Exchange`: the outside world

The monitor meets the outside world in two places. It dials sockets, which are either
there or not, and it sends requests, which are answered by a message or by a status.
A `Host` and `Services` say how a world behaves, and a `Trace` records what has been
done to it.
-/

set_option autoImplicit false

namespace NpuAttribution

open Wire (Bytes)

/-- A socket that somebody listens on, by the path under which it was opened. -/
structure Socket where
  path : String
  deriving DecidableEq, Repr

/-- What the paths of sockets lead to at the moment. It is for the
system to say where a path leads. Two paths may lead to the same socket
or to different ones, however alike they look, and either of them may
lead nowhere while the other one can be reached. -/
structure Host where
  /-- The socket that can be reached under a path, if there is one. -/
  socketAt? : String → Option Socket

/-- An attempt to connect to an endpoint. -/
structure Attempt where
  endpoint : Endpoint
  reached : Bool
  deriving DecidableEq, Repr

namespace Host

/-- Paths of so many bytes are too long for a socket. -/
def pathBound : Nat := 108

/-- Dials an endpoint. Nothing is attempted if the path is too long. -/
def dial (h : Host) (e : Endpoint) : Option Socket × List Attempt :=
  -- The address of a socket has room for this many bytes, with a zero at the end.
  if e.path.utf8ByteSize < pathBound then
    let socket := h.socketAt? e.path
    (socket, [⟨e, socket.isSome⟩])
  else
    (none, [])

end Host

/-- A request that is sent over a connection to a socket. It may be
confined to a namespace of the service. -/
structure Request where
  socket : Socket
  method : String
  space : Option String
  message : Bytes
  deriving DecidableEq, Repr

/-- The answer to a request, as the transport hands it on to the
caller. An answer that the transport itself refuses, such as a message
of more than 4 MiB, arrives as a status like any other failure. The
bytes of a message are what is left when the transport is done with
it, and have yet to be read. -/
inductive Reply
  | message (content : Bytes)
  | status (code : Nat) (message : String)
  deriving DecidableEq, Repr

/-- How requests are answered. -/
abbrev Services := Request → Reply

/-- What has been done to the outside world, each in order of time. -/
structure Trace where
  attempts : List Attempt := []
  requests : List Request := []
  lines : List Line := []
  deriving DecidableEq, Repr

namespace Trace

/-- Nothing has been done. -/
def empty : Trace := {}

/-- One thing after the other. -/
def append (a b : Trace) : Trace :=
  ⟨a.attempts ++ b.attempts, a.requests ++ b.requests, a.lines ++ b.lines⟩

instance : Append Trace := ⟨append⟩

/-- A request and nothing else. -/
def request (r : Request) : Trace := { requests := [r] }

end Trace

/-- Sends a request and reads the message that answers it. -/
def Services.call {α : Type} [Wire.Message α] (services : Services) (r : Request) :
    Except RuntimeError α :=
  match services r with
  | .message content =>
    match Wire.Message.decode content with
    | some a => .ok a
    -- The bytes that arrived are no message of the expected type.
    | none => .error (.rpc r.method .unreadable)
  | .status code message => .error (.rpc r.method (.ofServer code message))

end NpuAttribution
