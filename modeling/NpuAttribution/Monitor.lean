import NpuAttribution.Poll.Schedule.Owner

/-!
# `NpuAttribution.Monitor`: the monitor from its start to its end

The monitor reads its settings, connects to the container runtime, polls it, and tells
the journal what it finds until it is interrupted. Only wrong settings and a runtime
that cannot be reached at the start keep it from running. What goes wrong later is told
to the journal as well.
-/

set_option autoImplicit false

namespace NpuAttribution

/-- Why the monitor does not start. -/
inductive StartError
  | config (e : ConfigError)
  | runtime (e : RuntimeError)
  deriving DecidableEq, Repr

/-- The error in words. -/
def StartError.message : StartError → String
  | .config e => "invalid configuration: " ++ e.message
  | .runtime e => "failed to connect to the container runtime: " ++ e.message

namespace Monitor

open Poll (Backend Schedule)

/-- The first line of the journal. -/
def startLine (o : Options) : Line :=
  let engine := o.engine.name
  let cri := o.criEndpoint.path
  let runtime := o.descriptorEndpoint.path
  ⟨.info, s!"Starting NPU monitor for {engine} (CRI `{cri}`, runtime `{runtime}`)"⟩

/-- The last line of the journal. -/
def endLine : Line := ⟨.info, "Shutting down"⟩

/-- What the journal is told about a container with devices. -/
def assignmentLine (a : Assignment) : Line :=
  let name := a.name
  let id := a.id
  let devices := Text.bracketed (a.devices.map toString)
  ⟨.debug, s!"container `{name}` ({id}) uses NPUs {devices}"⟩

/-- What the journal is told about a snapshot: how many containers it
has, and each of them in the order of their names. -/
def snapshotLines (s : Snapshot) : List Line :=
  let count := s.size
  let assignments := s.values.mergeSort fun a b => decide (a.name ≤ b.name)
  ⟨.info, s!"{count} containers use NPUs"⟩ :: assignments.map assignmentLine

/-- What the journal is told about an error. -/
def errorLine (e : MonitorError) : Line := ⟨.error, e.message⟩

/-- What the journal is told about one poll: a group of lines for
everything received. -/
def pollGroups (services : Services) (majors : List Nat) (limit : Nat) (client : Client) :
    List (List Line) :=
  -- One cycle is started and given as much time as it has itself.
  let s := Schedule.start { backend := .ofClient services client, majors, limit }
  let (errors, s) := (s.elapse 0 limit).settle.takeErrors
  let (snapshot, _) := s.settle.takeSnapshot
  -- Errors are reported while the cycle goes on, and its snapshot is delivered at the
  -- end.
  errors.map (fun e => [errorLine e]) ++ (snapshot.map snapshotLines).toList

/-- The groups up to the one with which the given number of lines
has been written. -/
def takeLines (count : Nat) : List (List Line) → List Line
  | [] => []
  | group :: groups =>
    if count = 0 then [] else group ++ takeLines (count - group.length) groups

/-- Runs the monitor for one poll. It is interrupted as soon as the
given number of lines has been written. -/
def run (env : Environment) (host : Host) (services : Services) (majors : List Nat)
    (interruptAfter : Nat) : Except StartError Unit × List Line :=
  match (Options.read env).1 with
  | .error e => (.error (.config e), [])
  | .ok options =>
    match (Client.ofOptions options).init host with
    -- The first line has been written by then.
    | (.error e, _, _) => (.error (.runtime e), [startLine options])
    | (.ok (), client, _) =>
      let groups := pollGroups services majors options.cycleTimeout client
      (.ok (), takeLines interruptAfter ([startLine options] :: groups) ++ [endLine])

end Monitor

end NpuAttribution
