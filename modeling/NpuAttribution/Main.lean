import NpuAttribution.Monitor

/-!
# `NpuAttribution.Main`: the command line

The program takes its settings from the environment and has no arguments. It has no
transport of its own, so no socket can be reached, and it ends by saying so.
-/

set_option autoImplicit false

open NpuAttribution

/-- The environment of the process. -/
def NpuAttribution.Environment.ofProcess : IO Environment := do
  let values ← Setting.all.mapM fun s => return (s, ← IO.getEnv s.name)
  return fun s => (values.find? fun v => v.1 = s).bind (·.2)

/-- Runs the monitor and writes its journal to the standard error stream. -/
def main : IO UInt32 := do
  let env ← Environment.ofProcess
  let noTransport : Services := fun _ => .status Status.unknownCode "no transport"
  let (result, lines) := Monitor.run env ⟨fun _ => none⟩ noTransport [] 1
  for line in (Options.read env).2 ++ lines do
    IO.eprintln line.render
  match result with
  | .ok () => return 0
  | .error e =>
    IO.eprintln e.message
    return 1
