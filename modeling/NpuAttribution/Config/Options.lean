import NpuAttribution.Config.Engine
import NpuAttribution.Journal
import NpuAttribution.Text.Numeral

/-!
# `NpuAttribution.Config.Options`: what the monitor can be told, and the variables that tell it

| Variable | Meaning | Default |
|---|---|---|
| `NPU_MONITOR_CONTAINER_MODE` | `docker`, `containerd` or `isula` | `docker` |
| `NPU_MONITOR_CONTAINERD_ENDPOINT` | socket that describes containers | per engine |
| `NPU_MONITOR_CRI_ENDPOINT` | socket of the CRI server | per engine |
| `NPU_MONITOR_USE_BACKUP` | also try the backup sockets | `true` |
| `NPU_MONITOR_PARSE_TIMEOUT_MS` | time limit of one poll cycle | 3000 |
| `NPU_MONITOR_POLL_INTERVAL_SECS` | time between poll cycles | 5 |

An unknown mode is no error: it is reported and `docker` is taken. Everything else that
cannot be read stops the monitor, the variables being looked at in the order
descriptor endpoint, CRI endpoint, backups, time limit, interval.
-/

set_option autoImplicit false

namespace NpuAttribution

/-- The settings of the monitor. The time limit is in milliseconds and
absent if the default holds, the interval is in seconds. -/
structure Options where
  engine : Engine
  criEndpoint : Endpoint
  descriptorEndpoint : Endpoint
  useBackup : Bool
  parseTimeout : Option Nat
  pollInterval : Nat
  deriving DecidableEq, Repr

namespace Options

/-- The time between poll cycles unless told otherwise, in seconds. -/
def defaultPollInterval : Nat := 5

/-- The time limit of a poll cycle unless told otherwise, in milliseconds. -/
def defaultParseTimeout : Nat := 3000

/-- The settings for an engine when nothing else is said. -/
def ofEngine (e : Engine) : Options :=
  { engine := e
    criEndpoint := e.criEndpoint
    descriptorEndpoint := e.descriptorEndpoint
    useBackup := true
    parseTimeout := none
    pollInterval := defaultPollInterval }

/-- The CRI sockets in the order in which they are tried. -/
def criEndpoints (o : Options) : List Endpoint :=
  o.criEndpoint.withBackups o.engine.criBackups o.useBackup

/-- The descriptor sockets in the order in which they are tried. -/
def descriptorEndpoints (o : Options) : List Endpoint :=
  o.descriptorEndpoint.withBackups o.engine.descriptorBackups o.useBackup

/-- The time limit of a poll cycle, in milliseconds. -/
def cycleTimeout (o : Options) : Nat :=
  o.parseTimeout.getD defaultParseTimeout

end Options

/-- The six settings, one for each variable. -/
inductive Setting
  | mode
  | descriptorEndpoint
  | criEndpoint
  | useBackup
  | parseTimeout
  | pollInterval
  deriving DecidableEq, Repr

/-- All settings. -/
def Setting.all : List Setting :=
  [.mode, .descriptorEndpoint, .criEndpoint, .useBackup, .parseTimeout, .pollInterval]

/-- The variable that gives a setting. -/
def Setting.name : Setting → String
  | .mode => "NPU_MONITOR_CONTAINER_MODE"
  | .descriptorEndpoint => "NPU_MONITOR_CONTAINERD_ENDPOINT"
  | .criEndpoint => "NPU_MONITOR_CRI_ENDPOINT"
  | .useBackup => "NPU_MONITOR_USE_BACKUP"
  | .parseTimeout => "NPU_MONITOR_PARSE_TIMEOUT_MS"
  | .pollInterval => "NPU_MONITOR_POLL_INTERVAL_SECS"

/-- Why a setting cannot be read. Both carry the text as it was given. -/
inductive ConfigError
  | invalidEndpoint (raw : String)
  | invalidValue (setting : Setting) (raw : String)
  deriving DecidableEq, Repr

/-- The text of a configuration error. -/
def ConfigError.message : ConfigError → String
  | .invalidEndpoint raw => s!"invalid endpoint `{raw}`: expected the path of a `.sock` file"
  | .invalidValue setting raw =>
    let name := setting.name
    s!"invalid value `{raw}` for `{name}`"

/-- The environment, as far as it matters here: the text of each
variable that is set. -/
abbrev Environment := Setting → Option String

/-- The environment with the given contents of variables. A content that
is not valid UTF-8 counts as none. -/
def Environment.ofBytes (content : String → Option (List UInt8)) : Environment := fun s =>
  (content s.name).bind fun bytes => String.fromUTF8? ⟨bytes.toArray⟩

/-- Reads an endpoint, or refuses it. -/
def Endpoint.read (raw : String) : Except ConfigError Endpoint :=
  match Endpoint.ofString? raw with
  | some e => .ok e
  | none => .error (.invalidEndpoint raw)

/-- Reads an engine's name, or refuses it. -/
def Engine.read (raw : String) : Except ConfigError Engine :=
  match Engine.ofName? raw with
  | some e => .ok e
  | none => .error (.invalidValue .mode raw)

namespace Options

/-- The endpoint that a variable names. An unset or empty variable
leaves the default, and only a text that is not empty can be refused. -/
def readEndpoint (env : Environment) (s : Setting) (default : Endpoint) :
    Except ConfigError Endpoint :=
  match env s with
  | some raw => if raw = "" then .ok default else Endpoint.read raw
  | none => .ok default

/-- Whether backups are tried, which can only be `true` or `false`. -/
def readUseBackup (env : Environment) : Except ConfigError Bool :=
  match env .useBackup with
  | none => .ok true
  | some "true" => .ok true
  | some "false" => .ok false
  | some raw => .error (.invalidValue .useBackup raw)

/-- The time limit in milliseconds. Zero selects the default, like
an unset variable. -/
def readParseTimeout (env : Environment) : Except ConfigError (Option Nat) :=
  match env .parseTimeout with
  | none => .ok none
  | some raw =>
    match Text.unsigned? UInt64.size raw.toList with
    -- Zero is a number and no error, but means that nothing is set.
    | some ms => .ok (if ms = 0 then none else some ms)
    | none => .error (.invalidValue .parseTimeout raw)

/-- The interval in seconds, at least one. -/
def readPollInterval (env : Environment) : Except ConfigError Nat :=
  match env .pollInterval with
  | none => .ok defaultPollInterval
  | some raw =>
    -- An interval of zero is refused like a text that is no number.
    match (Text.unsigned? UInt64.size raw.toList).filter (0 < ·) with
    | some secs => .ok secs
    | none => .error (.invalidValue .pollInterval raw)

/-- The engine that the mode names, and what is said about a mode
that names none. -/
def readEngine (env : Environment) : Engine × List Line :=
  match env .mode with
  | none => (.docker, [])
  | some raw =>
    match Engine.read raw with
    | .ok e => (e, [])
    -- A mode that names no engine does not stop the monitor.
    | .error e =>
      let message := e.message
      let fallback := Engine.docker.name
      (.docker, [⟨.error, s!"{message}, falling back to `{fallback}`"⟩])

/-- The settings for an engine that the remaining variables describe.
The first variable that cannot be read decides about the error, so
their order matters. -/
def readFor (engine : Engine) (env : Environment) : Except ConfigError Options := do
  let descriptorEndpoint ← readEndpoint env .descriptorEndpoint engine.descriptorEndpoint
  let criEndpoint ← readEndpoint env .criEndpoint engine.criEndpoint
  let useBackup ← readUseBackup env
  let parseTimeout ← readParseTimeout env
  let pollInterval ← readPollInterval env
  return { engine, criEndpoint, descriptorEndpoint, useBackup, parseTimeout, pollInterval }

/-- The settings that an environment describes, and what is said on the way. -/
def read (env : Environment) : Except ConfigError Options × List Line :=
  let (engine, lines) := readEngine env
  (readFor engine env, lines)

end Options

end NpuAttribution
