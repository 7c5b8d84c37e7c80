import NpuAttribution.Config.Options
import NpuAttribution.Proofs.Config.Endpoint
import NpuAttribution.Proofs.Text.Numeral

/-!
# `NpuAttribution.Proofs.Config.Options`: which settings are accepted, and what they come to

`Setting.Accepts` says for each variable which texts it may have, and `Describes` says which
settings an environment stands for, each of them by its own variable. `readsAs` puts the
reading of an environment between the two:

* it is accepted if no variable has a text that it may not have, and otherwise the first of
  those that have one is named, with its text;
* the mode is never refused. One that names no engine is reported once, and the rest is read
  as if it were `docker`;
* what is accepted is `Safe` to run: polls do not follow on each other without a pause, and no
  cycle is over as soon as it begins.

The variables are read one after the other, and `Settles` says what can come of one of them.
There is one such lemma for each variable, and `readFor_settles` takes them in their order.
-/

set_option autoImplicit false

namespace NpuAttribution

/-! ### What is accepted -/

/-- The texts that a variable may have. -/
def Setting.Accepts : Setting → String → Prop
  | .mode, _ => True
  | .descriptorEndpoint, raw => raw = "" ∨ ∃ path, Endpoint.Names raw path
  | .criEndpoint, raw => raw = "" ∨ ∃ path, Endpoint.Names raw path
  | .useBackup, raw => raw = "true" ∨ raw = "false"
  | .parseTimeout, raw => ∃ ms, Text.IsNumeral raw.toList ms ∧ ms < UInt64.size
  | .pollInterval, raw => ∃ secs, Text.IsNumeral raw.toList secs ∧ secs < UInt64.size ∧ 0 < secs

/-- The error about a text that a variable may not have. -/
def Setting.refusal : Setting → String → ConfigError
  | .descriptorEndpoint, raw => .invalidEndpoint raw
  | .criEndpoint, raw => .invalidEndpoint raw
  | s, raw => .invalidValue s raw

namespace Environment

/-- A variable has a text that it may not have. -/
def Offends (env : Environment) (s : Setting) (raw : String) : Prop :=
  env s = some raw ∧ ¬ s.Accepts raw

/-- The first of some variables to have a text that it may not have. -/
inductive FirstOffence (env : Environment) : List Setting → Setting → String → Prop
  | here {s : Setting} {raw : String} {others : List Setting} (h : env.Offends s raw) :
    FirstOffence env (s :: others) s raw
  | later {s t : Setting} {raw : String} {others : List Setting}
    (hfine : ∀ text, ¬ env.Offends t text) (h : FirstOffence env others s raw) :
    FirstOffence env (t :: others) s raw

variable {env : Environment} {order : List Setting} {s t : Setting} {raw text : String}

/-- The first variable to offend does offend. -/
theorem FirstOffence.offends (h : env.FirstOffence order s raw) : env.Offends s raw := by
  induction h with
  | here h => exact h
  | later _ _ ih => exact ih

/-- There is but one first offence. So the error about it is the only
one that there can be. -/
theorem FirstOffence.unique (h : env.FirstOffence order s raw)
    (h' : env.FirstOffence order t text) : s = t ∧ raw = text := by
  induction h with
  | here h =>
    cases h' with
    | here h' => exact ⟨rfl, Option.some.inj (h.1.symm.trans h'.1)⟩
    | later hfine _ => exact absurd h (hfine _)
  | later hfine _ ih =>
    cases h' with
    | here h' => exact absurd h' (hfine _)
    | later _ h' => exact ih h'

/-- The mode does not offend, because any text is accepted for it. -/
theorem not_offends_mode : ¬ env.Offends .mode raw := fun h => h.2 trivial

end Environment

/-! ### What an environment stands for -/

namespace Options

/-- The endpoint that a variable stands for: the one that it names,
or the usual one. -/
def EndpointFrom (given : Option String) (usual chosen : Endpoint) : Prop :=
  (given = none ∨ given = some "") ∧ chosen = usual ∨
    ∃ raw, given = some raw ∧ raw ≠ "" ∧ Endpoint.Names raw chosen.path

/-- The engine that a mode stands for. -/
def engineFrom (mode : Option String) : Engine :=
  (mode.bind Engine.ofName?).getD .docker

/-- The settings that an environment stands for:

- `engine`: the engine of the mode;
- `descriptorEndpoint`, `criEndpoint`: the socket that is named, or the
  engine's usual one;
- `useBackup`: backups are tried unless this is denied;
- `parseTimeout`: the time limit that is given, where zero stands for
  none;
- `pollInterval`: the interval that is given, or the usual one. -/
structure Describes (env : Environment) (o : Options) : Prop where
  engine : o.engine = engineFrom (env .mode)
  descriptorEndpoint :
    EndpointFrom (env .descriptorEndpoint) o.engine.descriptorEndpoint o.descriptorEndpoint
  criEndpoint : EndpointFrom (env .criEndpoint) o.engine.criEndpoint o.criEndpoint
  useBackup : env .useBackup = none ∧ o.useBackup = true ∨
    env .useBackup = some (if o.useBackup then "true" else "false")
  parseTimeout : env .parseTimeout = none ∧ o.parseTimeout = none ∨
    ∃ raw ms, env .parseTimeout = some raw ∧ Text.IsNumeral raw.toList ms ∧
      o.parseTimeout = if ms = 0 then none else some ms
  pollInterval : env .pollInterval = none ∧ o.pollInterval = defaultPollInterval ∨
    ∃ raw secs, env .pollInterval = some raw ∧ Text.IsNumeral raw.toList secs ∧
      o.pollInterval = secs

/-- The settings that a monitor can run with: there is a pause between
polls, every limit of a poll cycle leaves it some time, and the
endpoints are paths of sockets. -/
structure Safe (o : Options) : Prop where
  pollInterval : 1 ≤ o.pollInterval
  parseTimeout : ∀ ms, o.parseTimeout = some ms → 1 ≤ ms
  cycleTimeout : 1 ≤ o.cycleTimeout
  descriptorEndpoint : o.descriptorEndpoint.path ≠ "" ∧
    ∃ stem, o.descriptorEndpoint.path = stem ++ Endpoint.suffix
  criEndpoint : o.criEndpoint.path ≠ "" ∧ ∃ stem, o.criEndpoint.path = stem ++ Endpoint.suffix

/-! ### Reading one variable after the other -/

/-- What can come of the reading of a variable: a value that is as it
should be, if the text is one that the variable may have, or else the
error about the text. -/
inductive Settles {α : Type} (env : Environment) (s : Setting) (P : α → Prop)
    (x : Except ConfigError α) : Prop
  | read (a : α) (hread : x = .ok a) (hvalue : P a) (hfine : ∀ raw, ¬ env.Offends s raw)
  | refused (raw : String) (hrefused : x = .error (s.refusal raw)) (hoffends : env.Offends s raw)

variable (env : Environment)

/-- A variable that is not set does not offend. -/
theorem not_offends_of_none {env : Environment} {s : Setting} (h : env s = none) (raw : String) :
    ¬ env.Offends s raw := by
  rintro ⟨hset, -⟩
  rw [h] at hset
  cases hset

/-- A variable does not offend with a text that it may have. -/
theorem not_offends_of_accepts {env : Environment} {s : Setting} {text : String}
    (h : env s = some text) (haccepts : s.Accepts text) (raw : String) : ¬ env.Offends s raw := by
  rintro ⟨hset, hnot⟩
  rw [h] at hset
  cases hset
  exact hnot haccepts

/-- Both endpoints are read in the same way. The empty text stands for
the usual endpoint, and any other text must name a socket. The
hypotheses say that the variable is one of the two. -/
theorem settles_endpoint {s : Setting} (usual : Endpoint)
    (haccepts : ∀ raw, s.Accepts raw ↔ raw = "" ∨ ∃ path, Endpoint.Names raw path)
    (hrefusal : ∀ raw, s.refusal raw = .invalidEndpoint raw) :
    Settles env s (EndpointFrom (env s) usual) (readEndpoint env s usual) := by
  unfold readEndpoint
  cases hset : env s with
  | none => exact .read usual rfl (.inl ⟨.inl rfl, rfl⟩) (not_offends_of_none hset)
  | some raw =>
    -- The reader looks for the empty text first, as it names no socket and would be
    -- refused.
    by_cases hempty : raw = ""
    · subst hempty
      exact .read usual rfl (.inl ⟨.inr rfl, rfl⟩)
        (not_offends_of_accepts hset ((haccepts "").mpr (.inl rfl)))
    · simp only [if_neg hempty]
      cases hread : Endpoint.ofString? raw with
      | some e =>
        have hnames := Endpoint.ofString?_eq_some_iff.mp hread
        refine .read e ?_ (.inr ⟨raw, rfl, hempty, hnames⟩)
          (not_offends_of_accepts hset ((haccepts raw).mpr (.inr ⟨e.path, hnames⟩)))
        unfold Endpoint.read
        rw [hread]
      | none =>
        refine .refused raw ?_ ⟨hset, ?_⟩
        · unfold Endpoint.read
          rw [hread, hrefusal]
        -- The text is not empty and names no socket, and these are the only ways not
        -- to offend.
        · rw [haccepts]
          rintro (h | ⟨path, hnames⟩)
          · exact hempty h
          · have hsome := Endpoint.ofString?_eq_some_iff (e := ⟨path⟩).mpr hnames
            rw [hread] at hsome
            cases hsome

/-- Whether backups are tried is one of two words, or not said at all.
No other spelling of the words is accepted. -/
theorem settles_useBackup : Settles env .useBackup
    (fun b => env .useBackup = none ∧ b = true ∨
      env .useBackup = some (if b then "true" else "false")) (readUseBackup env) := by
  unfold readUseBackup
  cases hset : env .useBackup with
  | none => exact .read true rfl (.inl ⟨rfl, rfl⟩) (not_offends_of_none hset)
  | some raw =>
    by_cases htrue : raw = "true"
    · subst htrue
      exact .read true rfl (.inr rfl) (not_offends_of_accepts hset (.inl rfl))
    · by_cases hfalse : raw = "false"
      · subst hfalse
        exact .read false rfl (.inr rfl) (not_offends_of_accepts hset (.inr rfl))
      -- All other texts are refused, with the text in the error.
      · refine .refused raw ?_ ⟨hset, ?_⟩
        · split
          · contradiction
          · rename_i h
            exact absurd (Option.some.inj h) htrue
          · rename_i h
            exact absurd (Option.some.inj h) hfalse
          · rename_i h
            rw [← Option.some.inj h]
            rfl
        · rintro (h | h)
          · exact htrue h
          · exact hfalse h

/-- The time limit is a numeral of 64 bits, or not given. Zero is
accepted and stands for no limit of its own. -/
theorem settles_parseTimeout : Settles env .parseTimeout
    (fun limit => env .parseTimeout = none ∧ limit = none ∨
      ∃ raw ms, env .parseTimeout = some raw ∧ Text.IsNumeral raw.toList ms ∧
        limit = if ms = 0 then none else some ms) (readParseTimeout env) := by
  unfold readParseTimeout
  cases hset : env .parseTimeout with
  | none => exact .read none rfl (.inl ⟨rfl, rfl⟩) (not_offends_of_none hset)
  | some raw =>
    cases hread : Text.unsigned? UInt64.size raw.toList with
    | some ms =>
      have hms := Text.unsigned?_eq_some_iff.mp hread
      refine .read (if ms = 0 then none else some ms) ?_ (.inr ⟨raw, ms, rfl, hms.1, rfl⟩)
        (not_offends_of_accepts hset ⟨ms, hms⟩)
      simp only [hread]
    | none =>
      refine .refused raw ?_ ⟨hset, ?_⟩
      · simp only [hread]
        rfl
      · rintro ⟨ms, hms⟩
        rw [Text.unsigned?_eq_some_iff.mpr hms] at hread
        cases hread

/-- The interval is a numeral of 64 bits other than zero, or not given. The
part of the value that `Safe` needs is said here, as it is tested here. -/
theorem settles_pollInterval : Settles env .pollInterval
    (fun interval => 1 ≤ interval ∧ (env .pollInterval = none ∧ interval = defaultPollInterval ∨
      ∃ raw secs, env .pollInterval = some raw ∧ Text.IsNumeral raw.toList secs ∧
        interval = secs)) (readPollInterval env) := by
  unfold readPollInterval
  cases hset : env .pollInterval with
  | none =>
    exact .read defaultPollInterval rfl ⟨by decide, .inl ⟨rfl, rfl⟩⟩ (not_offends_of_none hset)
  | some raw =>
    cases hread : (Text.unsigned? UInt64.size raw.toList).filter (0 < ·) with
    | some secs =>
      obtain ⟨hsecs, hpos⟩ := Option.filter_eq_some_iff.mp hread
      have hpos : 0 < secs := of_decide_eq_true hpos
      obtain ⟨hnumeral, hlt⟩ := Text.unsigned?_eq_some_iff.mp hsecs
      refine .read secs ?_ ⟨hpos, .inr ⟨raw, secs, rfl, hnumeral, rfl⟩⟩
        (not_offends_of_accepts hset ⟨secs, hnumeral, hlt, hpos⟩)
      simp only [hread]
    | none =>
      refine .refused raw ?_ ⟨hset, ?_⟩
      · simp only [hread]
        rfl
      · rintro ⟨secs, hnumeral, hlt, hpos⟩
        rw [Text.unsigned?_eq_some_iff.mpr ⟨hnumeral, hlt⟩, Option.filter_some,
          if_pos (decide_eq_true hpos)] at hread
        cases hread

/-- The variables are read in their order, and the first that offends ends
the reading. There are five of them after the mode, each with its own
lemma, and a variable is reached only if those before it have been read. -/
theorem readFor_settles :
    (∃ o, readFor (engineFrom (env .mode)) env = .ok o ∧ Describes env o ∧ 1 ≤ o.pollInterval ∧
      ∀ s raw, ¬ env.Offends s raw) ∨
    ∃ s raw, readFor (engineFrom (env .mode)) env = .error (s.refusal raw) ∧
      env.FirstOffence Setting.all s raw := by
  have hmode (text : String) : ¬ env.Offends .mode text := Environment.not_offends_mode
  cases settles_endpoint (s := .descriptorEndpoint) env
      (engineFrom (env .mode)).descriptorEndpoint (fun _ => .rfl) (fun _ => rfl) with
  | refused raw h hoffends =>
    refine .inr ⟨.descriptorEndpoint, raw, ?_, .later hmode (.here hoffends)⟩
    simp only [readFor, bind, Except.bind, h]
  | read descriptor hdescriptor vdescriptor fdescriptor =>
  cases settles_endpoint (s := .criEndpoint) env
      (engineFrom (env .mode)).criEndpoint (fun _ => .rfl) (fun _ => rfl) with
  | refused raw h hoffends =>
    refine .inr ⟨.criEndpoint, raw, ?_, .later hmode (.later fdescriptor (.here hoffends))⟩
    simp only [readFor, bind, Except.bind, hdescriptor, h]
  | read cri hcri vcri fcri =>
  cases settles_useBackup env with
  | refused raw h hoffends =>
    refine .inr ⟨.useBackup, raw, ?_,
      .later hmode (.later fdescriptor (.later fcri (.here hoffends)))⟩
    simp only [readFor, bind, Except.bind, hdescriptor, hcri, h]
  | read useBackup huse vuse fuse =>
  cases settles_parseTimeout env with
  | refused raw h hoffends =>
    refine .inr ⟨.parseTimeout, raw, ?_,
      .later hmode (.later fdescriptor (.later fcri (.later fuse (.here hoffends))))⟩
    simp only [readFor, bind, Except.bind, hdescriptor, hcri, huse, h]
  | read limit hlimit vlimit flimit =>
  cases settles_pollInterval env with
  | refused raw h hoffends =>
    refine .inr ⟨.pollInterval, raw, ?_,
      .later hmode (.later fdescriptor (.later fcri (.later fuse
        (.later flimit (.here hoffends)))))⟩
    simp only [readFor, bind, Except.bind, hdescriptor, hcri, huse, hlimit, h]
  | read interval hinterval vinterval finterval =>
    -- All of them have been read, so none has offended.
    refine .inl ⟨⟨engineFrom (env .mode), cri, descriptor, useBackup, limit, interval⟩, ?_,
      ⟨rfl, vdescriptor, vcri, vuse, vlimit, vinterval.2⟩, vinterval.1, ?_⟩
    · simp only [readFor, bind, Except.bind, hdescriptor, hcri, huse, hlimit, hinterval]
      rfl
    · intro s
      cases s with
      | mode => exact hmode
      | descriptorEndpoint => exact fdescriptor
      | criEndpoint => exact fcri
      | useBackup => exact fuse
      | parseTimeout => exact flimit
      | pollInterval => exact finterval

/-! ### The mode -/

/-- An engine is known by its name, and by nothing else. -/
theorem Engine.ofName?_eq_some_iff {raw : String} {e : Engine} :
    Engine.ofName? raw = some e ↔ raw = e.name := by
  constructor
  · intro h
    have hname := List.find?_some h
    exact (of_decide_eq_true hname).symm
  · rintro rfl
    cases e <;> rfl

/-- What is told about a mode that names no engine. -/
def unknownMode (raw : String) : Line :=
  ⟨.error, s!"invalid value `{raw}` for `NPU_MONITOR_CONTAINER_MODE`, falling back to `docker`"⟩

/-- The line about a mode is the text of the error about it, with what
is done instead. -/
theorem unknownMode_text (raw : String) :
    (ConfigError.invalidValue .mode raw).message ++ ", falling back to `" ++ Engine.docker.name ++
      "`" = (unknownMode raw).text := by
  have htail : "` for `" ++ (Setting.mode.name ++ ("`" ++ (", falling back to `" ++
      (Engine.docker.name ++ "`")))) =
      "` for `NPU_MONITOR_CONTAINER_MODE`, falling back to `docker`" := by decide
  show "invalid value `" ++ raw ++ "` for `" ++ Setting.mode.name ++ "`" ++
    ", falling back to `" ++ Engine.docker.name ++ "`" = _
  simp only [String.append_assoc, htail]
  rfl

/-- A mode that names an engine gives this engine. Any other one
gives `docker` and a line, and if no mode is given then it is
`docker` without a line. -/
theorem readEngine_eq : readEngine env = (engineFrom (env .mode),
    ((env .mode).filter fun raw => (Engine.ofName? raw).isNone).toList.map unknownMode) := by
  unfold readEngine engineFrom
  cases env .mode with
  | none => rfl
  | some raw =>
    simp only [Engine.read, Option.bind_some, Option.filter_some]
    cases Engine.ofName? raw with
    | none =>
      exact congrArg (fun text => (Engine.docker, [Line.mk .error text])) (unknownMode_text raw)
    | some e => rfl

/-- A mode that names no engine is as good as `docker`, but for the
line about it. All that is read later depends on the mode through
the engine only. -/
theorem read_unnamed {raw : String} (hmode : env .mode = some raw)
    (h : ∀ e : Engine, raw ≠ e.name) :
    read env = ((read (Function.update env .mode (some "docker"))).1, [unknownMode raw]) := by
  have hnone : Engine.ofName? raw = none := by
    cases hsome : Engine.ofName? raw with
    | none => rfl
    | some e => exact absurd (Engine.ofName?_eq_some_iff.mp hsome) (h e)
  have hengine : engineFrom (env .mode) = .docker := by
    rw [hmode]
    show (Engine.ofName? raw).getD .docker = .docker
    rw [hnone]
    rfl
  have hlines : ((env .mode).filter fun raw => (Engine.ofName? raw).isNone) = some raw := by
    rw [hmode, Option.filter_some, hnone]
    rfl
  show ((readFor (readEngine env).1 env, (readEngine env).2) : _ × _) = _
  rw [readEngine_eq, hengine, hlines]
  rfl

/-- Nothing is told about a mode that is not set or names an engine. -/
theorem lines_of_named (h : ∀ raw, env .mode = some raw → ∃ e : Engine, raw = e.name) :
    (read env).2 = [] := by
  show (readEngine env).2 = []
  rw [readEngine_eq]
  cases hmode : env .mode with
  | none => rfl
  | some raw =>
    obtain ⟨e, he⟩ := h raw hmode
    rw [Option.filter_some, Engine.ofName?_eq_some_iff.mpr he]
    rfl

/-! ### What follows for the settings -/

section

variable {env env' : Environment} {o o' : Options}

/-- The usual endpoints are paths of sockets, for each of the engines. -/
theorem socket_usual (e : Engine) :
    (∃ stem, e.descriptorEndpoint.path = stem ++ Endpoint.suffix) ∧
      ∃ stem, e.criEndpoint.path = stem ++ Endpoint.suffix := by
  cases e with
  | docker => exact ⟨⟨"/run/docker/containerd/docker-containerd", rfl⟩, "/run/dockershim", rfl⟩
  | containerd => exact ⟨⟨"/run/containerd/containerd", rfl⟩, "/run/containerd/containerd", rfl⟩
  | isula => exact ⟨⟨"/run/isulad", rfl⟩, "/run/isulad", rfl⟩

/-- The endpoint that a variable stands for is the path of a socket if
the usual one is. -/
theorem EndpointFrom.socket {given : Option String} {usual chosen : Endpoint}
    (h : EndpointFrom given usual chosen) (husual : ∃ stem, usual.path = stem ++ Endpoint.suffix) :
    ∃ stem, chosen.path = stem ++ Endpoint.suffix := by
  cases h with
  | inl h => rw [h.2]; exact husual
  | inr h =>
    obtain ⟨raw, -, -, hnames⟩ := h
    exact hnames.socket

/-- Settings that an environment stands for can be run with, if there
is a pause. The cycle has its usual limit if none is given, and this
one is not zero. -/
theorem Describes.safe (h : Describes env o) (hinterval : 1 ≤ o.pollInterval) : Safe o := by
  have hlimit (ms : Nat) (hms : o.parseTimeout = some ms) : 1 ≤ ms := by
    cases h.parseTimeout with
    | inl hunset => rw [hunset.2] at hms; cases hms
    | inr hset =>
      obtain ⟨raw, given, -, -, hgiven⟩ := hset
      rw [hgiven] at hms
      split at hms
      · cases hms
      · cases hms
        omega
  have hdescriptor := h.descriptorEndpoint.socket (socket_usual o.engine).1
  have hcri := h.criEndpoint.socket (socket_usual o.engine).2
  refine ⟨hinterval, hlimit, ?_, ⟨Endpoint.ne_empty_of_socket hdescriptor, hdescriptor⟩,
    Endpoint.ne_empty_of_socket hcri, hcri⟩
  unfold cycleTimeout
  cases htimeout : o.parseTimeout with
  | none => decide
  | some ms => exact hlimit ms htimeout

/-- A variable stands for one endpoint. It cannot be empty and name a
socket, so the two ways to choose never meet. -/
theorem EndpointFrom.unique {given : Option String} {usual chosen chosen' : Endpoint}
    (h : EndpointFrom given usual chosen) (h' : EndpointFrom given usual chosen') :
    chosen = chosen' := by
  cases h with
  | inl h =>
    cases h' with
    | inl h' => exact h.2.trans h'.2.symm
    | inr h' =>
      -- The usual endpoint was chosen for a text that is absent or empty, and this
      -- one is neither.
      obtain ⟨raw, rfl, hne, -⟩ := h'
      cases h.1 with
      | inl hnone => cases hnone
      | inr hempty => exact absurd (Option.some.inj hempty) hne
  | inr h =>
    obtain ⟨raw, rfl, hne, hnames⟩ := h
    cases h' with
    | inl h' =>
      cases h'.1 with
      | inl hnone => cases hnone
      | inr hempty => exact absurd (Option.some.inj hempty) hne
    | inr h' =>
      obtain ⟨raw', hraw, -, hnames'⟩ := h'
      cases hraw
      have hpath := hnames.unique hnames'
      cases chosen
      cases chosen'
      exact congrArg Endpoint.mk hpath

/-- A variable that is not set or holds a numeral stands for one value.
The time limit and the interval are both of this kind, with different
things made of the numeral. -/
theorem eq_of_numeral {α : Type} {given : Option String} {usual a b : α} {value : Nat → α}
    (ha : given = none ∧ a = usual ∨
      ∃ raw n, given = some raw ∧ Text.IsNumeral raw.toList n ∧ a = value n)
    (hb : given = none ∧ b = usual ∨
      ∃ raw n, given = some raw ∧ Text.IsNumeral raw.toList n ∧ b = value n) : a = b := by
  cases ha with
  | inl ha =>
    cases hb with
    | inl hb => exact ha.2.trans hb.2.symm
    | inr hb =>
      obtain ⟨raw, n, hset, -⟩ := hb
      rw [ha.1] at hset
      cases hset
  | inr ha =>
    obtain ⟨raw, n, rfl, hn, rfl⟩ := ha
    cases hb with
    | inl hb => cases hb.1
    | inr hb =>
      obtain ⟨raw', m, hraw, hm, rfl⟩ := hb
      cases hraw
      rw [hn.unique hm]

/-- Each setting depends on its own variable, and the usual
endpoints on the engine. -/
structure OwnSettings (env env' : Environment) (o o' : Options) : Prop where
  engine : env .mode = env' .mode → o.engine = o'.engine
  descriptorEndpoint : env .descriptorEndpoint = env' .descriptorEndpoint → o.engine = o'.engine →
    o.descriptorEndpoint = o'.descriptorEndpoint
  criEndpoint : env .criEndpoint = env' .criEndpoint → o.engine = o'.engine →
    o.criEndpoint = o'.criEndpoint
  useBackup : env .useBackup = env' .useBackup → o.useBackup = o'.useBackup
  parseTimeout : env .parseTimeout = env' .parseTimeout → o.parseTimeout = o'.parseTimeout
  pollInterval : env .pollInterval = env' .pollInterval → o.pollInterval = o'.pollInterval

/-- A variable that is not set or holds one of the two words stands for
one answer. -/
theorem eq_of_word {given : Option String} {a b : Bool}
    (ha : given = none ∧ a = true ∨ given = some (if a then "true" else "false"))
    (hb : given = none ∧ b = true ∨ given = some (if b then "true" else "false")) : a = b := by
  cases ha with
  | inl ha =>
    cases hb with
    | inl hb => exact ha.2.trans hb.2.symm
    | inr hb => rw [ha.1] at hb; cases hb
  | inr ha =>
    subst ha
    cases hb with
    | inl hb => cases hb.1
    | inr hb =>
      have hword := Option.some.inj hb
      cases a <;> cases b <;> first | rfl | exact absurd hword (by decide)

/-- What environments stand for is the same as far as their variables
are. Since one environment stands for one set of settings, this needs no
look at the reader. -/
theorem Describes.own (h : Describes env o) (h' : Describes env' o') :
    OwnSettings env env' o o' where
  engine hmode := by rw [h.engine, h'.engine, hmode]
  descriptorEndpoint hset hengine := by
    have hchosen := h.descriptorEndpoint
    rw [hset, hengine] at hchosen
    exact hchosen.unique h'.descriptorEndpoint
  criEndpoint hset hengine := by
    have hchosen := h.criEndpoint
    rw [hset, hengine] at hchosen
    exact hchosen.unique h'.criEndpoint
  useBackup hset := by
    have huse := h.useBackup
    rw [hset] at huse
    exact eq_of_word huse h'.useBackup
  parseTimeout hset := by
    have hlimit := h.parseTimeout
    rw [hset] at hlimit
    exact eq_of_numeral hlimit h'.parseTimeout
  pollInterval hset := by
    have hinterval := h.pollInterval
    rw [hset] at hinterval
    exact eq_of_numeral hinterval h'.pollInterval

end

/-- What reading an environment comes to:

- `accepted`: it is successful if no variable has a text that it may
  not have;
- `refused`: otherwise it ends with the error about the first
  variable that has one;
- `described`, `safe`: what is read is what the environment stands
  for, and one can run with it;
- `own`: each setting depends on its own variable;
- `named`, `unnamed`: nothing is told about a mode that is not set
  or names an engine, and one line about any other mode, which is
  taken for `docker`. -/
structure ReadsAs (env : Environment) (result : Except ConfigError Options × List Line) : Prop where
  accepted : (∃ o, result.1 = .ok o) ↔ ∀ s raw, ¬ env.Offends s raw
  refused : ∀ e, result.1 = .error e ↔
    ∃ s raw, env.FirstOffence Setting.all s raw ∧ e = s.refusal raw
  described : ∀ o, result.1 = .ok o → Describes env o
  safe : ∀ o, result.1 = .ok o → Safe o
  own : ∀ env' o o', result.1 = .ok o → (read env').1 = .ok o' → OwnSettings env env' o o'
  named : (∀ raw, env .mode = some raw → ∃ e : Engine, raw = e.name) → result.2 = []
  unnamed : ∀ raw, env .mode = some raw → (∀ e : Engine, raw ≠ e.name) →
    result = ((read (Function.update env .mode (some "docker"))).1, [unknownMode raw])

/-- The settings are read for the engine of the mode, and the line about
the mode has no part in it. -/
theorem fst_read : (read env).1 = readFor (engineFrom (env .mode)) env := by
  show readFor (readEngine env).1 env = _
  rw [readEngine_eq]

/-- What is read successfully is what the environment stands for. Of the
two cases of `readFor_settles` only one is successful. -/
theorem describes_of_read {env : Environment} {o : Options} (h : (read env).1 = .ok o) :
    Describes env o ∧ 1 ≤ o.pollInterval ∧ ∀ s raw, ¬ env.Offends s raw := by
  rw [fst_read] at h
  cases readFor_settles env with
  | inl hread =>
    obtain ⟨o', hread, hdescribes⟩ := hread
    rw [h] at hread
    cases hread
    exact hdescribes
  | inr hrefused =>
    obtain ⟨s, raw, hrefused, -⟩ := hrefused
    rw [h] at hrefused
    cases hrefused

/-- Settings are accepted if they are valid, and then one can run with
them. Everything here follows from `readFor_settles`, since an
environment either offends or it does not, and from `describes_of_read`,
which says what the settings are in the second case. -/
theorem readsAs : ReadsAs env (read env) where
  accepted := by
    constructor
    · rintro ⟨o, ho⟩
      exact (describes_of_read ho).2.2
    · intro hfine
      cases readFor_settles env with
      | inl hread =>
        obtain ⟨o, hread, -⟩ := hread
        exact ⟨o, (fst_read env).trans hread⟩
      | inr hrefused =>
        obtain ⟨s, raw, -, hfirst⟩ := hrefused
        exact absurd hfirst.offends (hfine s raw)
  refused e := by
    rw [fst_read]
    cases readFor_settles env with
    | inl hread =>
      obtain ⟨o, hread, -, -, hfine⟩ := hread
      constructor
      · intro he
        rw [hread] at he
        cases he
      · rintro ⟨s, raw, hfirst, -⟩
        exact absurd hfirst.offends (hfine s raw)
    | inr hrefused =>
      obtain ⟨s, raw, hrefused, hfirst⟩ := hrefused
      rw [hrefused]
      constructor
      · intro he
        exact ⟨s, raw, hfirst, (Except.error.inj he).symm⟩
      · rintro ⟨s', raw', hfirst', rfl⟩
        obtain ⟨rfl, rfl⟩ := hfirst.unique hfirst'
        rfl
  described o ho := (describes_of_read ho).1
  safe o ho := (describes_of_read ho).1.safe (describes_of_read ho).2.1
  own env' o o' ho ho' := (describes_of_read ho).1.own (describes_of_read ho').1
  named := lines_of_named env
  unnamed raw hmode h := read_unnamed env hmode h

-- The interval is not valid either, but the time limit comes first.
example : (read fun
      | .mode => some "podman"
      | .parseTimeout => some "-1"
      | .pollInterval => some "0"
      | _ => none) = (.error (.invalidValue .parseTimeout "-1"), [unknownMode "podman"]) := by
  decide +kernel

end Options

end NpuAttribution
