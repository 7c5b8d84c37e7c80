import NpuAttribution.Proofs.Runtime.Attempts
import NpuAttribution.Proofs.Session

/-!
# `NpuAttribution.Proofs.Session.Endpoints`: the endpoints that an `init` tries

The options name an endpoint for either role, and the engine may add backups. `tries_in_order`
says what the lists are that come of this, and how an `init` goes through them. As there is
always an endpoint, an `init` cannot fail for want of one, and as no path is on a list twice, none
is tried twice in the same role.
-/

set_option autoImplicit false

namespace NpuAttribution

open ConnectionPair (TriesEndpoints)
open Endpoint (Distinct)

namespace Options

/-- The endpoints of a role in the order in which they are tried. -/
def endpoints (o : Options) : Role → List Endpoint :=
  Role.pick o.criEndpoints o.descriptorEndpoints

/-- No two endpoints of a role have the same path. The backups have been
put on the list under this condition. -/
theorem distinct_endpoints (o : Options) (role : Role) : Distinct (o.endpoints role) := by
  cases role with
  | cri => exact (Endpoint.backsUp_withBackups _ _ _).distinct
  | runtime => exact (Endpoint.backsUp_withBackups _ _ _).distinct

/-- Either role has an endpoint, whatever the options are. -/
theorem endpoints_ne_nil (o : Options) (role : Role) : o.endpoints role ≠ [] := by
  cases role with
  | cri => exact Endpoint.withBackups_ne_nil _ _ _
  | runtime => exact Endpoint.withBackups_ne_nil _ _ _

end Options

namespace Session

/-- What an `init` tries in a session with the given options:

- `course`: the endpoints of both roles, with the result and the trace
  of this `init`;
- `inOrder`: what is tried in a role is what comes first among its
  endpoints;
- `once`: no path is tried twice in a role;
- `configured`: it is never said that a role has no endpoint;
- `unreachable`: if it is said that none could be reached then all have
  been tried, and none can be reached. -/
structure InitTries (o : Options) (u : Session) (tried : Role → List Endpoint) : Prop where
  course : TriesEndpoints u.host o.endpoints u.initResult (u.step .init).2 tried
  inOrder : ∀ role, tried role <+: o.endpoints role
  once : ∀ role, Distinct (tried role)
  configured : ∀ role, u.initResult ≠ .error (.noEndpoint role)
  unreachable : ∀ role es, u.initResult = .error (.connect role es) →
    es = o.endpoints role ∧ tried role = es ∧ u.host.ReachesNone es

/-- Endpoints are listed and tried in order:

- `listed`: a list with backups is that of an endpoint and its backups;
- `tried`: an `init` tries what is on the lists, from the front. -/
structure TriesInOrder (o : Options) (u : Session) : Prop where
  listed : ∀ (primary : Endpoint) (backups : List Endpoint) (useBackup : Bool),
    primary.BacksUp backups useBackup (primary.withBackups backups useBackup)
  tried : ∃ tried, InitTries o u tried

variable {o : Options} {u : Session}

/-- An `init` tries the endpoints of the options, since these are what
the client of the session has. What it tries follows from what
connecting tries. -/
theorem exists_triesEndpoints (h : Serves o u) :
    ∃ tried, TriesEndpoints u.host o.endpoints u.initResult (u.step .init).2 tried := by
  obtain ⟨tried, htries⟩ := ConnectionPair.connect_tries u.host o.endpoints_ne_nil
  obtain ⟨hresult, htrace⟩ := u.client.init_eq u.host
  rw [h.1, h.2] at hresult htrace
  refine ⟨tried, ?_⟩
  show TriesEndpoints u.host o.endpoints (u.client.init u.host).1 (u.client.init u.host).2.2 tried
  rw [hresult, htrace]
  exact htries.map fun _ => ()

/-- What an `init` tries is tried in order and once. The order is that
of the lists, and what has been tried is what comes first on them. -/
theorem exists_initTries (h : Serves o u) : ∃ tried, InitTries o u tried := by
  obtain ⟨tried, hcourse⟩ := exists_triesEndpoints h
  obtain ⟨part, -, htries⟩ := hcourse.traced
  have hfront (role : Role) := (htries role).isPrefix
  refine ⟨tried, hcourse, hfront, fun role => ?_, fun role hresult => ?_, fun role es hresult => ?_⟩
  · exact (o.distinct_endpoints role).sublist (hfront role).sublist
  · -- All errors say that endpoints have been tried.
    obtain ⟨role', herror, -⟩ := (hcourse.failed _).mp hresult
    cases herror
  · obtain ⟨role', herror, hall, hnone⟩ := (hcourse.failed _).mp hresult
    cases herror
    exact ⟨rfl, hall, hnone⟩

end Session

end NpuAttribution
