import NpuAttribution.Poll.Inspection

/-!
# `NpuAttribution.Proofs.Runtime.Requests`: what a client asks, and whom

A client that is not connected asks nothing. A client that is connected makes one request for
one question, and the request goes to the side of its pair to which it belongs (`Routes`).
-/

set_option autoImplicit false

namespace NpuAttribution

/-- The methods by which containers are described. -/
def descriptorMethods : List String := [Containerd.getContainer, Isulad.inspect]

/-- A request goes to the side of a pair to which it belongs:

- `listing`: requests for the running containers go to the CRI side;
- `descriptor`: all others are requests for descriptors and go to
  the runtime side. -/
structure Request.GoesTo (r : Request) (pair : ConnectionPair) : Prop where
  listing : r.method = Cri.listContainers → r.socket = pair.cri
  descriptor : r.method ≠ Cri.listContainers →
    r.method ∈ descriptorMethods ∧ r.socket = pair.runtime

/-- A request for descriptors is not one for the running containers. -/
theorem ne_listContainers {method : String} (h : method ∈ descriptorMethods) :
    method ≠ Cri.listContainers := by
  rintro rfl
  revert h
  decide +kernel

namespace Client

/-- The request for the descriptor of a container, which depends on the engine. -/
def descriptorRequest (c : Client) (pair : ConnectionPair) (id : ContainerId) : Request :=
  match c.shape with
  | .oci => specRequest c.engine pair id
  | .isula => inspectRequest pair id

/-- All requests go where they belong, over the pair that the client holds. -/
def Routes (c : Client) (rs : List Request) : Prop :=
  ∀ r ∈ rs, ∃ pair, c.connections = some pair ∧ r.GoesTo pair

section

variable (services : Services) (c : Client)

/-- The running containers are asked for once, over the pair if one is held. -/
theorem requests_list : (c.list services).2.requests = c.connections.toList.map listRequest := by
  unfold list
  cases c.connections with
  | none => rfl
  | some pair =>
    simp only
    split <;> rfl

/-- The OCI spec of a container is asked for once, if there are such specs. -/
theorem requests_spec (id : ContainerId) :
    (c.spec services id).2.requests
      = if c.shape = .oci then c.connections.toList.map (specRequest c.engine · id) else [] := by
  unfold spec
  cases c.shape with
  | isula => rfl
  | oci => cases c.connections <;> rfl

/-- The iSulad document of a container is asked for once, if there
are such documents. -/
theorem requests_isulaContainer (id : ContainerId) :
    (c.isulaContainer services id).2.requests
      = if c.shape = .isula then c.connections.toList.map (inspectRequest · id) else [] := by
  unfold isulaContainer
  cases c.shape with
  | oci => rfl
  | isula => cases c.connections <;> rfl

/-- An inspection asks for the descriptor of its container in the
way of the engine. -/
theorem requests_inspectBy (ct : ListedContainer) :
    (Poll.inspectBy services c ct).trace.requests
      = c.connections.toList.map (c.descriptorRequest · ct.id) := by
  unfold Poll.inspectBy descriptorRequest
  cases hshape : c.shape with
  | oci => exact (c.requests_spec services ct.id).trans (if_pos hshape)
  | isula => exact (c.requests_isulaContainer services ct.id).trans (if_pos hshape)

/-- A question asked over the pair that is held goes where it belongs. -/
theorem routes_map {question : ConnectionPair → Request}
    (h : ∀ pair, (question pair).GoesTo pair) : c.Routes (c.connections.toList.map question) := by
  intro r hr
  obtain ⟨pair, hpair, rfl⟩ := List.mem_map.mp hr
  exact ⟨pair, Option.mem_toList.mp hpair, h pair⟩

/-- A question that goes to the runtime side and has one of its methods
goes where it belongs. -/
theorem goesTo_of_descriptor {r : Request} {pair : ConnectionPair}
    (hmethod : r.method ∈ descriptorMethods) (hsocket : r.socket = pair.runtime) :
    r.GoesTo pair :=
  ⟨fun heq => absurd heq (ne_listContainers hmethod), fun _ => ⟨hmethod, hsocket⟩⟩

/-- Where nothing is asked, nothing goes astray. -/
theorem routes_nil : c.Routes [] := nofun

/-- Listing the containers asks the CRI side. -/
theorem routes_list : c.Routes (c.list services).2.requests := by
  rw [requests_list]
  exact c.routes_map fun pair => ⟨fun _ => rfl, fun hne => absurd rfl hne⟩

/-- Asking for a spec asks the runtime side. -/
theorem routes_spec (id : ContainerId) : c.Routes (c.spec services id).2.requests := by
  rw [requests_spec]
  split
  · exact c.routes_map fun pair => goesTo_of_descriptor List.mem_cons_self rfl
  · exact c.routes_nil

/-- Asking for a document asks the runtime side. -/
theorem routes_isulaContainer (id : ContainerId) :
    c.Routes (c.isulaContainer services id).2.requests := by
  rw [requests_isulaContainer]
  split
  · exact c.routes_map fun pair =>
      goesTo_of_descriptor (List.mem_cons_of_mem _ List.mem_cons_self) rfl
  · exact c.routes_nil

/-- An inspection asks the runtime side, whichever runtime there is. -/
theorem routes_inspectBy (ct : ListedContainer) :
    c.Routes (Poll.inspectBy services c ct).trace.requests := by
  unfold Poll.inspectBy
  split
  · exact c.routes_spec services ct.id
  · exact c.routes_isulaContainer services ct.id

end

end Client

end NpuAttribution
