import NpuAttribution.Proofs.Poll.Fetches
import NpuAttribution.Proofs.Runtime.Replies

/-!
# `NpuAttribution.Proofs.Poll.ClientFetches`: fetching through a connected client

What `Fetches` says about backends of any kind is put here in terms of the requests that a
connected client sends and of the replies that it gets. Any reply can be given to any
request: any bytes or any status.

There are three cases. The containers cannot be listed, and then nothing else is asked and
nothing is delivered. The reply lists too many containers or none with an admissible id, and
then nothing else is asked either, but the empty snapshot is delivered. In all other cases
there is one more request for each container with an admissible id, and what comes of it is
`AccountedFor`.
-/

set_option autoImplicit false

namespace NpuAttribution.Poll

/-- A container of a reply has an admissible id, of 1 to 255 bytes. -/
def Admissible (raw : Cri.Container) : Prop :=
  0 < raw.id.utf8ByteSize ∧ raw.id.utf8ByteSize ≤ 255

instance : DecidablePred Admissible := fun raw =>
  inferInstanceAs (Decidable (0 < raw.id.utf8ByteSize ∧ raw.id.utf8ByteSize ≤ 255))

/-- A container is listed with what the reply says about it: its id, the
name in its metadata or the empty name if it has none, and its labels. -/
structure ListedAs (raw : Cri.Container) (ct : ListedContainer) : Prop where
  id : ct.id.text = raw.id
  name : ct.name = (raw.metadata.map (·.name)).getD ""
  labels : ct.labels = raw.labels

/-- A fetch has inspected the containers of a reply, of which there are
some with an admissible id. It found something for each of them, and by
this the container has an entry or none and an error or none:

- `admitted`: the containers are those of the reply with admissible ids,
  in its order;
- `handed`: one snapshot is delivered;
- `asked`: after the listing there is one request for the descriptor of
  each container;
- `replied`: what is found for a container is what the reply to this
  request gives;
- `each`: by what is found the container is accounted for, by an entry,
  by an error or because it has no devices;
- `errors`: the errors of the containers are reported, and no others;
- `listed`: an entry of the snapshot is that of a container with its key
  as id;
- `once`: a container that is listed once has its own entry in the
  snapshot, if it has one. -/
structure Inspects (services : Services) (client : Client) (pair : ConnectionPair)
    (majors : List Nat) (raws : List Cri.Container) (s : State) (es : List Event) (k : Nat)
    (containers : List ListedContainer) (snapshot : Snapshot) (found : ListedContainer → Found)
    (entry : ListedContainer → Option Assignment)
    (error : ListedContainer → Option MonitorError) : Prop where
  admitted : List.Forall₂ ListedAs (raws.filter Admissible) containers
  handed : s.observe k Cycle.delivered es = [snapshot]
  asked : ∃ rest,
    s.observe k (Cycle.asked (.ofClient services client)) es = Client.listRequest pair :: rest ∧
    rest.Perm (containers.map fun ct => client.descriptorRequest pair ct.id)
  replied : ∀ ct ∈ containers,
    (services (client.descriptorRequest pair ct.id)).Gives client.shape ct.id (found ct)
  each : ∀ ct ∈ containers, AccountedFor majors ct (found ct) (entry ct) (error ct)
  errors : (s.observe k Cycle.errors es).Perm (containers.filterMap error)
  listed : ∀ key a, snapshot.get? key = some a →
    ∃ ct ∈ containers, ct.id.text = key ∧ entry ct = some a
  once : ∀ i ct, ListedOnce containers i ct → snapshot.get? ct.id.text = entry ct

/-- A fetch through a connected client accounts for all containers:

- `unlisted`: if the reply to the listing means an error, then this is
  the one error, nothing is delivered, and nothing else is asked;
- `nothing`: if too many containers are listed or none has an admissible
  id, then the empty snapshot is delivered, there is no error, and
  nothing else is asked;
- `inspected`: otherwise the containers with admissible ids are
  inspected, and each of them is accounted for;
- `reported`: all errors are queued or, if there is no room, dropped. -/
structure AccountsForAll (services : Services) (client : Client) (pair : ConnectionPair)
    (majors : List Nat) (s : State) (es : List Event) (k : Nat) : Prop where
  unlisted : ∀ e, (services (Client.listRequest pair)).Means Cri.listContainers
      (.error e : Except RuntimeError Cri.ListContainersResponse) →
    s.observe k Cycle.delivered es = [] ∧ s.observe k Cycle.errors es = [.runtime e] ∧
    s.observe k (Cycle.asked (.ofClient services client)) es = [Client.listRequest pair]
  nothing : ∀ response : Cri.ListContainersResponse,
    (services (Client.listRequest pair)).Means Cri.listContainers (.ok response) →
    (Listing.maxContainers < response.containers.length ∨
      ∀ raw ∈ response.containers, ¬ Admissible raw) →
    s.observe k Cycle.delivered es = [.empty] ∧ s.observe k Cycle.errors es = [] ∧
    s.observe k (Cycle.asked (.ofClient services client)) es = [Client.listRequest pair]
  inspected : ∀ response : Cri.ListContainersResponse,
    (services (Client.listRequest pair)).Means Cri.listContainers (.ok response) →
    response.containers.length ≤ Listing.maxContainers →
    (∃ raw ∈ response.containers, Admissible raw) →
    ∃ containers snapshot found entry error,
      Inspects services client pair majors response.containers s es k containers snapshot found
        entry error
  reported : ∀ e ∈ s.observe k Cycle.errors es,
    ∃ m u v, Occurs State.step? s es (.move k m) u v ∧ State.Reported u v e

section

variable {services : Services} {client : Client} {pair : ConnectionPair}

/-- If the reply to the listing means an error, then the containers
cannot be listed, and this error is the reason. -/
theorem list_of_error (hconn : client.connections = some pair) {e : RuntimeError}
    (h : (services (Client.listRequest pair)).Means Cri.listContainers
      (.error e : Except RuntimeError Cri.ListContainersResponse)) :
    (client.list services).1 = .error e := by
  unfold Client.list
  rw [hconn]
  simp only [eq_call_of_means services (Client.listRequest pair) h]

/-- Otherwise they are read from the reply, in which some of them
may be passed over. -/
theorem list_of_ok (hconn : client.connections = some pair)
    {response : Cri.ListContainersResponse}
    (h : (services (Client.listRequest pair)).Means Cri.listContainers (.ok response)) :
    (client.list services).1 = .ok (Listing.ofResponse response).1 := by
  unfold Client.list
  rw [hconn]
  simp only [eq_call_of_means services (Client.listRequest pair) h]

/-- Asking for a descriptor does not abort the inspection: whatever the
reply is, what is found is a descriptor or an error. -/
theorem inspectBy_ne_panicked (services : Services) (client : Client) (ct : ListedContainer)
    (message : String) : (inspectBy services client ct).found ≠ .panicked message := by
  have hexcept {α : Type} (f : α → Descriptor) (r : Except RuntimeError α) :
      Found.ofExcept f r ≠ .panicked message := by
    cases r <;> simp [Found.ofExcept]
  unfold inspectBy
  split
  · exact hexcept _ _
  · exact hexcept _ _

/-- A container of a reply is listed if its id is admissible, and then
with what the reply says about it. Nothing else in the reply decides
whether it is listed. -/
theorem container?_spec (raw : Cri.Container) :
    (¬ Admissible raw ∧ Listing.container? raw = none) ∨
      Admissible raw ∧ ∃ ct, Listing.container? raw = some ct ∧ ListedAs raw ct := by
  unfold Listing.container? ContainerId.ofString? ContainerId.maxBytes
  by_cases h : 0 < raw.id.utf8ByteSize ∧ raw.id.utf8ByteSize ≤ 255
  · refine .inr ⟨h, ?_⟩
    rw [dif_pos h]
    exact ⟨_, rfl, ⟨rfl, rfl, rfl⟩⟩
  · refine .inl ⟨h, ?_⟩
    rw [dif_neg h]
    rfl

/-- The containers that are listed are those with admissible ids, in the
order of the reply. -/
theorem forall₂_listedAs (raws : List Cri.Container) :
    List.Forall₂ ListedAs (raws.filter Admissible) (raws.filterMap Listing.container?) := by
  induction raws with
  | nil => exact .nil
  | cons raw raws ih =>
    rcases container?_spec raw with ⟨hbad, hnone⟩ | ⟨hgood, ct, hsome, hct⟩
    · rwa [List.filter_cons_of_neg (by simpa using hbad), List.filterMap_cons_none hnone]
    · rw [List.filter_cons_of_pos (by simpa using hgood), List.filterMap_cons_some hsome]
      exact .cons hct ih

/-- Nothing is listed that can be inspected if there are too many
containers or none with an admissible id. The containers are counted
before their ids are looked at. -/
theorem ofResponse_eq_nil {response : Cri.ListContainersResponse}
    (h : Listing.maxContainers < response.containers.length ∨
      ∀ raw ∈ response.containers, ¬ Admissible raw) :
    (Listing.ofResponse response).1 = [] := by
  unfold Listing.ofResponse
  split
  · rfl
  · rename_i hmany
    rcases h with hlong | hbad
    · exact absurd hlong hmany
    · rw [List.filterMap_eq_nil_iff]
      intro raw hraw
      rcases container?_spec raw with ⟨-, hnone⟩ | ⟨hgood, -⟩
      · exact hnone
      · exact absurd hgood (hbad raw hraw)

/-- What is listed otherwise can be inspected: it is not too much, and
one container at least has an admissible id. -/
theorem inspectable_ofResponse {response : Cri.ListContainersResponse}
    (hlength : response.containers.length ≤ Listing.maxContainers)
    (hgood : ∃ raw ∈ response.containers, Admissible raw) :
    (Listing.ofResponse response).1 = response.containers.filterMap Listing.container? ∧
      Cycle.Inspectable (response.containers.filterMap Listing.container?) := by
  unfold Listing.ofResponse
  rw [if_neg (Nat.not_lt.mpr hlength)]
  refine ⟨rfl, fun hnil => ?_, Nat.le_trans (List.length_filterMap_le _ _) hlength⟩
  -- A container with an admissible id would be missing.
  obtain ⟨raw, hraw, hadmissible⟩ := hgood
  rcases container?_spec raw with ⟨hbad, -⟩ | ⟨-, ct, hsome, -⟩
  · exact hbad hadmissible
  · have hnone := List.filterMap_eq_nil_iff.mp hnil raw hraw
    rw [hsome] at hnone
    cases hnone

end

/-- A client that is connected. -/
def connectedClient : Client :=
  { engine := .docker
    criEndpoints := []
    runtimeEndpoints := []
    connections := some ⟨⟨"/run/cri.sock"⟩, ⟨"/run/containerd.sock"⟩⟩ }

/-- A spec by which the device 3 is visible to its container. -/
def visibleSpec : Wire.Bytes :=
  Json.bytesOf ("\x7b\"process\":\x7b\"env\":[\"ASCEND_VISIBLE_DEVICES=3\"]\x7d," ++
    "\"linux\":\x7b\"resources\":\x7b\x7d\x7d\x7d")

/-- The runtime lists two containers. It has a spec of the first one,
and knows nothing about the other one. -/
def halfKnown : Services := fun r =>
  if r.method = Cri.listContainers then
    .message (Wire.Message.encode
      ({ containers := [{ id := "a", metadata := some { name := "pod" } }, { id := "b" }] } :
        Cri.ListContainersResponse))
  else if r.message = Wire.Message.encode ({ id := "a" } : Containerd.GetContainerRequest) then
    .message (Wire.Message.encode
      ({ container := some { spec := some { value := visibleSpec } } } :
        Containerd.GetContainerResponse))
  else .status 5 "gone"

/-- The two containers, as they are listed: only the first one has a name. -/
def halfKnownContainers : List ListedContainer :=
  Cycle.twoContainers.modify 0 fun ct => { ct with name := "pod" }

/-- Both containers are listed and inspected, and the cycle comes to its end. -/
def halfKnownFetch : List Event :=
  [.start 5, .move 0 (.listed (.ok halfKnownContainers)), .spawn 0, .spawn 0,
    .move 0 .collect, .move 0 (.ask 0), .move 0 (.begin 0), .move 0 (.ask 1), .move 0 (.begin 1),
    .move 0 (.conclude 1 (.failed (.runtime (.rpc Containerd.getContainer ⟨5, "gone"⟩)))),
    .move 0 (.release 1), .move 0 (.report 1), .move 0 .receive,
    .move 0 (.conclude 0 (.assigned "pod" [3])), .move 0 (.release 0), .move 0 (.report 0),
    .move 0 .receive, .deliver 0, .move 0 (.join 1), .move 0 (.join 0), .move 0 .finish]

end NpuAttribution.Poll
