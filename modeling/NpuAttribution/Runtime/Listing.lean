import NpuAttribution.Api.Cri
import NpuAttribution.Container.Listed
import NpuAttribution.Journal

/-!
# `NpuAttribution.Runtime.Listing`: from a reply to the containers it lists

A reply that lists too many containers is treated like an empty one, with a warning. A
container whose id is not admissible is left out, with an error in the journal.
-/

set_option autoImplicit false

namespace NpuAttribution.Listing

/-- More containers than this are too many. -/
def maxContainers : Nat := 1024

/-- The journal line about a reply that lists too many containers. -/
def tooMany (count : Nat) : Line :=
  ⟨.warn, s!"CRI reported {count} containers (max {maxContainers}), returning empty list"⟩

/-- The journal line about an id that is not admissible. -/
def badId (raw : String) : Line :=
  let rejection := ContainerId.rejection raw
  ⟨.error, s!"failed to parse ContainerID: {rejection}"⟩

/-- A container of a reply, if its id is admissible. -/
def container? (c : Cri.Container) : Option ListedContainer :=
  (ContainerId.ofString? c.id).map fun id =>
    -- A container need not have any metadata, and has no name then.
    { id, name := (c.metadata.map (·.name)).getD "", labels := c.labels }

/-- The ids in a reply that are not admissible. -/
def badIds (cs : List Cri.Container) : List String :=
  (cs.filter fun c => (container? c).isNone).map (·.id)

/-- The containers that a reply lists. The limit is about the reply as
it comes: containers with ids that are not admissible count as well. -/
def ofResponse (r : Cri.ListContainersResponse) : List ListedContainer × List Line :=
  if maxContainers < r.containers.length then
    ([], [tooMany r.containers.length])
  else
    (r.containers.filterMap container?, (badIds r.containers).map badId)

end NpuAttribution.Listing
