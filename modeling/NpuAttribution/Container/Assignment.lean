import NpuAttribution.Container.Id
import NpuAttribution.SortedMap

/-!
# `NpuAttribution.Container.Assignment`: devices assigned to containers

One poll cycle resolves the devices of each container and gathers them in a
snapshot. A snapshot replaces the one before it, the two are never merged.
-/

set_option autoImplicit false

namespace NpuAttribution

/-- The devices resolved for one container, in the order in which
they were declared. -/
structure Assignment where
  id : ContainerId
  name : String
  devices : List Nat
  deriving DecidableEq, Repr

/-- The assignments of all containers with devices, keyed by container id. -/
abbrev Snapshot := SortedMap Assignment

/-- Adds an assignment under the id of its container. -/
def Snapshot.add (s : Snapshot) (a : Assignment) : Snapshot :=
  s.insert a.id.text a

end NpuAttribution
