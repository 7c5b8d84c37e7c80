import NpuAttribution.Container.Id
import NpuAttribution.SortedMap

/-!
# `NpuAttribution.Container.Listed`: containers as the runtime lists them

The listing gives a container its id, a name and labels. Under Kubernetes three
labels name the pod's namespace, the pod and the container, and the display name
is built from them; otherwise it is the runtime's own name.
-/

set_option autoImplicit false

namespace NpuAttribution

/-- The labels of a container. -/
abbrev Labels := SortedMap String

/-- A running container as it is listed. -/
structure ListedContainer where
  id : ContainerId
  name : String
  labels : Labels
  deriving DecidableEq, Repr

namespace ListedContainer

/-- The label with the namespace of the pod. -/
def namespaceLabel : String := "io.kubernetes.pod.namespace"

/-- The label with the name of the pod. -/
def podLabel : String := "io.kubernetes.pod.name"

/-- The label with the name of the container inside its pod. -/
def containerLabel : String := "io.kubernetes.container.name"

/-- A label that is present and not empty. -/
def label? (c : ListedContainer) (key : String) : Option String :=
  (c.labels.get? key).filter (· ≠ "")

/-- The name under which the container's devices are reported: the three
Kubernetes labels joined by underscores if none of them is missing or
empty, else the runtime's name, else nothing. -/
def displayName? (c : ListedContainer) : Option String :=
  match c.label? namespaceLabel, c.label? podLabel, c.label? containerLabel with
  | some ns, some pod, some container => some (ns ++ "_" ++ pod ++ "_" ++ container)
  | _, _, _ => if c.name = "" then none else some c.name

end ListedContainer

end NpuAttribution
