import NpuAttribution.Config.Endpoint

/-!
# `NpuAttribution.Config.Engine`: the container engines and their usual sockets

Three engines can be monitored. Each has a usual socket for the CRI server that lists
the containers and one for the service that describes them, and some have backups that
are tried when the usual one cannot be reached.
-/

set_option autoImplicit false

namespace NpuAttribution

/-- The container engine whose containers are monitored. -/
inductive Engine
  | docker
  | containerd
  | isula
  deriving DecidableEq, Repr

/-- The two shapes in which engines describe their containers. -/
inductive DescriptorShape
  | oci
  | isula
  deriving DecidableEq, Repr

/-- The name of a shape. -/
def DescriptorShape.name : DescriptorShape → String
  | .oci => "OCI"
  | .isula => "iSula"

namespace Engine

/-- The name of an engine. -/
def name : Engine → String
  | .docker => "docker"
  | .containerd => "containerd"
  | .isula => "isula"

/-- The engine with the given name. Names are matched exactly, so
neither capital letters nor blanks are accepted. -/
def ofName? (s : String) : Option Engine :=
  [docker, containerd, isula].find? fun e => e.name = s

/-- The shape of an engine's descriptors. -/
def shape : Engine → DescriptorShape
  | .docker => .oci
  | .containerd => .oci
  | .isula => .isula

/-- The usual socket of the CRI server. -/
def criEndpoint : Engine → Endpoint
  | .docker => ⟨"/run/dockershim.sock"⟩
  | .containerd => ⟨"/run/containerd/containerd.sock"⟩
  | .isula => ⟨"/run/isulad.sock"⟩

/-- The usual socket of the service that describes containers. -/
def descriptorEndpoint : Engine → Endpoint
  | .docker => ⟨"/run/docker/containerd/docker-containerd.sock"⟩
  | .containerd => ⟨"/run/containerd/containerd.sock"⟩
  | .isula => ⟨"/run/isulad.sock"⟩

/-- The backups of the CRI socket. -/
def criBackups : Engine → List Endpoint
  | .docker => [⟨"/run/cri-dockerd.sock"⟩]
  | .containerd => [⟨"/var/run/containerd/containerd.sock"⟩]
  | .isula => []

/-- The backups of the descriptor socket. -/
def descriptorBackups : Engine → List Endpoint
  | .docker => [⟨"/run/containerd/containerd.sock"⟩]
  | .containerd => [⟨"/var/run/containerd/containerd.sock"⟩]
  | .isula => []

end Engine

end NpuAttribution
