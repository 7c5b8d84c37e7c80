import NpuAttribution.Device.Majors

/-!
# `NpuAttribution.Device.Registry`: a registry whose file changes

The registry file belongs to the kernel. While the monitor runs, the file may be written,
removed, or replaced by something that cannot be read, and all the while the monitor may ask
for the driver's majors or whether a major is among them. A `Registry` is the file together
with what is known of it. Its actions may come in any order, and `watch` is what is seen of
them: the answers and the journal lines.
-/

set_option autoImplicit false

namespace NpuAttribution.Device

/-- What is found at the path of the registry, and what is known of it. -/
structure Registry where
  file : RegistryFile
  majors : Majors
  deriving DecidableEq, Repr

namespace Registry

/-- What can happen to a registry. -/
inductive Action
  /-- The file is written, removed or replaced: this is what is found from now on. -/
  | place (file : RegistryFile)
  /-- Somebody asks for the driver's majors. -/
  | ids
  /-- Somebody asks whether a major is the driver's. -/
  | contains (major : Int64)
  deriving DecidableEq, Repr

/-- What somebody who asks is told. -/
inductive Answer
  | ids (ids : List Nat)
  | contains (isMember : Bool)
  deriving DecidableEq, Repr

/-- What is seen of an action: the answer, if somebody has asked,
and journal lines. -/
structure Sight where
  answer : Option Answer := none
  lines : List Line := []
  deriving DecidableEq, Repr

/-- Nothing is seen of a change of the file. -/
def Sight.nothing : Sight := {}

/-- A registry that nobody has asked for majors yet. -/
def new (path : String) (file : RegistryFile) : Registry := ⟨file, .unread path⟩

/-- What an action leads to, and what is seen of it. -/
def step (r : Registry) : Action → Registry × Sight
  | .place file => ({ r with file }, .nothing)
  | .ids =>
    let (ids, majors, lines) := r.majors.ids r.file
    ({ r with majors }, ⟨some (.ids ids), lines⟩)
  -- Both questions read the file if it has not been read.
  | .contains major =>
    let (isMember, majors, lines) := r.majors.contains r.file major.toInt
    ({ r with majors }, ⟨some (.contains isMember), lines⟩)

/-- What is seen of a sequence of actions, one sight for each. -/
def watch (r : Registry) : List Action → List Sight
  | [] => []
  | a :: as => (r.step a).2 :: watch (r.step a).1 as

end Registry

end NpuAttribution.Device
