import NpuAttribution.Proofs.Descriptor.Attribution
import NpuAttribution.Proofs.Device.CgroupRule

/-!
# `NpuAttribution.Proofs.Descriptor.CgroupFallback`: devices that nobody has declared

If the environment of an OCI spec declares nothing then its cgroup rules decide. They decide by
the devices that they name: every device of the container is named by a rule, and every device
that a rule names is one of the container (`attributes_by_rules`).

What a rule says about the device does not matter. A rule that denies it counts like one that
allows it, so a container may have a device that all its rules deny (`not_forall_allowed`).
-/

set_option autoImplicit false

namespace NpuAttribution

open Device (CgroupRule Selection)
open Device.CgroupRule (Gives InRange)
open Device.Majors (loaded)

namespace OciSpec

/-- The environment of a spec, and nothing if there is no process section. -/
def env (spec : OciSpec) : List String := (spec.process.map (·.env)).getD []

/-- The device rules of a spec, and none if there is no resources section. -/
def rules (spec : OciSpec) : List CgroupRule :=
  ((spec.linux.bind (·.resources)).map (·.devices)).getD []

/-- A spec with all sections that are looked at. -/
def ofSections (env : List String) (rules : List CgroupRule) : OciSpec :=
  ⟨some ⟨env⟩, some ⟨some ⟨rules⟩⟩⟩

end OciSpec

namespace Attribution

/-- Without a declaration the device rules of a spec decide:

- `selected`: a spec with all sections and within the limits gives what
  its rules select;
- `named`: each device that a spec gives is the minor of a rule about
  character devices with a registered major;
- `kept`: each device that a rule names is one that the spec gives,
  whatever the rule allows;
- `allowance`: what the rules allow or deny makes no difference at all. -/
structure AttributesByRules (container : String) (majors : List UInt32) : Prop where
  selected : ∀ {env : List String} {rules : List CgroupRule}, Undeclared env →
    rules.length ≤ 1024 → env.length ≤ 2048 →
      ofOci container (loaded majors) (.ofSections env rules) =
        .ok (CgroupRule.selectAll container (loaded majors) rules)
  named : ∀ {spec : OciSpec} {s : Selection}, Undeclared spec.env →
    ofOci container (loaded majors) spec = .ok s →
      ∀ i ∈ s.devices, ∃ r ∈ spec.rules, Gives majors r i
  kept : ∀ {spec : OciSpec} {s : Selection}, Undeclared spec.env →
    ofOci container (loaded majors) spec = .ok s →
      ∀ r ∈ spec.rules, ∀ minor, r.Names majors minor → InRange minor →
        minor.toInt.toNat ∈ s.devices
  allowance : ∀ (env : List String) (rules : List CgroupRule) (allow : CgroupRule → Bool),
    ofOci container (loaded majors)
        (.ofSections env (rules.map fun r => { r with allow := allow r })) =
      ofOci container (loaded majors) (.ofSections env rules)

variable {container : String} {majors : List Nat} {env : List String} {rules : List CgroupRule}

/-- A spec with all sections is checked for its limits, and then its
environment decides. -/
theorem ofOci_ofSections : ofOci container majors (.ofSections env rules) =
    checkLimits rules.length env.length >>= fun _ =>
      select container env (CgroupRule.selectAll container majors rules) := rfl

/-- An environment that declares nothing leaves the decision to the
devices of the descriptor. -/
theorem select_of_undeclared (h : Undeclared env) (listed : Selection) :
    select container env listed = .ok listed := by
  rw [select, lastDeclaration?_eq_none_iff.mpr h]

/-- If a spec gives anything without a declaration then it gives what
its rules select. A spec without one of the sections gives an error, and
so does one that is over its limits. -/
theorem eq_selectAll_of_undeclared {spec : OciSpec} {s : Selection} (henv : Undeclared spec.env)
    (h : ofOci container majors spec = .ok s) :
    s = CgroupRule.selectAll container majors spec.rules := by
  match spec, henv, h with
  | ⟨none, none⟩, _, h | ⟨none, some ⟨none⟩⟩, _, h | ⟨none, some ⟨some _⟩⟩, _, h
  | ⟨some _, none⟩, _, h | ⟨some _, some ⟨none⟩⟩, _, h => cases h
  | ⟨some ⟨env⟩, some ⟨some ⟨rules⟩⟩⟩, henv, h =>
    change ofOci container majors (.ofSections env rules) = .ok s at h
    rw [ofOci_ofSections] at h
    cases hlimits : checkLimits rules.length env.length with
    | error e =>
      rw [hlimits] at h
      cases h
    | ok _ =>
      rw [hlimits] at h
      have hundeclared : Undeclared env := henv
      change select container env _ = .ok s at h
      rw [select_of_undeclared hundeclared] at h
      exact (Except.ok.inj h).symm

/-- Rules select the same devices whether they allow or deny them.
Selecting looks at the kind, the major and the minor only. -/
theorem selectAll_map_allow (container : String) (majors : List Nat) (rules : List CgroupRule)
    (allow : CgroupRule → Bool) :
    CgroupRule.selectAll container majors (rules.map fun r => { r with allow := allow r }) =
      CgroupRule.selectAll container majors rules := by
  show Selection.concat ((rules.map _).map _) = Selection.concat (rules.map _)
  rw [List.map_map]
  rfl

/-- The index that a rule gives is selected, wherever the rule stands. -/
theorem mem_devices_selectAll {majors : List UInt32} {r : CgroupRule} {minor : Int64}
    (hr : r ∈ rules) (hnames : r.Names majors minor) (hrange : InRange minor) :
    minor.toInt.toNat ∈ (CgroupRule.selectAll container (loaded majors) rules).devices := by
  obtain ⟨before, after, rfl⟩ := List.append_of_mem hr
  rw [CgroupRule.selectAll_insert, CgroupRule.select_of_inRange hnames hrange]
  simp [Selection.concat, Selection.device]

/-- Without a declaration the device rules decide, by the devices that
they name, and no matter whether they allow them. All four parts come
from what is known of rules, once the environment is out of the way
(`select_of_undeclared`). -/
theorem attributes_by_rules (container : String) (majors : List UInt32) :
    AttributesByRules container majors where
  selected henv hrules hlength := by
    rw [ofOci_ofSections, checkLimits_of_le hrules hlength]
    exact select_of_undeclared henv _
  named henv h i hi := by
    rw [eq_selectAll_of_undeclared henv h] at hi
    exact CgroupRule.exists_gives hi
  kept henv h r hr minor hnames hrange := by
    rw [eq_selectAll_of_undeclared henv h]
    exact mem_devices_selectAll hr hnames hrange
  allowance env rules allow := by
    rw [ofOci_ofSections, ofOci_ofSections, selectAll_map_allow, List.length_map]

/-- A rule that denies the fourth device of the driver. -/
def denial : CgroupRule :=
  { allow := false, kind := some "c", major := some 236, minor := some 3, access := some "rwm" }

/-- It is not true that every device is the minor of a rule that
allows it: a rule that denies a device names it as well, and this is
all that counts. -/
theorem not_forall_allowed :
    ¬ ∀ (container : String) (majors : List UInt32) (spec : OciSpec) (s : Selection),
      spec.rules.length ≤ 1024 → spec.env.length ≤ 2048 → Undeclared spec.env →
        ofOci container (loaded majors) spec = .ok s →
          ∀ i ∈ s.devices, ∃ r ∈ spec.rules, r.allow = true ∧ Gives majors r i := by
  intro h
  have hundeclared : Undeclared (OciSpec.ofSections [] [denial]).env := fun _ hentry => by
    cases hentry
  have hselected : ofOci "c1" (loaded [236]) (.ofSections [] [denial]) = .ok ⟨[3], []⟩ := by
    decide +kernel
  obtain ⟨r, hr, hallow, -⟩ :=
    h "c1" [236] _ _ (by decide) (by decide) hundeclared hselected 3 (List.mem_singleton_self 3)
  obtain rfl : r = denial := List.mem_singleton.mp hr
  exact absurd hallow (by decide)

end Attribution

end NpuAttribution
