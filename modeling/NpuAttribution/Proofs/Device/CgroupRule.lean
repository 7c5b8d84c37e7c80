import NpuAttribution.Device.CgroupRule
import NpuAttribution.Proofs.Device.Registry
import NpuAttribution.Proofs.Device.Selection

/-!
# `NpuAttribution.Proofs.Device.CgroupRule`: which rules name a device, and which device

A rule gives majors and minors as numbers of 64 bits with a sign. The majors of the driver and the
indices of devices have 32 bits and no sign. What the rules select is said here with all of them
as integers, so that nothing can be mistaken for something else by its last 32 bits.

`Names` says when a rule is about a device of the driver, and the minor it gives is then the index
of the device if it is the index of any (`InRange`). So there are three kinds of rules
(`select_cases`): those that give an index, those that give a warning, and all others, which might
as well be missing. Whether a rule allows or denies makes no difference to its kind.
`selects_exactly` says what follows for lists of rules.
-/

set_option autoImplicit false

namespace NpuAttribution.Device

namespace Majors

/-- A major is registered if it is one of the driver's majors, as an integer. -/
def Registered (majors : List UInt32) (major : Int64) : Prop :=
  ∃ id ∈ majors, (id.toNat : Int) = major.toInt

/-- The list that a registry has been read as. -/
def loaded (majors : List UInt32) : List Nat := majors.map UInt32.toNat

/-- Whatever is found at the path of the registry, it is read as such a
list. A file that cannot be read gives the empty list. -/
theorem exists_loaded (file : RegistryFile) :
    ∃ majors, listOf (readFile file) = loaded majors := by
  have hback : ∀ id ∈ listOf (readFile file), (UInt32.toNat ∘ UInt32.ofNat) id = id :=
    fun id hid => UInt32.toNat_ofNat_of_lt' (lt_of_mem_listOf file id hid)
  refine ⟨(listOf (readFile file)).map UInt32.ofNat, ?_⟩
  show _ = ((listOf (readFile file)).map UInt32.ofNat).map UInt32.toNat
  rw [List.map_map, List.map_congr_left hback, List.map_id']

/-- The test for a major finds just the registered ones. A major that is
negative is none, since it is compared as an integer. -/
theorem isMember_loaded {majors : List UInt32} {major : Int64} :
    isMember (loaded majors) major.toInt = true ↔ Registered majors major := by
  unfold isMember loaded Registered
  rw [List.any_map, List.any_eq_true]
  exact exists_congr fun id => and_congr_right fun _ => beq_iff_eq

/-- No major is registered that 32 bits without a sign do not hold. -/
theorem not_registered_of_out_of_range {majors : List UInt32} {major : Int64}
    (h : major.toInt < 0 ∨ 4294967296 ≤ major.toInt) : ¬ Registered majors major := by
  rintro ⟨id, -, hid⟩
  have hlt : id.toNat < 4294967296 := id.toNat_lt
  omega

end Majors

namespace CgroupRule

open Majors (Registered loaded)

/-- A rule names a device of the driver, by its minor: the rule is about
character devices and its major is registered. -/
structure Names (majors : List UInt32) (r : CgroupRule) (minor : Int64) : Prop where
  kind : r.kind = some "c"
  major : ∃ major, r.major = some major ∧ Registered majors major
  minor : r.minor = some minor

/-- The minor is the index of a device. -/
def InRange (minor : Int64) : Prop := 0 ≤ minor.toInt ∧ minor.toInt ≤ 4294967295

/-- The rule names the device with the given index. -/
def Gives (majors : List UInt32) (r : CgroupRule) (i : Nat) : Prop :=
  ∃ minor, r.Names majors minor ∧ (i : Int) = minor.toInt

/-- The rule names a device, but no index, and the warning says so. -/
def Warns (container : String) (majors : List UInt32) (r : CgroupRule) (w : Warning) : Prop :=
  ∃ minor, r.Names majors minor ∧ ¬ InRange minor ∧ w = .invalidMinor container minor.toInt

/-- Rules select exactly the devices of the driver that they name:

- `devices`: the indices are those that some of the rules give, in the
  order of these rules;
- `found`: every index is the minor of a rule that names a device, as an
  integer;
- `warnings`: the warnings are those about some of the rules, in the
  order of these rules;
- `taken`: a rule that names a device contributes its index once, and no
  warning, if its minor is the index of a device;
- `warned`: otherwise it contributes one warning, and no index;
- `unconcerned`: a rule that names no device may come or go anywhere;
- `unnamed`: such is a rule without a major, without a minor, of another
  kind, or with a major that is not registered;
- `unregistered`: a negative major is not, nor one beyond 32 bits;
- `registries`: whatever is found at a registry's path, it is read as a
  list of such majors. -/
structure SelectsExactly (container : String) : Prop where
  devices : ∀ (majors : List UInt32) (rules : List CgroupRule), ∃ chosen, chosen.Sublist rules ∧
    List.Forall₂ (Gives majors) chosen (selectAll container (loaded majors) rules).devices
  found : ∀ (majors : List UInt32) (rules : List CgroupRule),
    ∀ i ∈ (selectAll container (loaded majors) rules).devices, ∃ r ∈ rules, Gives majors r i
  warnings : ∀ (majors : List UInt32) (rules : List CgroupRule), ∃ chosen, chosen.Sublist rules ∧
    List.Forall₂ (Warns container majors) chosen
      (selectAll container (loaded majors) rules).warnings
  taken : ∀ (majors : List UInt32) (before after : List CgroupRule) (r : CgroupRule)
    (minor : Int64), r.Names majors minor → InRange minor →
      selectAll container (loaded majors) (before ++ r :: after) =
        .concat [selectAll container (loaded majors) before, .device minor.toInt.toNat,
          selectAll container (loaded majors) after]
  warned : ∀ (majors : List UInt32) (before after : List CgroupRule) (r : CgroupRule)
    (minor : Int64), r.Names majors minor → ¬ InRange minor →
      selectAll container (loaded majors) (before ++ r :: after) =
        .concat [selectAll container (loaded majors) before,
          .warning (.invalidMinor container minor.toInt),
          selectAll container (loaded majors) after]
  unconcerned : ∀ (majors : List UInt32) (before after : List CgroupRule) (r : CgroupRule),
    (∀ minor, ¬ r.Names majors minor) →
      selectAll container (loaded majors) (before ++ r :: after) =
        selectAll container (loaded majors) (before ++ after)
  unnamed : ∀ (majors : List UInt32) (r : CgroupRule),
    (r.major = none ∨ r.minor = none ∨ r.kind ≠ some "c" ∨
      ∃ major, r.major = some major ∧ ¬ Registered majors major) → ∀ minor, ¬ r.Names majors minor
  unregistered : ∀ (majors : List UInt32) (major : Int64),
    major.toInt < 0 ∨ 4294967296 ≤ major.toInt → ¬ Registered majors major
  registries : ∀ file : RegistryFile,
    ∃ majors, Majors.listOf (Majors.readFile file) = loaded majors

variable {container : String} {majors : List UInt32} {r : CgroupRule} {minor : Int64}

/-! ### Single rules -/

/-- A rule that names a device is taken at its minor. -/
theorem select_of_names (h : r.Names majors minor) :
    select container (loaded majors) r =
      if 0 ≤ minor.toInt ∧ minor.toInt < UInt32.size then .device minor.toInt.toNat
      else .warning (.invalidMinor container minor.toInt) := by
  obtain ⟨hkind, ⟨major, hmajor, hregistered⟩, hminor⟩ := h
  unfold select
  rw [hmajor, hminor]
  exact if_pos ⟨hkind, Majors.isMember_loaded.mpr hregistered⟩

/-- If the minor is the index of a device then this device is selected. -/
theorem select_of_inRange (h : r.Names majors minor) (hrange : InRange minor) :
    select container (loaded majors) r = .device minor.toInt.toNat := by
  rw [select_of_names h]
  exact if_pos ⟨hrange.1, Int.lt_add_one_of_le hrange.2⟩

/-- If the minor is too large or negative then there is a warning in
place of a device. -/
theorem select_of_not_inRange (h : r.Names majors minor) (hrange : ¬ InRange minor) :
    select container (loaded majors) r = .warning (.invalidMinor container minor.toInt) := by
  rw [select_of_names h]
  exact if_neg fun hbounds => hrange ⟨hbounds.1, Int.le_of_lt_add_one hbounds.2⟩

/-- Nothing is selected by a rule that names no device, and nothing
is said about it. -/
theorem select_of_unnamed (h : ∀ minor, ¬ r.Names majors minor) :
    select container (loaded majors) r = .empty := by
  unfold select
  split
  · rename_i major minor hmajor hminor
    refine if_neg ?_
    rintro ⟨hkind, hmember⟩
    exact h minor ⟨hkind, ⟨major, hmajor, Majors.isMember_loaded.mp hmember⟩, hminor⟩
  · rfl

/-- A rule gives an index, or it gives a warning, or it gives neither.
It never does both, and never gives two indices. -/
theorem select_cases (container : String) (majors : List UInt32) (r : CgroupRule) :
    (∃ i, Gives majors r i ∧ select container (loaded majors) r = .device i) ∨
      (∃ w, Warns container majors r w ∧ select container (loaded majors) r = .warning w) ∨
        select container (loaded majors) r = .empty := by
  by_cases hnames : ∃ minor, r.Names majors minor
  · obtain ⟨minor, hminor⟩ := hnames
    by_cases hrange : InRange minor
    · exact .inl ⟨_, ⟨minor, hminor, Int.toNat_of_nonneg hrange.1⟩,
        select_of_inRange hminor hrange⟩
    · exact .inr (.inl ⟨_, ⟨minor, hminor, hrange, rfl⟩, select_of_not_inRange hminor hrange⟩)
  · exact .inr (.inr (select_of_unnamed fun minor hminor => hnames ⟨minor, hminor⟩))

/-- A rule without a major, a minor or the right kind names no device,
nor does one whose major is not registered. -/
theorem not_names (h : r.major = none ∨ r.minor = none ∨ r.kind ≠ some "c" ∨
    ∃ major, r.major = some major ∧ ¬ Registered majors major) : ¬ r.Names majors minor := by
  rintro ⟨hkind, ⟨major, hmajor, hregistered⟩, hminor⟩
  rcases h with hnone | hnone | hne | ⟨major', hmajor', hnot⟩
  · rw [hmajor] at hnone
    cases hnone
  · rw [hminor] at hnone
    cases hnone
  · exact hne hkind
  · rw [hmajor] at hmajor'
    cases hmajor'
    exact hnot hregistered

/-! ### Lists of rules -/

/-- The indices are those that some of the rules give, one index for
each and in their order. The induction is on the rules. -/
theorem exists_sublist_devices (container : String) (majors : List UInt32)
    (rules : List CgroupRule) : ∃ chosen, chosen.Sublist rules ∧
      List.Forall₂ (Gives majors) chosen (selectAll container (loaded majors) rules).devices := by
  show ∃ chosen, chosen.Sublist rules ∧ List.Forall₂ (Gives majors) chosen
    ((rules.map (select container (loaded majors))).flatMap (·.devices))
  rw [List.flatMap_map]
  refine Selection.exists_sublist_flatMap (fun r => ?_) rules
  rcases select_cases container majors r with ⟨i, hi, hselect⟩ | ⟨w, -, hselect⟩ | hselect
  · exact .inr ⟨i, hi, by rw [hselect]; rfl⟩
  · exact .inl (by rw [hselect]; rfl)
  · exact .inl (by rw [hselect]; rfl)

/-- The warnings are those about some of the rules, one for each and in
their order. -/
theorem exists_sublist_warnings (container : String) (majors : List UInt32)
    (rules : List CgroupRule) : ∃ chosen, chosen.Sublist rules ∧
      List.Forall₂ (Warns container majors) chosen
        (selectAll container (loaded majors) rules).warnings := by
  show ∃ chosen, chosen.Sublist rules ∧ List.Forall₂ (Warns container majors) chosen
    ((rules.map (select container (loaded majors))).flatMap (·.warnings))
  rw [List.flatMap_map]
  refine Selection.exists_sublist_flatMap (fun r => ?_) rules
  rcases select_cases container majors r with ⟨i, -, hselect⟩ | ⟨w, hw, hselect⟩ | hselect
  · exact .inl (by rw [hselect]; rfl)
  · exact .inr ⟨w, hw, by rw [hselect]; rfl⟩
  · exact .inl (by rw [hselect]; rfl)

/-- Every index is given by a rule. -/
theorem exists_gives {rules : List CgroupRule} {i : Nat}
    (h : i ∈ (selectAll container (loaded majors) rules).devices) :
    ∃ r ∈ rules, Gives majors r i := by
  obtain ⟨chosen, hsub, hgives⟩ := exists_sublist_devices container majors rules
  obtain ⟨n, hn, rfl⟩ := List.getElem_of_mem h
  have hlt : n < chosen.length := by rwa [hgives.length_eq]
  exact ⟨chosen[n], hsub.subset (List.getElem_mem hlt), hgives.get hlt hn⟩

/-- One rule among others contributes what it selects, and those before
and after it what they select without it. -/
theorem selectAll_insert (container : String) (majors : List Nat) (before after : List CgroupRule)
    (r : CgroupRule) :
    selectAll container majors (before ++ r :: after) =
      .concat [selectAll container majors before, select container majors r,
        selectAll container majors after] :=
  Selection.concat_map_insert _ before after r

/-- Rules select exactly the devices of the driver that they name, in
their order and as often as they name them. All parts but those about
majors are read off `select_cases` and `selectAll_insert`: a rule gives
a device, a warning or nothing, and the other rules have no part in it. -/
theorem selects_exactly (container : String) : SelectsExactly container where
  devices := exists_sublist_devices container
  found _ _ _ := exists_gives
  warnings := exists_sublist_warnings container
  taken _ before after r _ hnames hrange := by
    rw [selectAll_insert, select_of_inRange hnames hrange]
  warned _ before after r _ hnames hrange := by
    rw [selectAll_insert, select_of_not_inRange hnames hrange]
  unconcerned _ before after _ hunnamed :=
    Selection.concat_map_insert_empty (select_of_unnamed hunnamed) before after
  unnamed _ _ h _ := not_names h
  unregistered _ _ := Majors.not_registered_of_out_of_range
  registries := Majors.exists_loaded

-- The major of the second rule has the last 32 bits of 236, and the minor of the third those of 0.
example : selectAll "c1" [236] [
    { allow := true, kind := some "c", major := some 236, minor := some 7 },
    { allow := true, kind := some "c", major := some 4294967532, minor := some 8 },
    { allow := false, kind := some "c", major := some 236, minor := some 4294967296 }] =
      ⟨[7], [.invalidMinor "c1" 4294967296]⟩ := by
  decide +kernel

end CgroupRule

end NpuAttribution.Device
