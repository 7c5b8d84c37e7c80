import NpuAttribution.Device.Mapping
import NpuAttribution.Proofs.Device.Selection
import NpuAttribution.Proofs.Text.Numeral

/-!
# `NpuAttribution.Proofs.Device.Mapping`: which paths are those of NPUs

`IsDevicePath` says what the path of an NPU is without taking a path apart: a fixed text, and then
one or more decimal digits. Nothing may follow the digits and no sign may stand before them, and
the index that they write is one that fits 32 bits with a sign. `index?_eq_some_iff` says that
just these paths have an index.

The index is found in three steps that accept more, each of them: a pattern takes off digits of a
class of its own, which may hold digits of other scripts; the digits are read as a number of 32
bits, for which a plus sign would do as well; and the largest index is looked at last. What one
step accepts too much another one refuses. So it does not matter which class of digits the pattern
has (`indexInSteps?_eq_some_iff`), and nothing depends on the table of the scripts.
-/

set_option autoImplicit false

namespace NpuAttribution.Device.Mapping

open NpuAttribution.Text

/-- The path is that of the NPU with the given index. The index may
have zeros in front. -/
def IsDevicePath (path : String) (i : Nat) : Prop :=
  ∃ ds : List (Fin 10), ds ≠ [] ∧ path.toList = "/dev/davinci".toList ++ ds.map digitChar ∧
    i = decimalValue ds ∧ i ≤ 2147483647

/-- Device mappings are read by their paths inside the container:

- `path`: a path has an index if and only if it is that of the NPU with
  this index;
- `steps`: it does not matter which characters a pattern takes for
  digits, as long as the decimal digits are among them and the plus sign
  is not;
- `devices`: the indices of all paths that have one, in the order of the
  mappings;
- `warnings`: one warning for each mapping whose path has none, which
  shows the path;
- `pathsOnly`: nothing else of a mapping makes a difference. -/
structure ReadsPaths (container : String) : Prop where
  path : ∀ (path : String) (i : Nat), index? path = some i ↔ IsDevicePath path i
  steps : ∀ isDigit : Char → Bool, (∀ d, isDigit (digitChar d) = true) → isDigit '+' = false →
    ∀ path, indexInSteps? isDigit path = index? path
  devices : ∀ mappings : List Mapping, (selectAll container mappings).devices =
    mappings.filterMap fun m => index? m.pathInContainer
  warnings : ∀ mappings : List Mapping, (selectAll container mappings).warnings =
    (mappings.filter fun m => (index? m.pathInContainer).isNone).map fun m =>
      .unexpectedPath container m.pathInContainer
  pathsOnly : ∀ mappings mappings' : List Mapping,
    mappings.map (·.pathInContainer) = mappings'.map (·.pathInContainer) →
      selectAll container mappings = selectAll container mappings'

/-! ### Paths -/

/-- What stands behind the device path, if the path begins with it.
Nothing is looked at behind that. -/
theorem afterDevicePath?_eq_some_iff {path rest : List Char} :
    afterDevicePath? path = some rest ↔ path = devicePath.toList ++ rest := by
  unfold afterDevicePath?
  constructor
  · intro h
    split at h
    · rename_i hprefix
      obtain ⟨rest', rfl⟩ := List.isPrefixOf_iff_prefix.mp hprefix
      have hrest : (devicePath.toList ++ rest').drop devicePath.length = rest :=
        Option.some.inj h
      rw [← String.length_toList, List.drop_left] at hrest
      rw [hrest]
    · cases h
  · rintro rfl
    rw [if_pos (List.isPrefixOf_iff_prefix.mpr (List.prefix_append _ _)), ← String.length_toList,
      List.drop_left]

/-- The pattern takes off one or more digits of its class, and
nothing may be left. -/
theorem pathDigits?_eq_some_iff {isDigit : Char → Bool} {path digits : List Char} :
    pathDigits? isDigit path = some digits ↔
      path = devicePath.toList ++ digits ∧ digits ≠ [] ∧ ∀ c ∈ digits, isDigit c = true := by
  unfold pathDigits?
  rw [Option.filter_eq_some_iff, afterDevicePath?_eq_some_iff, Bool.and_eq_true, Bool.not_eq_true',
    List.isEmpty_eq_false_iff, List.all_eq_true]

/-- Just the paths of NPUs have an index, whatever the pattern takes
for digits. The decimal digits must be among them, or else a path
would be refused. The plus sign must not, or else a path with a sign
would be read. All other characters are refused when the digits are
read as a number. -/
theorem indexInSteps?_eq_some_iff {isDigit : Char → Bool}
    (hdigits : ∀ d, isDigit (digitChar d) = true) (hplus : isDigit '+' = false) {path : String}
    {i : Nat} : indexInSteps? isDigit path = some i ↔ IsDevicePath path i := by
  unfold indexInSteps?
  constructor
  · intro h
    split at h
    · rename_i digits hpath
      obtain ⟨hpath, -, hclass⟩ := pathDigits?_eq_some_iff.mp hpath
      rw [Option.filter_eq_some_iff, unsigned?_eq_some_iff, decide_eq_true_iff] at h
      obtain ⟨⟨⟨sign, ds, hsign, hne, rfl, rfl⟩, -⟩, hle⟩ := h
      -- A sign would be in the class of digits.
      have hnone : sign = [] := by
        rcases hsign with rfl | rfl
        · rfl
        · have hmem := hclass '+' List.mem_cons_self
          rw [hplus] at hmem
          cases hmem
      subst hnone
      exact ⟨ds, hne, hpath, rfl, hle⟩
    · cases h
  · rintro ⟨ds, hne, hpath, rfl, hle⟩
    have hclass : ∀ c ∈ ds.map digitChar, isDigit c = true := by
      intro c hc
      obtain ⟨d, -, rfl⟩ := List.mem_map.mp hc
      exact hdigits d
    have hpattern : pathDigits? isDigit path.toList = some (ds.map digitChar) :=
      pathDigits?_eq_some_iff.mpr ⟨hpath, mt List.map_eq_nil_iff.mp hne, hclass⟩
    have hnumeral : IsNumeral (ds.map digitChar) (decimalValue ds) :=
      ⟨[], ds, .inl rfl, hne, rfl, rfl⟩
    have hbound : decimalValue ds < UInt32.size := Nat.lt_of_le_of_lt hle (by decide)
    rw [hpattern]
    show (unsigned? UInt32.size (ds.map digitChar)).filter _ = _
    rw [unsigned?_eq_some_iff.mpr ⟨hnumeral, hbound⟩]
    exact (Option.filter_some ..).trans (if_pos (decide_eq_true hle))

/-- Just the paths of NPUs have an index. The digits of all scripts
are such a class. -/
theorem index?_eq_some_iff {path : String} {i : Nat} :
    index? path = some i ↔ IsDevicePath path i :=
  indexInSteps?_eq_some_iff (by decide +kernel) (by decide +kernel)

/-- It does not matter what else counts as a digit in the first step, as
the other two refuse it. -/
theorem indexInSteps?_eq_index? {isDigit : Char → Bool}
    (hdigits : ∀ d, isDigit (digitChar d) = true) (hplus : isDigit '+' = false) (path : String) :
    indexInSteps? isDigit path = index? path := by
  refine Option.ext fun i => ?_
  rw [indexInSteps?_eq_some_iff hdigits hplus, index?_eq_some_iff]

/-! ### Mappings -/

variable {container : String} {m : Mapping}

/-- A mapping whose path has an index is the device with this index. -/
theorem select_of_some {i : Nat} (h : index? m.pathInContainer = some i) :
    select container m = .device i := by
  simp only [select, h]

/-- A mapping whose path has none is a warning that shows the path. -/
theorem select_of_none (h : index? m.pathInContainer = none) :
    select container m = .warning (.unexpectedPath container m.pathInContainer) := by
  simp only [select, h]

/-- The mappings are gone through one by one, and each adds its part
behind those before. -/
theorem selectAll_cons (container : String) (m : Mapping) (mappings : List Mapping) :
    selectAll container (m :: mappings) =
      ⟨(select container m).devices ++ (selectAll container mappings).devices,
        (select container m).warnings ++ (selectAll container mappings).warnings⟩ :=
  Selection.concat_cons _ _

/-- The devices are the indices of the paths that have one. The
induction is on the mappings, and each of them gives an index or none. -/
theorem devices_selectAll (container : String) (mappings : List Mapping) :
    (selectAll container mappings).devices =
      mappings.filterMap fun m => index? m.pathInContainer := by
  induction mappings with
  | nil => rfl
  | cons m mappings ih =>
    rw [selectAll_cons, ih]
    cases h : index? m.pathInContainer with
    | some i => simp [select_of_some h, Selection.device, h]
    | none => simp [select_of_none h, Selection.warning, h]

/-- The warnings are about the paths that have no index, one for each. -/
theorem warnings_selectAll (container : String) (mappings : List Mapping) :
    (selectAll container mappings).warnings =
      (mappings.filter fun m => (index? m.pathInContainer).isNone).map fun m =>
        .unexpectedPath container m.pathInContainer := by
  induction mappings with
  | nil => rfl
  | cons m mappings ih =>
    rw [selectAll_cons, ih]
    cases h : index? m.pathInContainer with
    | some i => simp [select_of_some h, Selection.device, h]
    | none => simp [select_of_none h, Selection.warning, h]

/-- A mapping is only looked at for its path inside the container. Its
path on the host may be that of another device. -/
theorem selectAll_congr {mappings mappings' : List Mapping}
    (h : mappings.map (·.pathInContainer) = mappings'.map (·.pathInContainer)) :
    selectAll container mappings = selectAll container mappings' := by
  let selectPath (path : String) : Selection := select container { pathInContainer := path }
  have hpath (mappings : List Mapping) : mappings.map (select container) =
      (mappings.map (·.pathInContainer)).map selectPath := by
    rw [List.map_map]
    rfl
  show Selection.concat _ = Selection.concat _
  rw [hpath, hpath, h]

/-- Device mappings are read by their paths, and the paths by their
grammar. Of the five parts the first two are about a path alone, and the
others about lists of mappings: each gives what its path stands for or a
warning, and nothing of a mapping but its path matters. -/
theorem reads_paths (container : String) : ReadsPaths container where
  path _ _ := index?_eq_some_iff
  steps _ hdigits hplus := indexInSteps?_eq_index? hdigits hplus
  devices := devices_selectAll container
  warnings := warnings_selectAll container
  pathsOnly _ _ := selectAll_congr

-- U+0663 is a digit of another script.
example : (selectAll "c1" (["/dev/davinci007", "/dev/davinci+1", "/dev/davinci2147483648",
    "/dev/davinci\u0663", "/dev/davinci1\n"].map fun path => { pathInContainer := path })).devices =
      [7] := by
  decide +kernel

end NpuAttribution.Device.Mapping
