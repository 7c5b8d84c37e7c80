import NpuAttribution.Poll.Inspection
import NpuAttribution.Proofs.Device.VisibleDevices

/-!
# `NpuAttribution.Proofs.Descriptor.Attribution`: the last declaration decides alone

An entry of the environment declares the visible devices if its key is the variable's name. Of
several such entries the last one decides, and it decides alone: what else is in the descriptor
makes no difference, not even of which runtime the descriptor is. `declaration_decides` says this
of two descriptors that have nothing in common but the last declaration.

Both attributions look for the sections, check the limits and then let the environment decide, so
there is one lemma for each of these: `select_of_regular` gets to the decision with a descriptor
that has nothing wrong with it, and `select_withEnv_congr` says what of an environment can make a
difference with any descriptor at all.
-/

set_option autoImplicit false

namespace NpuAttribution

open Device (CgroupRule Mapping Selection visibleDevicesVariable)
open Device.VisibleDevices (decode)

/-! ### What is said about environments and descriptors -/

namespace Attribution

/-- An entry declares the visible devices: it is the variable's name, or
it starts with the name and an equals sign. -/
def Declares (entry : String) : Prop :=
  entry = visibleDevicesVariable ∨ ∃ value, entry = visibleDevicesVariable ++ "=" ++ value

/-- The entry is the last one of an environment to declare the visible devices. -/
def LastDeclared (env : List String) (entry : String) : Prop :=
  ∃ before after, env = before ++ entry :: after ∧ Declares entry ∧
    ∀ other ∈ after, ¬ Declares other

/-- No entry of an environment declares the visible devices. -/
def Undeclared (env : List String) : Prop := ∀ entry ∈ env, ¬ Declares entry

/-- Two environments are of the same size as far as the limit is concerned. -/
def SameSize (env env' : List String) : Prop :=
  env.length = env'.length ∨ env.length ≤ 2048 ∧ env'.length ≤ 2048

end Attribution

namespace Descriptor

/-- A descriptor with nothing wrong with it, and its environment: all
sections that are looked at are there, neither list is too long, and an
iSulad container is not privileged. -/
inductive Regular : Descriptor → List String → Prop
  | oci {rules : List CgroupRule} {env : List String} (hrules : rules.length ≤ 1024)
    (henv : env.length ≤ 2048) : Regular (.oci ⟨some ⟨env⟩, some ⟨some ⟨rules⟩⟩⟩) env
  | isula {mappings : List Mapping} {env : List String} (hmappings : mappings.length ≤ 1024)
    (henv : env.length ≤ 2048) : Regular (.isula ⟨some ⟨false, mappings⟩, some ⟨env⟩⟩) env

/-- The descriptor with the given environment in place of its own. -/
def withEnv (env : List String) : Descriptor → Descriptor
  | .oci spec => .oci { spec with process := some ⟨env⟩ }
  | .isula document => .isula { document with config := some ⟨env⟩ }

end Descriptor

namespace Attribution

/-- The last declaration decides alone:

- `alike`: two regular descriptors with the same last declaration give
  the same devices or the same error, whatever their runtimes, their
  other entries, their device lists, the driver's majors and the
  containers' names;
- `wellFormed`: a declaration with one equals sign gives what its value
  is decoded to, and be it that this is nothing;
- `malformed`: any other declaration is an error, which names the entry;
- `undeclared`: if nothing is declared then the entries of the
  environment make no difference;
- `otherKeys`: an entry that declares nothing may come or go anywhere. -/
structure DeclarationDecides : Prop where
  alike : ∀ {d d' : Descriptor} {env env' : List String} {entry : String}
    (container container' : String) (majors majors' : List Nat), d.Regular env →
      d'.Regular env' → LastDeclared env entry → LastDeclared env' entry →
        (d.select container majors).map (·.devices) =
          (d'.select container' majors').map (·.devices)
  wellFormed : ∀ {d : Descriptor} {env : List String} {value : String} (container : String)
    (majors : List Nat), d.Regular env →
      LastDeclared env (visibleDevicesVariable ++ "=" ++ value) → '=' ∉ value.toList →
        d.select container majors = .ok (decode container value)
  malformed : ∀ {d : Descriptor} {env : List String} {entry : String} (container : String)
    (majors : List Nat), d.Regular env → LastDeclared env entry →
      (∀ value, entry = visibleDevicesVariable ++ "=" ++ value → '=' ∈ value.toList) →
        d.select container majors = .error (.invalidEnv entry)
  undeclared : ∀ (d : Descriptor) {env env' : List String} (container : String)
    (majors : List Nat), Undeclared env → Undeclared env' → SameSize env env' →
      (d.withEnv env).select container majors = (d.withEnv env').select container majors
  otherKeys : ∀ (d : Descriptor) {before after : List String} {other : String}
    (container : String) (majors : List Nat), ¬ Declares other →
      (before ++ other :: after).length ≤ 2048 →
        (d.withEnv (before ++ other :: after)).select container majors =
          (d.withEnv (before ++ after)).select container majors

variable {container : String} {majors : List Nat} {env env' : List String} {entry : String}

/-! ### Finding the last declaration -/

/-- The characters of a declaration: the variable's name, the equals
sign and the value. -/
theorem toList_declaration (value : String) : (visibleDevicesVariable ++ "=" ++ value).toList =
    visibleDevicesVariable.toList ++ '=' :: value.toList := by
  rw [String.toList_append, String.toList_append, List.append_assoc]
  rfl

/-- There is no equals sign in the variable's name, so the first one
ends the name. -/
theorem equals_notMem : '=' ∉ visibleDevicesVariable.toList := by decide

/-- Declarations are told by what stands in front of the first equals
sign. An entry without one is a declaration if it is the name itself. -/
theorem isDeclaration_iff : isDeclaration entry = true ↔ Declares entry := by
  show ((entry.toList.splitOn '=').head? == some visibleDevicesVariable.toList) = true ↔ _
  rw [beq_iff_eq, Text.head?_splitOn_eq_some_iff, and_iff_right equals_notMem,
    String.toList_inj]
  refine or_congr_right ⟨?_, ?_⟩
  · rintro ⟨rest, hrest⟩
    refine ⟨String.ofList rest, String.toList_inj.mp ?_⟩
    rw [hrest, toList_declaration, String.toList_ofList]
  · rintro ⟨value, rfl⟩
    exact ⟨value.toList, toList_declaration value⟩

/-- The last declaration is found from the end. What is passed over on
the way declares nothing, and that is what `LastDeclared` says of the
entries after it. -/
theorem lastDeclaration?_eq_some_iff : lastDeclaration? env = some entry ↔
    LastDeclared env entry := by
  show env.reverse.find? isDeclaration = some entry ↔ _
  rw [List.find?_eq_some_iff_append, isDeclaration_iff]
  constructor
  · rintro ⟨hdeclares, after, before, henv, hnone⟩
    refine ⟨before.reverse, after.reverse, ?_, hdeclares, ?_⟩
    · rw [← List.reverse_reverse env, henv]
      simp
    · intro other hother hdeclares'
      have hfalse := hnone other (List.mem_reverse.mp hother)
      rw [isDeclaration_iff.mpr hdeclares'] at hfalse
      cases hfalse
  · rintro ⟨before, after, rfl, hdeclares, hnone⟩
    refine ⟨hdeclares, after.reverse, before.reverse, by simp, ?_⟩
    intro other hother
    rw [Bool.not_eq_true', ← Bool.not_eq_true, isDeclaration_iff]
    exact hnone other (List.mem_reverse.mp hother)

/-- Without a declaration none is found. -/
theorem lastDeclaration?_eq_none_iff : lastDeclaration? env = none ↔ Undeclared env := by
  show env.reverse.find? isDeclaration = none ↔ _
  rw [List.find?_eq_none]
  constructor
  · intro h other hother
    exact fun hdeclares => h other (List.mem_reverse.mpr hother) (isDeclaration_iff.mpr hdeclares)
  · intro h other hother hdeclares
    exact h other (List.mem_reverse.mp hother) (isDeclaration_iff.mp hdeclares)

/-- An entry that declares nothing does not matter for the last
declaration, wherever it stands. -/
theorem lastDeclaration?_insert {before after : List String} {other : String}
    (h : ¬ Declares other) :
    lastDeclaration? (before ++ other :: after) = lastDeclaration? (before ++ after) := by
  have hother : isDeclaration other = false := by
    rw [← Bool.not_eq_true, isDeclaration_iff]
    exact h
  show (before ++ other :: after).reverse.find? isDeclaration =
    (before ++ after).reverse.find? isDeclaration
  simp [List.find?_append, hother]

/-! ### What the declaration comes to -/

/-- The parts of a declaration with one equals sign are the variable's
name and the value. With more of them there are more parts, and with
none there is only one. -/
theorem parts_eq_pair_iff {value : List Char} (h : Declares entry) :
    (∃ name, parts entry = [name, value]) ↔
      entry = visibleDevicesVariable ++ "=" ++ String.ofList value ∧ '=' ∉ value := by
  constructor
  · rintro ⟨name, hparts⟩
    -- The first part is the name of the variable, since the entry declares it.
    have hhead : (parts entry).head? = some visibleDevicesVariable.toList :=
      eq_of_beq (isDeclaration_iff.mpr h)
    rw [hparts] at hhead
    obtain rfl : name = visibleDevicesVariable.toList := Option.some.inj hhead
    obtain ⟨hentry, -, hvalue⟩ := Text.splitOn_eq_pair_iff.mp hparts
    refine ⟨String.toList_inj.mp ?_, hvalue⟩
    rw [hentry, toList_declaration, String.toList_ofList]
  · rintro ⟨rfl, hvalue⟩
    refine ⟨visibleDevicesVariable.toList,
      Text.splitOn_eq_pair_iff.mpr ⟨?_, equals_notMem, hvalue⟩⟩
    rw [toList_declaration, String.toList_ofList]

/-- A declaration with one equals sign gives what its value is decoded
to, with the warnings of the decoder. -/
theorem selectDeclared_wellFormed {value : String} (hvalue : '=' ∉ value.toList) :
    selectDeclared container (visibleDevicesVariable ++ "=" ++ value) =
      .ok (decode container value) := by
  have hdeclares : Declares (visibleDevicesVariable ++ "=" ++ value) := .inr ⟨value, rfl⟩
  obtain ⟨name, hparts⟩ :
      ∃ name, parts (visibleDevicesVariable ++ "=" ++ value) = [name, value.toList] := by
    rw [parts_eq_pair_iff hdeclares, String.ofList_toList]
    exact ⟨rfl, hvalue⟩
  simp only [selectDeclared, hparts, String.ofList_toList]

/-- A declaration without an equals sign, or with more than one, is an error. -/
theorem selectDeclared_malformed (hdeclares : Declares entry)
    (h : ∀ value, entry = visibleDevicesVariable ++ "=" ++ value → '=' ∈ value.toList) :
    selectDeclared container entry = .error (.invalidEnv entry) := by
  unfold selectDeclared
  split
  · rename_i name value hparts
    obtain ⟨hentry, hvalue⟩ := (parts_eq_pair_iff hdeclares).mp ⟨name, hparts⟩
    have hmem := h (String.ofList value) hentry
    rw [String.toList_ofList] at hmem
    exact absurd hmem hvalue
  · rfl

/-- The devices of a declaration do not depend on whose it is. The
container's name stands in the warnings only. -/
theorem devices_selectDeclared (container container' entry : String) :
    (selectDeclared container entry).map (·.devices) =
      (selectDeclared container' entry).map (·.devices) := by
  unfold selectDeclared
  split
  · exact congrArg Except.ok (Device.VisibleDevices.devices_decode container container' _)
  · rfl

/-! ### Descriptors -/

/-- An environment within its limit leaves the device list to be checked. -/
theorem checkLimits_of_envs_le {envs : Nat} (henvs : envs ≤ maxEnvs) (devices : Nat) :
    checkLimits devices envs =
      if maxDevices < devices then .error (.tooManyDevices devices) else .ok () := by
  unfold checkLimits
  rw [if_neg (Nat.not_lt.mpr henvs)]

/-- Lists within their limits are no error. -/
theorem checkLimits_of_le {devices envs : Nat} (hdevices : devices ≤ maxDevices)
    (henvs : envs ≤ maxEnvs) : checkLimits devices envs = .ok () := by
  rw [checkLimits_of_envs_le henvs, if_neg (Nat.not_lt.mpr hdevices)]

/-- In a descriptor with nothing wrong with it, the environment decides.
What the devices of the descriptor would give is named here, as it is
used if nothing is declared. -/
theorem select_of_regular {d : Descriptor} (h : d.Regular env) (container : String)
    (majors : List Nat) :
    ∃ listed, d.select container majors = select container env listed := by
  cases h with
  | @oci rules _ hrules henv =>
    refine ⟨CgroupRule.selectAll container majors rules, ?_⟩
    show (checkLimits rules.length env.length >>= fun _ => select container env _) = _
    rw [checkLimits_of_le hrules henv]
    rfl
  -- The document is not privileged, so it does get to its environment.
  | @isula mappings _ hmappings henv =>
    refine ⟨Mapping.selectAll container mappings, ?_⟩
    show (checkLimits mappings.length env.length >>= fun _ => select container env _) = _
    rw [checkLimits_of_le hmappings henv]
    rfl

/-- The last declaration is all that is seen of the environment of such
a descriptor, and the devices that it lists are not looked at. -/
theorem select_of_lastDeclared {d : Descriptor} (h : d.Regular env)
    (hlast : LastDeclared env entry) (container : String) (majors : List Nat) :
    d.select container majors = selectDeclared container entry := by
  obtain ⟨listed, hselect⟩ := select_of_regular h container majors
  rw [hselect, select, lastDeclaration?_eq_some_iff.mpr hlast]

/-- Environments of the same size are checked with the same outcome. -/
theorem checkLimits_congr (h : SameSize env env') (devices : Nat) :
    checkLimits devices env.length = checkLimits devices env'.length := by
  rcases h with hlength | ⟨henv, henv'⟩
  · rw [hlength]
  · rw [checkLimits_of_envs_le henv, checkLimits_of_envs_le henv']

/-- Nothing of an environment makes a difference but its size and its
last declaration. This is true of any descriptor, also of one whose
sections are missing. -/
theorem select_withEnv_congr (d : Descriptor) (hsize : SameSize env env')
    (hlast : lastDeclaration? env = lastDeclaration? env') (container : String)
    (majors : List Nat) :
    (d.withEnv env).select container majors = (d.withEnv env').select container majors := by
  have hselect : select container env = select container env' := by
    funext listed
    rw [select, select, hlast]
  cases d with
  | oci spec =>
    show (resources spec >>= fun resources =>
        checkLimits resources.devices.length env.length >>= fun _ => select container env _) =
      (resources spec >>= fun resources =>
        checkLimits resources.devices.length env'.length >>= fun _ => select container env' _)
    simp only [checkLimits_congr hsize, hselect]
  | isula document =>
    show (require .hostConfig document.hostConfig >>= fun hostConfig =>
        if hostConfig.privileged then pure Selection.empty
        else checkLimits hostConfig.devices.length env.length >>= fun _ =>
          select container env _) =
      (require .hostConfig document.hostConfig >>= fun hostConfig =>
        if hostConfig.privileged then pure Selection.empty
        else checkLimits hostConfig.devices.length env'.length >>= fun _ =>
          select container env' _)
    simp only [checkLimits_congr hsize, hselect]

/-- The last declaration decides alone, whatever the runtime, the rules
and the other entries are. The first three parts are about regular
descriptors and go by `select_of_lastDeclared`; the others compare two
environments in one descriptor and go by `select_withEnv_congr`. -/
theorem declaration_decides : DeclarationDecides where
  alike container container' majors majors' hd hd' hlast hlast' := by
    rw [select_of_lastDeclared hd hlast, select_of_lastDeclared hd' hlast']
    exact devices_selectDeclared container container' _
  wellFormed container majors hd hlast hvalue := by
    rw [select_of_lastDeclared hd hlast]
    exact selectDeclared_wellFormed hvalue
  malformed container majors hd hlast hvalue := by
    obtain ⟨-, -, -, hdeclares, -⟩ := id hlast
    rw [select_of_lastDeclared hd hlast]
    exact selectDeclared_malformed hdeclares hvalue
  undeclared d env env' container majors henv henv' hsize := by
    refine select_withEnv_congr d hsize ?_ container majors
    rw [lastDeclaration?_eq_none_iff.mpr henv, lastDeclaration?_eq_none_iff.mpr henv']
  otherKeys d before after other container majors hother hlength := by
    have hsize : SameSize (before ++ other :: after) (before ++ after) := by
      refine .inr ⟨hlength, ?_⟩
      rw [List.length_append, List.length_cons] at hlength
      rw [List.length_append]
      omega
    exact select_withEnv_congr d hsize (lastDeclaration?_insert hother) container majors

-- The first declaration is a good one, and the device would be the driver's.
example : (Descriptor.oci ⟨some ⟨["ASCEND_VISIBLE_DEVICES=1", "ASCEND_VISIBLE_DEVICES=2=3",
      "MY_ASCEND_VISIBLE_DEVICES=4"]⟩,
    some ⟨some ⟨[{ kind := some "c", major := some 236, minor := some 5 }]⟩⟩⟩).select "c1" [236] =
      .error (.invalidEnv "ASCEND_VISIBLE_DEVICES=2=3") := by
  decide +kernel

end Attribution

end NpuAttribution
