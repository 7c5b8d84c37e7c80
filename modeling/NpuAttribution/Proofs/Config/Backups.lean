import NpuAttribution.Proofs.Config.Path

/-!
# `NpuAttribution.Proofs.Config.Backups`: an endpoint and its backups

Backups are put on the list one after the other, and a backup is left out if its path is on the
list already. So the list grows at its end only, its paths stay different, and in the end every
backup is on it by its path. `exists_kept` says this of backups that are put behind any list of
endpoints, and `backsUp_withBackups` of the list that begins with a single one.
-/

set_option autoImplicit false

namespace NpuAttribution

namespace Endpoint

/-- No two endpoints of a list have the same path. -/
def Distinct (es : List Endpoint) : Prop := es.Pairwise fun a b => ¬ SamePath a b

/-- Every backup has the path of an endpoint on the list. -/
def Covers (es backups : List Endpoint) : Prop := ∀ b ∈ backups, ∃ e ∈ es, SamePath e b

/-- A list is that of an endpoint and its backups:

- `first`: the endpoint itself is at the front, as it is written;
- `distinct`: no two of the paths are the same;
- `alone`: if backups are not to be used then there is nothing else;
- `backed`: otherwise some of the backups follow, in their order;
- `covered`: and none is missing, as its path is on the list. -/
structure BacksUp (primary : Endpoint) (backups : List Endpoint) (useBackup : Bool)
    (es : List Endpoint) : Prop where
  first : es.head? = some primary
  distinct : Distinct es
  alone : useBackup = false → es = [primary]
  backed : useBackup = true → ∃ kept, kept.Sublist backups ∧ es = primary :: kept
  covered : useBackup = true → Covers es backups

variable {e b : Endpoint} {es : List Endpoint}

/-- To have the same path is the same in either direction. -/
theorem SamePath.symm (h : SamePath e b) : SamePath b e := Relation.EqvGen.symm _ _ h

/-- A backup is put behind the endpoints, unless its path is one of theirs. -/
def addBackup (es : List Endpoint) (b : Endpoint) : List Endpoint :=
  if es.any (same b) then es else es ++ [b]

/-- With backups, the list is made by adding one after the other
behind the endpoint. -/
theorem withBackups_true (primary : Endpoint) (backups : List Endpoint) :
    primary.withBackups backups true = backups.foldl addBackup [primary] := rfl

/-- What becomes of a list to which a backup is added. Either its
path is there and the list stays the same, or it is not and the
backup is put at the end. -/
theorem addBackup_cases (es : List Endpoint) (b : Endpoint) :
    (∃ e ∈ es, SamePath e b) ∧ addBackup es b = es ∨
      (∀ e ∈ es, ¬ SamePath e b) ∧ addBackup es b = es ++ [b] := by
  unfold addBackup
  split
  · rename_i hany
    obtain ⟨e, he, hsame⟩ := List.any_eq_true.mp hany
    exact .inl ⟨⟨e, he, (same_iff.mp hsame).symm⟩, rfl⟩
  · rename_i hnone
    refine .inr ⟨fun e he hpath => hnone ?_, rfl⟩
    exact List.any_eq_true.mpr ⟨e, he, same_iff.mpr hpath.symm⟩

/-- Paths stay different if one that is not among them is put at the end. -/
theorem Distinct.append_singleton (h : Distinct es) (hnone : ∀ e ∈ es, ¬ SamePath e b) :
    Distinct (es ++ [b]) := by
  refine List.pairwise_append.mpr ⟨h, List.pairwise_singleton _ b, fun e he b' hb' => ?_⟩
  rw [List.mem_singleton.mp hb']
  exact hnone e he

/-- What becomes of a list to which backups are added one after the other.
The backups that are kept are named, in their order, and the paths of the
others are on the list already. The induction is on the backups. -/
theorem exists_kept (hdistinct : Distinct es) (backups : List Endpoint) :
    ∃ kept, kept.Sublist backups ∧ backups.foldl addBackup es = es ++ kept ∧
      Distinct (es ++ kept) ∧ Covers (es ++ kept) backups := by
  -- The paths on the list stay different from each other, and none is taken off again.
  induction backups generalizing es with
  | nil => exact ⟨[], .slnil, (List.append_nil es).symm, by rwa [List.append_nil], nofun⟩
  | cons b backups ih =>
    rw [List.foldl_cons]
    rcases addBackup_cases es b with ⟨⟨e, he, hpath⟩, hadd⟩ | ⟨hnone, hadd⟩
    · obtain ⟨kept, hsub, hfold, hkept, hcovers⟩ := ih hdistinct
      rw [hadd]
      refine ⟨kept, hsub.cons b, hfold, hkept, List.forall_mem_cons.mpr ⟨?_, hcovers⟩⟩
      exact ⟨e, List.mem_append_left kept he, hpath⟩
    · obtain ⟨kept, hsub, hfold, hkept, hcovers⟩ := ih (hdistinct.append_singleton hnone)
      rw [List.append_assoc, List.singleton_append] at hfold hkept hcovers
      rw [hadd]
      refine ⟨b :: kept, hsub.cons_cons b, hfold, hkept, List.forall_mem_cons.mpr ⟨?_, hcovers⟩⟩
      exact ⟨b, by simp, .refl _⟩

/-- The list of an endpoint and its backups is what it should be. With
`useBackup` unset it is the endpoint alone, and otherwise `exists_kept`
is applied to the list of just this one. -/
theorem backsUp_withBackups (primary : Endpoint) (backups : List Endpoint) (useBackup : Bool) :
    BacksUp primary backups useBackup (primary.withBackups backups useBackup) := by
  have hsingle : Distinct [primary] := List.pairwise_singleton _ primary
  cases useBackup with
  | false => exact ⟨rfl, hsingle, fun _ => rfl, nofun, nofun⟩
  | true =>
    obtain ⟨kept, hsub, hfold, hkept, hcovers⟩ := exists_kept hsingle backups
    rw [withBackups_true, hfold]
    exact ⟨rfl, hkept, nofun, fun _ => ⟨kept, hsub, rfl⟩, fun _ => hcovers⟩

/-- There always is an endpoint, whether backups are tried or not. So
an attempt to connect has something to connect to, and an error to
report if it fails. -/
theorem withBackups_ne_nil (primary : Endpoint) (backups : List Endpoint) (useBackup : Bool) :
    primary.withBackups backups useBackup ≠ [] := by
  intro hnil
  have hfirst := (backsUp_withBackups primary backups useBackup).first
  rw [hnil] at hfirst
  cases hfirst

-- A backup is left out only if its path is there, and it may be there in another spelling.
example : withBackups ⟨"/run//a.sock"⟩ [⟨"/run/./a.sock"⟩, ⟨"./run/a.sock"⟩, ⟨"run/a.sock"⟩] true =
    [⟨"/run//a.sock"⟩, ⟨"./run/a.sock"⟩, ⟨"run/a.sock"⟩] := by
  decide +kernel

end Endpoint

end NpuAttribution
