/-!
# `NpuAttribution.Config.Endpoint`: socket endpoints

An endpoint is the path of a Unix socket. Its text is kept as the operator wrote it,
because that is how it is shown and dialled. Two endpoints are the same if their paths
have the same components, so doubled slashes, a slash at the end and `.` components
after the first do not tell endpoints apart.
-/

set_option autoImplicit false

namespace NpuAttribution

/-- The path of a Unix socket. -/
structure Endpoint where
  path : String
  deriving DecidableEq, Repr

/-- What a path means: whether it starts at the root, and its components. -/
structure PathComponents where
  rooted : Bool
  names : List (List Char)
  deriving DecidableEq, Repr

namespace Endpoint

/-- The components of an endpoint's path. A `.` counts only at the very
beginning of a path that does not start at the root. -/
def components (e : Endpoint) : PathComponents :=
  match e.path.toList.splitOn '/' with
  -- The path begins with a slash, or it is empty.
  | [] :: pieces => ⟨!pieces.isEmpty, pieces.filter fun p => p ≠ [] ∧ p ≠ ['.']⟩
  -- The first component of a relative path is kept even if it is a dot.
  | first :: pieces => ⟨false, first :: pieces.filter fun p => p ≠ [] ∧ p ≠ ['.']⟩
  | [] => ⟨false, []⟩

/-- Whether two endpoints are the same. -/
def same (a b : Endpoint) : Bool := a.components == b.components

/-- Whether two lists name the same endpoints in the same order. -/
def sameList (as bs : List Endpoint) : Bool :=
  as.map components == bs.map components

/-- What may stand before the path of a socket. -/
def scheme : String := "unix://"

/-- What the path of a socket ends in. -/
def suffix : String := ".sock"

/-- The text without the scheme in front of it. The scheme is
removed once only. -/
def withoutScheme (raw : List Char) : List Char :=
  if scheme.toList.isPrefixOf raw then raw.drop scheme.length else raw

/-- Reads an endpoint, which must be the path of a `.sock` file. -/
def ofString? (raw : String) : Option Endpoint :=
  let path := withoutScheme raw.toList
  if suffix.toList.isSuffixOf path then some ⟨String.ofList path⟩ else none

/-- An endpoint followed by the backups that are not yet on the
list. A backup that is the same as one before it is left out,
however it is written. -/
def withBackups (primary : Endpoint) (backups : List Endpoint) (useBackup : Bool) :
    List Endpoint :=
  if useBackup then
    backups.foldl (fun es b => if es.any (same b) then es else es ++ [b]) [primary]
  else
    [primary]

end Endpoint

end NpuAttribution
