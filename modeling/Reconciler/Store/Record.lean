import Reconciler.Store.Error
import Reconciler.Time.Timestamp

/-!
# History of an application

The versions of the manifest of one application, one of them current, and where the application is
deployed.
-/

namespace Reconciler

/-- How far a deployment has come. -/
inductive DeploymentPhase where
  | active
  /-- The application is deleted once nothing of it is left in the lattice. -/
  | undeploying
deriving DecidableEq, Inhabited, Repr

/-- Where an application is deployed. -/
structure DeploymentRecord where
  lattice : LatticeId
  phase : DeploymentPhase
  updatedAt : Timestamp
deriving DecidableEq, Inhabited, Repr

/-- A version in a list of versions. -/
structure VersionInfo where
  version : String
  createdAt : Timestamp
  current : Bool
deriving DecidableEq, Inhabited, Repr

/-- A version of a manifest. -/
structure StoredVersion where
  manifest : Manifest
  createdAt : Timestamp
deriving DecidableEq, Inhabited

/-- The label of a version. -/
def StoredVersion.label (stored : StoredVersion) : String :=
  stored.manifest.version

/-- The history of an application, the oldest version first. -/
structure AppRecord where
  versions : List StoredVersion
  /-- The place of the current version. -/
  current : Nat
  deployment : Option DeploymentRecord
deriving DecidableEq, Inhabited

namespace AppRecord

/-- The history of an application without versions. -/
def empty : AppRecord :=
  ⟨[], 0, none⟩

/-- The labels of the versions, the oldest first. -/
def labels (record : AppRecord) : List String :=
  record.versions.map StoredVersion.label

/-- The place of the version with a label. -/
def find? (record : AppRecord) (version : String) : Option Nat :=
  record.versions.findIdx? fun stored => stored.label == version

/-- The label that goes with a number. -/
def numberedLabel (number : Nat) : String :=
  "v" ++ toString number

/-- The first label from a number on that is not taken, if one of the next tries finds it. -/
def firstFreeLabel (taken : List String) : Nat → Nat → String
  | 0, number => numberedLabel number
  | tries + 1, number =>
    if taken.contains (numberedLabel number) then firstFreeLabel taken tries (number + 1)
    else numberedLabel number

/-- The label for a version that has none: the first free one past the number of versions. -/
def nextLabel (record : AppRecord) : String :=
  firstFreeLabel record.labels record.versions.length (record.versions.length + 1)

/-- The current version. -/
def current? (record : AppRecord) : Option Manifest :=
  (record.versions[record.current]?).map StoredVersion.manifest

/-- The version with a label. -/
def version? (record : AppRecord) (version : String) : Option Manifest :=
  (record.versions.find? fun stored => stored.label == version).map StoredVersion.manifest

/-- The history with one more version, which is current. -/
def push (record : AppRecord) (manifest : Manifest) (now : Timestamp) : AppRecord :=
  { record with
    versions := record.versions ++ [⟨manifest, now⟩]
    current := record.versions.length }

/-- The list of versions, the oldest first. -/
def infos (record : AppRecord) : List VersionInfo :=
  record.versions.zipIdx.map fun (stored, place) =>
    ⟨stored.label, stored.createdAt, place == record.current⟩

/--
Removes a number of versions, the oldest first and never the current one: the versions that stay,
and the place of the current one among them.
-/
def dropOldest (excess : Nat) (current : Nat) : List StoredVersion → List StoredVersion × Nat
  | [] => ([], current)
  | stored :: rest =>
    match excess, current with
    | 0, _ => (stored :: rest, current)
    | _, 0 => (stored :: rest.drop excess, 0)
    | excess + 1, current + 1 => dropOldest excess current rest

/-- The number of versions that pruning removes. -/
def excess (record : AppRecord) (keep : Nat) : Nat :=
  record.versions.length - max keep 1

/-- The history with no more versions than to be kept, at least one, among them the current one. -/
def prune (record : AppRecord) (keep : Nat) : AppRecord :=
  let (versions, current) := dropOldest (record.excess keep) record.current record.versions
  { record with versions := versions, current := current }

end AppRecord

end Reconciler
