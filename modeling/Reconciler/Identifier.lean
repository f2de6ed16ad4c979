import Reconciler.Json.Form
import Reconciler.RankOrder
import Reconciler.SortedMap

/-!
# Identifiers

The names that operators and hosts give to things. An `Identifier` says which kind of thing it
names, so that names of different kinds cannot be confused; names of one kind are ordered by code
point.
-/

namespace Reconciler

/-- The kinds of things that have names. -/
inductive Role where
  | lattice
  | host
  | application
  | component
  | replica
  | key
deriving DecidableEq, Repr

/-- The name of a thing of some kind. -/
structure Identifier (role : Role) where
  text : String
deriving DecidableEq, Inhabited, Repr

namespace Identifier

variable {role : Role}

instance : Ord (Identifier role) :=
  rankOrd Identifier.text

instance : Std.TransOrd (Identifier role) :=
  transOrd_rankOrd Identifier.text

instance : Std.LawfulEqOrd (Identifier role) :=
  lawfulEqOrd_rankOrd Identifier.text fun first second same => by
    cases first
    cases second
    exact congrArg _ same

instance : JsonForm (Identifier role) where
  write identifier := .string identifier.text
  read? _ json := json.text?.map Identifier.mk

end Identifier

/-- A lattice: a set of hosts apart from all others. -/
abbrev LatticeId :=
  Identifier .lattice

/-- A host, under the name that it reports with. -/
abbrev HostId :=
  Identifier .host

/-- An application, whatever the version of its manifest. -/
abbrev AppName :=
  Identifier .application

/-- A component or provider, unique in its lattice. -/
abbrev ComponentId :=
  Identifier .component

/-- A running instance on a host. -/
abbrev InstanceId :=
  Identifier .replica

/-- What a command does, so that repeats of it fall together. -/
abbrev IdempotencyKey :=
  Identifier .key

/-- The identity in a lattice of a component that a manifest of an application names. -/
def ComponentId.scoped (app : AppName) (component : String) : ComponentId :=
  ⟨app.text ++ "-" ++ component⟩

/-- The key of an action of some kind on a target, for a component in a lattice. -/
def IdempotencyKey.derive (lattice : LatticeId) (component : ComponentId) (kind target : String) :
    IdempotencyKey :=
  ⟨lattice.text ++ "/" ++ component.text ++ "/" ++ kind ++ "/" ++ target⟩

/-- Names with values: what a host advertises, or notes attached to something. -/
abbrev Labels :=
  SortedMap String String

namespace Labels

/-- The annotation that names the application an instance was started for. -/
def managedBy : String :=
  "lattice.app"

/-- Whether labels hold every one of the required labels. -/
def satisfy (labels requirements : Labels) : Bool :=
  requirements.all fun name value => labels.find? name == some value

/-- The annotations of whatever is started for an application. -/
def forApp (app : AppName) : Labels :=
  SortedMap.insert ∅ managedBy app.text

end Labels

end Reconciler
