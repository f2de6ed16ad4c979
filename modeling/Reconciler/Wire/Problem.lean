import Reconciler.Engine.Error
import Reconciler.Json.Basic

/-!
# JSON forms of errors

An error is an object with the name of its kind and the text that describes it, and with whether an
engine can go on after it where that is a question.
-/

namespace Reconciler

/-- An error as an object: its kind, and what more there is to say. -/
def Json.problem (kind : String) (more : List (String × Json)) : Json :=
  .object (("error", .string kind) :: more)

namespace ValidationError

/-- The name of the kind of a problem with a manifest. -/
def kind : ValidationError → String
  | emptyName => "EmptyName"
  | nameMismatch .. => "NameMismatch"
  | emptyComponentName => "EmptyComponentName"
  | duplicateComponent _ => "DuplicateComponent"
  | missingImage _ => "MissingImage"
  | duplicateScaler _ => "DuplicateScaler"
  | undeclaredLinkTarget .. => "UndeclaredLinkTarget"
  | duplicateLink .. => "DuplicateLink"

/-- The form of a problem with a manifest. -/
def form (problem : ValidationError) : Json :=
  .problem problem.kind [("message", .string problem.message)]

end ValidationError

namespace StoreError

/-- The name of the kind of an error of a store. -/
def kind : StoreError → String
  | notFound _ => "NotFound"
  | versionNotFound .. => "VersionNotFound"
  | duplicateVersion .. => "DuplicateVersion"
  | invalid problem => "Validation." ++ problem.kind
  | unavailable _ => "Unavailable"

/-- The form of an error of a store. -/
def form (problem : StoreError) : Json :=
  .problem problem.kind [("message", .string problem.message), ("fatal", .bool problem.isFatal)]

end StoreError

/-- The name of the kind of an error of a transport. -/
def SinkError.kind : SinkError → String
  | transient _ => "Transport.Transient"
  | fatal _ => "Transport.Fatal"

namespace DispatchError

/-- The name of the kind of an error of a dispatcher. -/
def kind : DispatchError → String
  | unknownHandle _ => "UnknownHandle"
  | transport problem => problem.kind

/-- The form of an error of a dispatcher. -/
def form (problem : DispatchError) : Json :=
  .problem problem.kind [("message", .string problem.message), ("fatal", .bool problem.isFatal)]

end DispatchError

namespace ControlError

/-- The name of the kind of an error of an engine. -/
def kind : ControlError → String
  | store problem => "Manifest." ++ problem.kind
  | dispatch problem => "Dispatch." ++ problem.kind
  | notAssigned .. => "NotAssigned"
  | alreadyDeployed .. => "AlreadyDeployed"
  | notDeployed _ => "NotDeployed"
  | unhealthy _ => "Unhealthy"
  | config _ => "Config"

/-- The form of an error of an engine; it says what is wrong with a manifest that was not taken. -/
def form (problem : ControlError) : Json :=
  .problem problem.kind
    [("message", .string problem.message), ("fatal", .bool problem.isFatal),
      ("validation",
        match problem.validation? with
        | some problem => .string problem.kind
        | none => .null)]

end ControlError

end Reconciler
