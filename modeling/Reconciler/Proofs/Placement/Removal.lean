import Reconciler.Proofs.Placement.Scope
import Reconciler.Proofs.Placement.Starts

/-!
# Removing an application

The evaluation that removes an application finds nothing to do exactly when nothing of it is left,
and it starts nothing.
-/

namespace Reconciler

variable {app : AppName} {observed : ObservedState}

/-- All instances of an application are orphans for a manifest without components. -/
theorem orphans_new (app : AppName) (version : String) (observed : ObservedState) :
    (Manifest.new app version).orphans observed = observed.managedInstances app :=
  List.filter_eq_self.mpr fun _ _ => rfl

/-- All links of an application are undeclared for a manifest without components. -/
theorem linkActions_new (app : AppName) (version : String) (observed : ObservedState) :
    (Manifest.new app version).linkActions observed =
      (observed.linksOwnedBy app).map fun link => .removeLink link.key := by
  have undeclared : ((observed.linksOwnedBy app).filter fun link =>
      !(Manifest.new app version).desiredLinks.contains link.key) = observed.linksOwnedBy app :=
    List.filter_eq_self.mpr fun _ _ => rfl
  have nothing : (Manifest.new app version).desiredLinks.values = [] := rfl
  rw [Manifest.linkActions, nothing]
  simp only [List.filter_nil, List.map_nil, List.nil_append]
  exact congrArg (List.map _) undeclared

theorem orphanActions_eq_nil_iff {manifest : Manifest} :
    manifest.orphanActions observed = [] ↔ manifest.orphans observed = [] := by
  constructor
  · intro nothing
    have places : ((manifest.orphanActions observed).flatMap RequiredAction.stoppedPlaces).Perm
        ((manifest.orphans observed).map PlacedInstance.place) := Manifest.orphanActions_places_perm
    rw [nothing, List.flatMap_nil] at places
    exact List.map_eq_nil_iff.mp places.symm.eq_nil
  · intro none
    rw [Manifest.orphanActions, none]
    rfl

/-- Nothing is missing for a removal exactly when nothing of the application is left. -/
theorem evaluateTeardown_eq_nil_iff :
    evaluateTeardown app observed = [] ↔ observed.isClearOf app = true := by
  have noScalers : (Manifest.new app "").scalerActions observed = [] := rfl
  rw [evaluateTeardown, evaluate, noScalers, List.nil_append, List.append_eq_nil_iff,
    orphanActions_eq_nil_iff, orphans_new, linkActions_new, List.map_eq_nil_iff,
    ObservedState.isClearOf, Bool.and_eq_true, List.isEmpty_iff, List.isEmpty_iff]

/-- A removal only stops instances and removes links. -/
theorem isDestructive_of_mem_evaluateTeardown {action : RequiredAction}
    (member : action ∈ evaluateTeardown app observed) : action.kind.isDestructive = true := by
  cases action with
  | startInstances id kind imageRef host selector count =>
      rcases Manifest.exists_component_of_mem_evaluate member with ⟨component, none, _⟩
      cases none
  | addLink link =>
      have declared := (Manifest.addLink_mem_evaluate_iff.mp member).1
      cases declared
  | stopInstances component host instances => rfl
  | removeLink key => rfl

end Reconciler
