import Reconciler.Proofs.Keys
import Reconciler.Proofs.Placement.Scope

/-!
# The operations of an evaluation

No two actions of one evaluation do the same to the same: each starts or stops the instances of a
component on a host, or adds or removes a link, that no other action of its kind does. What is left
for two of them to have one key is that a part of one key overruns a part of the other.
-/

namespace Reconciler

namespace RequiredAction

/-- Actions do different things if what they do tells the different things they come from. -/
theorem nodup_operations_map {α β : Type} {items : List α} {nameOf : α → β}
    {actionOf : α → RequiredAction} (nodup : (items.map nameOf).Nodup)
    (told : ∀ first second, (actionOf first).operation = (actionOf second).operation →
      nameOf first = nameOf second) :
    ((items.map actionOf).map operation).Nodup := by
  rw [List.map_map, List.Nodup, List.pairwise_map]
  apply (List.pairwise_map.mp nodup).imp
  intro first second different same
  exact different (told first second same)

/-- Groups of actions for different components do different things. -/
theorem nodup_operations_flatMap {α : Type} {items : List α} {actionsOf : α → List RequiredAction}
    {componentOf : α → ComponentId}
    (apart : items.Pairwise fun first second => componentOf first ≠ componentOf second)
    (ofComponent : ∀ item ∈ items, ∀ action ∈ actionsOf item, action.component = componentOf item)
    (each : ∀ item ∈ items, ((actionsOf item).map operation).Nodup) :
    ((items.flatMap actionsOf).map operation).Nodup := by
  rw [List.map_flatMap, List.nodup_flatMap]
  refine ⟨each, apart.imp_of_mem ?_⟩
  intro first second firstMember secondMember different operation ofFirst ofSecond
  rcases List.mem_map.mp ofFirst with ⟨action, member, rfl⟩
  rcases List.mem_map.mp ofSecond with ⟨other, otherMember, same⟩
  apply different
  calc
    componentOf first = action.component := (ofComponent first firstMember action member).symm
    _ = other.component := congrArg (fun operation => operation.2.1) same.symm
    _ = componentOf second := ofComponent second secondMember other otherMember

theorem nodup_operations_append {actions others : List RequiredAction}
    (nodup : (actions.map operation).Nodup) (othersNodup : (others.map operation).Nodup)
    (apart : ∀ action ∈ actions, ∀ other ∈ others, action.operation ≠ other.operation) :
    ((actions ++ others).map operation).Nodup := by
  rw [List.map_append, List.nodup_append]
  refine ⟨nodup, othersNodup, ?_⟩
  intro operation inActions other inOthers
  rcases List.mem_map.mp inActions with ⟨action, member, rfl⟩
  rcases List.mem_map.mp inOthers with ⟨other, otherMember, rfl⟩
  exact apart action member other otherMember

end RequiredAction

theorem PlacedInstance.nodup_operations_stopActions (component : ComponentId)
    (instances : List PlacedInstance) :
    ((stopActions component instances).map RequiredAction.operation).Nodup := by
  apply RequiredAction.nodup_operations_map (SortedMap.nodup_keys _)
  intro first second same
  simpa [RequiredAction.operation, RequiredAction.host?] using congrArg (·.2.2.1) same

namespace Spread

variable {app : AppName} {id : ComponentId} {component : Component} {scaler : SpreadScaler}
  {observed : ObservedState}

theorem nodup_operations_startActions (id : ComponentId) (component : Component) (plan : Plan) :
    ((startActions id component plan).map RequiredAction.operation).Nodup := by
  apply RequiredAction.nodup_operations_map (SortedMap.nodup_keys _)
  intro first second same
  simpa [RequiredAction.operation, RequiredAction.host?] using congrArg (·.2.2.1) same

theorem of_mem_evaluate {action : RequiredAction}
    (member : action ∈ evaluate app id component scaler observed) :
    action.component = id ∧ (action.kind = .start ∨ action.kind = .stop) := by
  rcases List.mem_append.mp member with started | stopped
  · rcases List.mem_map.mp started with ⟨_, _, rfl⟩
    exact ⟨rfl, Or.inl rfl⟩
  · rcases PlacedInstance.of_mem_stopActions stopped with ⟨_, rfl⟩
    exact ⟨rfl, Or.inr rfl⟩

theorem nodup_operations_evaluate (app : AppName) (id : ComponentId) (component : Component)
    (scaler : SpreadScaler) (observed : ObservedState) :
    ((evaluate app id component scaler observed).map RequiredAction.operation).Nodup := by
  apply RequiredAction.nodup_operations_append (nodup_operations_startActions _ _ _)
    (PlacedInstance.nodup_operations_stopActions _ _)
  intro action started other stopped
  rcases List.mem_map.mp started with ⟨_, _, rfl⟩
  rcases PlacedInstance.of_mem_stopActions stopped with ⟨_, rfl⟩
  simp [RequiredAction.operation, RequiredAction.kind]

end Spread

namespace Manifest

variable {manifest : Manifest} {observed : ObservedState}

theorem of_mem_scalerActions {action : RequiredAction}
    (member : action ∈ manifest.scalerActions observed) :
    action.component ∈ manifest.declaredIds ∧ (action.kind = .start ∨ action.kind = .stop) := by
  simp only [scalerActions, List.mem_flatMap] at member
  rcases member with ⟨component, componentMember, scaler, _, inEvaluate⟩
  rcases Spread.of_mem_evaluate inEvaluate with ⟨ofComponent, kind⟩
  exact ⟨ofComponent ▸ List.mem_map_of_mem componentMember, kind⟩

theorem mem_orphans_iff {placed : PlacedInstance} :
    placed ∈ manifest.orphans observed ↔
      placed ∈ observed.managedInstances manifest.name ∧
        placed.record.component ∉ manifest.declaredIds := by
  simp [orphans]

theorem of_mem_orphanActions {action : RequiredAction}
    (member : action ∈ manifest.orphanActions observed) :
    (∃ placed ∈ manifest.orphans observed, placed.record.component = action.component) ∧
      action.kind = .stop := by
  simp only [orphanActions, List.mem_flatMap, Prod.exists] at member
  rcases member with ⟨component, group, collected, stopped⟩
  rcases PlacedInstance.of_mem_stopActions stopped with ⟨_, rfl⟩
  -- Orphans are collected under a component if one of them is of that component.
  rcases SortedMap.mem_entries_collect_iff.mp collected with ⟨nonempty, rfl⟩
  rcases List.exists_mem_of_ne_nil _ nonempty with ⟨placed, inGroup⟩
  rcases List.mem_filter.mp inGroup with ⟨orphaned, ofComponent⟩
  exact ⟨⟨placed, orphaned, of_decide_eq_true ofComponent⟩, rfl⟩

theorem of_mem_linkActions {action : RequiredAction}
    (member : action ∈ manifest.linkActions observed) :
    (∃ link ∈ manifest.linkList, action = .addLink link) ∨
      ∃ link ∈ observed.linksOwnedBy manifest.name, action = .removeLink link.key := by
  rcases List.mem_append.mp member with added | removed
  · rcases List.mem_map.mp added with ⟨link, missing, rfl⟩
    have desired := mem_desiredLinks_values_iff.mp (List.mem_of_mem_filter missing)
    exact Or.inl ⟨link, (of_find?_desiredLinks desired).2, rfl⟩
  · rcases List.mem_map.mp removed with ⟨link, undeclared, rfl⟩
    exact Or.inr ⟨link, List.mem_of_mem_filter undeclared, rfl⟩

theorem nodup_operations_scalerActions (valid : manifest.isValid = true)
    (observed : ObservedState) :
    ((manifest.scalerActions observed).map RequiredAction.operation).Nodup := by
  apply RequiredAction.nodup_operations_flatMap (pairwise_componentId_ne valid)
  · intro component _ action member
    rcases List.mem_flatMap.mp member with ⟨scaler, _, inEvaluate⟩
    exact (Spread.of_mem_evaluate inEvaluate).1
  · intro component member
    rcases scalers_cases valid member with unscaled | ⟨scaler, scaled⟩
    · simp [unscaled]
    · simpa [scaled] using Spread.nodup_operations_evaluate _ _ _ _ _

theorem nodup_operations_orphanActions (manifest : Manifest) (observed : ObservedState) :
    ((manifest.orphanActions observed).map RequiredAction.operation).Nodup := by
  apply RequiredAction.nodup_operations_flatMap (List.pairwise_map.mp (SortedMap.nodup_keys _))
  · intro entry _ action member
    rcases PlacedInstance.of_mem_stopActions member with ⟨_, rfl⟩
    rfl
  · intro entry _
    exact PlacedInstance.nodup_operations_stopActions _ _

theorem nodup_operations_linkActions (manifest : Manifest) (reachable : observed.Reachable) :
    ((manifest.linkActions observed).map RequiredAction.operation).Nodup := by
  have desired : (manifest.desiredLinks.values.map ActiveLink.key).Nodup := by
    rw [SortedMap.map_values_eq_keys fun key link found => (of_find?_desiredLinks found).1]
    exact SortedMap.nodup_keys _
  have standing : (observed.links.values.map ActiveLink.key).Nodup := by
    rw [SortedMap.map_values_eq_keys fun key link found => reachable.key_link found]
    exact SortedMap.nodup_keys _
  rw [linkActions]
  apply RequiredAction.nodup_operations_append
  · apply RequiredAction.nodup_operations_map (desired.sublist (List.filter_sublist.map _))
    intro first second same
    simpa [RequiredAction.operation, RequiredAction.linkKey?] using congrArg (·.2.2.2) same
  · apply RequiredAction.nodup_operations_map
      (standing.sublist ((List.filter_sublist.trans List.filter_sublist).map _))
    intro first second same
    simpa [RequiredAction.operation, RequiredAction.linkKey?] using congrArg (·.2.2.2) same
  · intro action added other removed
    rcases List.mem_map.mp added with ⟨_, _, rfl⟩
    rcases List.mem_map.mp removed with ⟨_, _, rfl⟩
    simp [RequiredAction.operation, RequiredAction.kind]

/-- No two actions of an evaluation for a valid manifest do the same to the same. -/
theorem nodup_operations_evaluate (valid : manifest.isValid = true)
    (reachable : observed.Reachable) :
    ((evaluate manifest observed).map RequiredAction.operation).Nodup := by
  have kindOf : ∀ {action other : RequiredAction}, action.operation = other.operation →
      action.kind = other.kind := fun same => congrArg Prod.fst same
  rw [evaluate]
  apply RequiredAction.nodup_operations_append
  · apply RequiredAction.nodup_operations_append
      (nodup_operations_scalerActions valid observed)
      (nodup_operations_orphanActions manifest observed)
    intro action scaled other orphaned same
    have sameComponent : action.component = other.component :=
      congrArg (fun operation => operation.2.1) same
    rcases (of_mem_orphanActions orphaned).1 with ⟨placed, isOrphan, ofComponent⟩
    apply (mem_orphans_iff.mp isOrphan).2
    rw [ofComponent, ← sameComponent]
    exact (of_mem_scalerActions scaled).1
  · exact nodup_operations_linkActions manifest reachable
  · intro action member other linked same
    have onHost : action.kind = .start ∨ action.kind = .stop := by
      rcases List.mem_append.mp member with scaled | orphaned
      · exact (of_mem_scalerActions scaled).2
      · exact Or.inr (of_mem_orphanActions orphaned).2
    rw [kindOf same] at onHost
    rcases of_mem_linkActions linked with ⟨_, _, rfl⟩ | ⟨_, _, rfl⟩
    · simp [RequiredAction.kind] at onHost
    · simp [RequiredAction.kind] at onHost

/--
Whether there is no separator in the components and links that a manifest declares and that its
application has in a lattice.
-/
def isPlain (manifest : Manifest) (observed : ObservedState) : Bool :=
  manifest.declaredIds.all ComponentId.isPlain &&
    (manifest.linkList.all fun link => link.key.isPlain) &&
    ((observed.managedInstances manifest.name).all fun placed => placed.record.component.isPlain) &&
    (observed.linksOwnedBy manifest.name).all fun link => link.key.isPlain

theorem isPlain_of_mem_evaluate (plain : manifest.isPlain observed = true)
    {action : RequiredAction} (member : action ∈ evaluate manifest observed) :
    action.isPlain = true := by
  simp only [isPlain, Bool.and_eq_true, List.all_eq_true] at plain
  rcases plain with ⟨⟨⟨declared, declaredLinks⟩, managed⟩, owned⟩
  have onHost : ∀ action : RequiredAction, (action.kind = .start ∨ action.kind = .stop) →
      action.component.isPlain = true → action.isPlain = true := by
    intro action kind plainComponent
    cases action <;> simp_all [RequiredAction.isPlain, RequiredAction.kind, RequiredAction.linkKey?]
  have onLink : ∀ action : RequiredAction, ∀ key : LinkKey, action.linkKey? = some key →
      action.component = key.source → key.isPlain = true → action.isPlain = true := by
    intro action key named source plainKey
    simp_all [RequiredAction.isPlain, LinkKey.isPlain]
  rw [evaluate, List.mem_append, List.mem_append] at member
  rcases member with (scaled | orphaned) | linked
  · rcases of_mem_scalerActions scaled with ⟨isDeclared, kind⟩
    exact onHost action kind (declared _ isDeclared)
  · rcases of_mem_orphanActions orphaned with ⟨⟨placed, isOrphan, ofComponent⟩, kind⟩
    apply onHost action (Or.inr kind)
    exact ofComponent ▸ managed placed (mem_orphans_iff.mp isOrphan).1
  · rcases of_mem_linkActions linked with ⟨link, isDeclared, rfl⟩ | ⟨link, isOwned, rfl⟩
    · exact onLink _ link.key rfl rfl (declaredLinks link isDeclared)
    · exact onLink _ link.key rfl rfl (owned link isOwned)

/--
The actions of an evaluation for a valid manifest have different keys exactly if none of them
overruns another. None does if there is no separator in the names that the manifest declares and in
those of what its application has in the lattice.
-/
theorem evaluate_idempotencyKeys_nodup_iff (valid : manifest.isValid = true)
    (reachable : observed.Reachable) (lattice : LatticeId) :
    (((evaluate manifest observed).map (·.idempotencyKey lattice)).Nodup ↔
        ∀ first ∈ evaluate manifest observed, ∀ second ∈ evaluate manifest observed,
          ¬first.Overruns second) ∧
      (manifest.isPlain observed = true →
        ((evaluate manifest observed).map (·.idempotencyKey lattice)).Nodup) := by
  have distinct := RequiredAction.nodup_idempotencyKeys_iff
    (nodup_operations_evaluate valid reachable) lattice
  refine ⟨distinct, ?_⟩
  intro plain
  apply distinct.mpr
  intro first member second _
  exact RequiredAction.not_overruns_of_isPlain (isPlain_of_mem_evaluate plain member)

/-- An update that starts, stops, adds and removes asks for five things under five keys. -/
theorem evaluate_idempotencyKeys_nodup_of_update :
    let definition : LinkDefinition := .new "wasi" "keyvalue" (.external "store")
    let manifest : Manifest := (Manifest.new ⟨"shop"⟩ "v2").withComponent
      (((Component.new "api" .component "registry/api:2").withTrait
        (.spreadScaler (.new 2))).withTrait (.link definition))
    let event (sequence : UInt64) (kind : LatticeEventKind) : LatticeEvent :=
      ⟨⟨"prod"⟩, ⟨"host-a"⟩, sequence, ⟨0, 0⟩, kind⟩
    let started (sequence : UInt64) (component id : String) : LatticeEvent :=
      event sequence
        (.instanceStarted ⟨component⟩ .component "registry/api:1" ⟨id⟩ (.forApp ⟨"shop"⟩))
    let observed : ObservedState := .replay ⟨"prod"⟩
      [event 1 (.hostStarted ∅ none), started 2 "shop-api" "i-1", started 3 "shop-old" "i-2",
        event 4
          (.linkSet ⟨⟨⟨"shop-api"⟩, "default", "wasi", "http"⟩, "edge", [], ∅, some ⟨"shop"⟩⟩)]
    (manifest.isValid = true ∧ observed.Reachable ∧ manifest.isPlain observed = true) ∧
      ((evaluate manifest observed).map (·.idempotencyKey ⟨"prod"⟩)).Nodup ∧
      (evaluate manifest observed).map (·.idempotencyKey ⟨"prod"⟩) =
        [⟨"prod/shop-api/start/host-a"⟩, ⟨"prod/shop-api/stop/host-a"⟩,
          ⟨"prod/shop-old/stop/host-a"⟩, ⟨"prod/shop-api/add_link/default:wasi/keyvalue"⟩,
          ⟨"prod/shop-api/remove_link/default:wasi/http"⟩] := by
  intro definition manifest event started observed
  have valid : manifest.isValid = true := by decide +kernel
  have reachable : observed.Reachable := (ObservedState.Reachable.empty ⟨"prod"⟩).afterAll _
  have plain : manifest.isPlain observed = true := by decide +kernel
  refine ⟨⟨valid, reachable, plain⟩, ?_, ?_⟩
  · exact (evaluate_idempotencyKeys_nodup_iff valid reachable ⟨"prod"⟩).2 plain
  · decide +kernel

/-- Two links whose names run into their namespaces are asked for under one key. -/
theorem evaluate_idempotencyKeys_not_nodup :
    let link (name nameSpace store : String) : LinkDefinition :=
      ⟨name, nameSpace, "keyvalue", [], .external store, ∅⟩
    let manifest : Manifest := (Manifest.new ⟨"shop"⟩ "v1").withComponent
      (((Component.new "api" .component "registry/api:1").withTrait
        (.link (link "cache:v1" "wasi" "store-1"))).withTrait
          (.link (link "cache" "v1:wasi" "store-2")))
    let observed : ObservedState := .empty ⟨"prod"⟩
    manifest.isValid = true ∧ observed.Reachable ∧
      (evaluate manifest observed).Nodup ∧
      (evaluate manifest observed).map (·.idempotencyKey ⟨"prod"⟩) =
        [⟨"prod/shop-api/add_link/cache:v1:wasi/keyvalue"⟩,
          ⟨"prod/shop-api/add_link/cache:v1:wasi/keyvalue"⟩] ∧
      ¬((evaluate manifest observed).map (·.idempotencyKey ⟨"prod"⟩)).Nodup := by
  intro link manifest observed
  refine ⟨?_, .empty ⟨"prod"⟩, ?_, ?_, ?_⟩ <;> decide +kernel

end Manifest

end Reconciler
