import Reconciler.Proofs.Manifest.Declared
import Reconciler.Proofs.Observed.Inventory
import Reconciler.Proofs.Placement.Plan

/-!
# What evaluation sees of other applications

Evaluation for a manifest reads the hosts with their labels, the instances of its application, and
of the links those of the application and those under keys that the manifest declares. Two states
that agree on this slice get the same actions in the same order, whatever other applications have
in them. Each part of evaluation is shown to read the slice only, and the parts are put together.
-/

namespace Reconciler

namespace ObservedState

variable {first second : ObservedState} {app : AppName}

theorem managedInstances_eq (state : ObservedState) (app : AppName) :
    state.managedInstances app =
      (state.hosts.mapValues fun _ host =>
          host.instances.filter fun _ record => record.isManagedBy app).entries.flatMap
        fun (host, instances) => instances.entries.map fun (id, record) => ⟨host, id, record⟩ := by
  simp only [managedInstances, placedInstances, SortedMap.mapValues, SortedMap.filter,
    List.filter_flatMap, List.filter_map, List.flatMap_map]
  rfl

/-- The instances of an application are listed alike if they are found alike, place by place. -/
theorem managedInstances_congr
    (labels : ∀ id, (first.host? id).map HostState.labels = (second.host? id).map HostState.labels)
    (instances : ∀ host id record, record.isManagedBy app = true →
      (first.instance? host id = some record ↔ second.instance? host id = some record)) :
    first.managedInstances app = second.managedInstances app := by
  have sameHosts : (first.hosts.mapValues fun _ host =>
        host.instances.filter fun _ record => record.isManagedBy app) =
      second.hosts.mapValues fun _ host =>
        host.instances.filter fun _ record => record.isManagedBy app := by
    apply SortedMap.ext_find?
    intro id
    have sameLabels : (first.hosts.find? id).map _ = (second.hosts.find? id).map _ := labels id
    have sameInstances := instances id
    simp only [instance?, host?] at sameInstances
    rw [SortedMap.find?_mapValues, SortedMap.find?_mapValues]
    cases ofFirst : first.hosts.find? id with
    | none =>
        cases ofSecond : second.hosts.find? id with
        | none => rfl
        | some host => simp [ofFirst, ofSecond] at sameLabels
    | some host =>
        cases ofSecond : second.hosts.find? id with
        | none => simp [ofFirst, ofSecond] at sameLabels
        | some other =>
            simp only [ofFirst, ofSecond, Option.bind_some] at sameInstances
            apply congrArg some
            apply SortedMap.ext_find?
            intro name
            apply Option.ext
            intro record
            simp only [SortedMap.find?_filter, Option.filter_eq_some_iff]
            constructor
            · rintro ⟨found, managed⟩
              exact ⟨(sameInstances name record managed).mp found, managed⟩
            · rintro ⟨found, managed⟩
              exact ⟨(sameInstances name record managed).mpr found, managed⟩
  rw [managedInstances_eq, managedInstances_eq, sameHosts]

theorem linksOwnedBy_eq (state : ObservedState) (app : AppName) :
    state.linksOwnedBy app = (state.links.filter fun _ link => link.owner == some app).values := by
  simp only [linksOwnedBy, SortedMap.values, SortedMap.filter, List.filter_map]
  rfl

end ObservedState

namespace Manifest

variable {manifest : Manifest} {first second : ObservedState}

/-- The parts of evaluation that are about instances agree where hosts and instances do. -/
theorem evaluate_eq_iff
    (labels : ∀ id, (first.host? id).map HostState.labels = (second.host? id).map HostState.labels)
    (managed : first.managedInstances manifest.name = second.managedInstances manifest.name) :
    evaluate manifest first = evaluate manifest second ↔
      manifest.linkActions first = manifest.linkActions second := by
  have sameScaled : manifest.scalerActions first = manifest.scalerActions second := by
    simp only [scalerActions, Spread.evaluate, Spread.plan, Spread.pool, managed,
      Spread.sitesOf_congr labels]
  have sameOrphans : manifest.orphanActions first = manifest.orphanActions second := by
    simp only [orphanActions, orphans, managed]
  rw [evaluate, evaluate, sameScaled, sameOrphans, List.append_cancel_left_eq]

/-- The links of a state that belong to the application of a manifest or that it declares. -/
def linkSlice (manifest : Manifest) (state : ObservedState) : SortedMap LinkKey ActiveLink :=
  state.links.filter fun key link =>
    link.owner == some manifest.name || manifest.desiredLinks.contains key

theorem find?_linkSlice_eq_some_iff {state : ObservedState} {key : LinkKey} {link : ActiveLink} :
    (manifest.linkSlice state).find? key = some link ↔
      state.link? key = some link ∧
        (link.owner = some manifest.name ∨ ∃ declared ∈ manifest.linkList, declared.key = key) := by
  rw [linkSlice, SortedMap.find?_filter, Option.filter_eq_some_iff, Bool.or_eq_true, beq_iff_eq,
    contains_desiredLinks_iff]
  rfl

theorem linkActions_congr (same : manifest.linkSlice first = manifest.linkSlice second) :
    manifest.linkActions first = manifest.linkActions second := by
  have declared : ∀ link ∈ manifest.desiredLinks.values,
      first.link? link.key = second.link? link.key := by
    intro link member
    have isDeclared := (of_find?_desiredLinks (mem_desiredLinks_values_iff.mp member)).2
    have inSlice : ∀ state : ObservedState,
        (manifest.linkSlice state).find? link.key = state.link? link.key := by
      intro state
      apply Option.ext
      intro current
      rw [find?_linkSlice_eq_some_iff]
      exact and_iff_left (Or.inr ⟨link, isDeclared, rfl⟩)
    rw [← inSlice, same, inSlice]
  have owned : ∀ state : ObservedState, state.linksOwnedBy manifest.name =
      ((manifest.linkSlice state).filter
        fun _ link => link.owner == some manifest.name).values := by
    intro state
    rw [ObservedState.linksOwnedBy_eq, linkSlice]
    apply congrArg SortedMap.values
    apply SortedMap.ext
    simp only [SortedMap.filter, List.filter_filter]
    apply List.filter_congr
    intro entry _
    cases entry.2.owner == some manifest.name <;> simp
  simp only [linkActions, owned, same]
  congr 2
  apply List.filter_congr
  intro link member
  rw [declared link member]

/--
Whether two states agree on the hosts and their labels, on the instances of the application of a
manifest, and on those links that belong to the application or that the manifest declares.
-/
structure SameSlice (manifest : Manifest) (first second : ObservedState) : Prop where
  labels : ∀ id, (first.host? id).map HostState.labels = (second.host? id).map HostState.labels
  instances : ∀ host id record,
    record.annotations.find? Labels.managedBy = some manifest.name.text →
      (first.instance? host id = some record ↔ second.instance? host id = some record)
  links : ∀ key link,
    link.owner = some manifest.name ∨ (∃ declared ∈ manifest.linkList, declared.key = key) →
      (first.link? key = some link ↔ second.link? key = some link)

/-- Agreement on a slice is agreement of two maps and a list, which can be compared. -/
theorem sameSlice_iff :
    manifest.SameSlice first second ↔
      (first.hosts.mapValues fun _ host => host.labels) =
          (second.hosts.mapValues fun _ host => host.labels) ∧
        first.managedInstances manifest.name = second.managedInstances manifest.name ∧
        manifest.linkSlice first = manifest.linkSlice second := by
  have isManaged : ∀ record : InstanceRecord, record.isManagedBy manifest.name = true ↔
      record.annotations.find? Labels.managedBy = some manifest.name.text := by
    simp [InstanceRecord.isManagedBy, InstanceRecord.managedBy]
  constructor
  · rintro ⟨labels, instances, links⟩
    refine ⟨?_, ?_, ?_⟩
    · apply SortedMap.ext_find?
      intro id
      rw [SortedMap.find?_mapValues, SortedMap.find?_mapValues]
      exact labels id
    · apply ObservedState.managedInstances_congr labels
      intro host id record managed
      exact instances host id record ((isManaged record).mp managed)
    · apply SortedMap.ext_find?
      intro key
      apply Option.ext
      intro link
      rw [find?_linkSlice_eq_some_iff, find?_linkSlice_eq_some_iff]
      exact and_congr_left (links key link)
  · rintro ⟨labels, managed, slices⟩
    refine ⟨?_, ?_, ?_⟩
    · intro id
      have found := congrArg (SortedMap.find? · id) labels
      simp only [SortedMap.find?_mapValues] at found
      exact found
    · intro host id record annotated
      have found : ∀ state : ObservedState, state.instance? host id = some record ↔
          ⟨host, id, record⟩ ∈ state.managedInstances manifest.name := by
        intro state
        rw [ObservedState.mem_managedInstances_iff]
        exact (and_iff_left ((isManaged record).mpr annotated)).symm
      rw [found, found, managed]
    · intro key link ofSlice
      have found : ∀ state : ObservedState, state.link? key = some link ↔
          (manifest.linkSlice state).find? key = some link := by
        intro state
        rw [find?_linkSlice_eq_some_iff]
        exact (and_iff_left ofSlice).symm
      rw [found, found, slices]

instance (manifest : Manifest) (first second : ObservedState) :
    Decidable (manifest.SameSlice first second) :=
  decidable_of_iff _ sameSlice_iff.symm

/-- States that agree on the slice of a manifest get the same actions for it, in the same order. -/
theorem evaluate_eq_of_sameSlice (same : manifest.SameSlice first second) :
    evaluate manifest first = evaluate manifest second := by
  rcases sameSlice_iff.mp same with ⟨_, managed, links⟩
  exact (evaluate_eq_iff same.labels managed).mpr (linkActions_congr links)

/--
An update goes on as before while another application runs an instance of the same component on
the same host and puts a link from it, and while the host reports a provider healthy.
-/
theorem evaluate_eq_of_sameSlice_of_neighbour :
    let definition : LinkDefinition := .new "wasi" "keyvalue" (.external "store")
    let manifest : Manifest := (Manifest.new ⟨"shop"⟩ "v2").withComponent
      (((Component.new "api" .component "registry/api:2").withTrait
        (.spreadScaler (.new 2))).withTrait (.link definition))
    let event (sequence : UInt64) (kind : LatticeEventKind) : LatticeEvent :=
      ⟨⟨"prod"⟩, ⟨"host-a"⟩, sequence, ⟨0, 0⟩, kind⟩
    let started (sequence : UInt64) (id app : String) : LatticeEvent :=
      event sequence
        (.instanceStarted ⟨"shop-api"⟩ .component "registry/api:1" ⟨id⟩ (.forApp ⟨app⟩))
    let put (sequence : UInt64) (package : String) (app : AppName) : LatticeEvent :=
      event sequence
        (.linkSet ⟨⟨⟨"shop-api"⟩, "default", "wasi", package⟩, "edge", [], ∅, some app⟩)
    let state : ObservedState := .replay ⟨"prod"⟩
      [event 1 (.hostStarted ∅ none), started 2 "i-1" "shop", put 3 "http" ⟨"shop"⟩]
    let other : ObservedState := state.afterAll
      [started 4 "i-2" "bank", put 5 "messaging" ⟨"bank"⟩,
        event 6 (.providerHealth ⟨"bank-kv"⟩ true)]
    manifest.SameSlice state other ∧ state ≠ other ∧
      evaluate manifest state = evaluate manifest other ∧
      (evaluate manifest state).map RequiredAction.kind =
        [.start, .stop, .addLink, .removeLink] := by
  intro definition manifest event started put state other
  have same : manifest.SameSlice state other := by decide +kernel
  refine ⟨same, ?_, evaluate_eq_of_sameSlice same, ?_⟩
  · decide +kernel
  · decide +kernel

end Manifest

end Reconciler
