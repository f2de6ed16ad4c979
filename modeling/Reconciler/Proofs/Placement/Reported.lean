import Reconciler.Proofs.Observed.Delivery
import Reconciler.Proofs.Placement.Scope
import Reconciler.Proofs.Placement.Slice

/-!
# Changes reported for one application

A change that is reported for one application changes no evaluation for another one, if it is about
an instance on a live host. A change of a link is reported for the owner of the new link, or of the
deleted one. It passes over an application that owned the link before, and one that declares a link
under the same key: `Manifest.settled` says whether a manifest is content with what stands under a
key, and an evaluation changes exactly if that does.
-/

namespace Reconciler

namespace Manifest

/-- Whether what stands under a key leaves a manifest nothing to add or to remove there. -/
def settled (manifest : Manifest) (key : LinkKey) (standing : Option ActiveLink) : Bool :=
  match manifest.desiredLinks.find? key with
  | some desired => standing.any fun link => link.sameWiring desired
  | none => !standing.any fun link => link.owner == some manifest.name

variable {manifest : Manifest} {observed first second : ObservedState}

/-- A key is not settled if there is an action about it. -/
theorem settled_eq_false_iff (reachable : observed.Reachable) {key : LinkKey} :
    manifest.settled key (observed.link? key) = false ↔
      (∃ link, link.key = key ∧ .addLink link ∈ evaluate manifest observed) ∨
        .removeLink key ∈ evaluate manifest observed := by
  rw [removeLink_mem_evaluate_iff reachable, settled]
  simp only [addLink_mem_evaluate_iff]
  cases desired : manifest.desiredLinks.find? key with
  | none =>
      have undeclared : manifest.desiredLinks.contains key = false := by
        simp [SortedMap.contains_eq_isSome, desired]
      have noAddition : ∀ link, link.key = key →
          manifest.desiredLinks.find? link.key ≠ some link := by
        rintro link rfl
        simp [desired]
      simp only [undeclared, and_true]
      constructor
      · intro owned
        right
        simpa [Option.any_eq_true] using owned
      · rintro (⟨link, sameKey, found, _⟩ | owned)
        · exact absurd found (noAddition link sameKey)
        · simpa [Option.any_eq_true] using owned
  | some link =>
      have declared : manifest.desiredLinks.contains key = true := by
        simp [SortedMap.contains_eq_isSome, desired]
      have sameKey : link.key = key := (of_find?_desiredLinks desired).1
      simp only [declared, Bool.true_eq_false, and_false, or_false]
      constructor
      · intro missing
        refine ⟨link, sameKey, sameKey ▸ desired, ?_⟩
        rw [sameKey]
        intro current found
        simpa [found] using missing
      · rintro ⟨other, rfl, found, missing⟩
        obtain rfl : link = other := Option.some.inj (desired.symm.trans found)
        cases standing : observed.link? link.key with
        | none => rfl
        | some current => exact missing current standing

/-- The keys of the links of an application that its manifest does not declare. -/
theorem removals_eq (reachable : observed.Reachable) :
    ((observed.linksOwnedBy manifest.name).filter fun link =>
        !manifest.desiredLinks.contains link.key).map ActiveLink.key =
      (observed.links.filter fun key link =>
        link.owner == some manifest.name && !manifest.desiredLinks.contains key).keys := by
  have undeclared : ((observed.linksOwnedBy manifest.name).filter fun link =>
        !manifest.desiredLinks.contains link.key) =
      (observed.links.filter fun key link =>
        link.owner == some manifest.name && !manifest.desiredLinks.contains key).values := by
    simp only [ObservedState.linksOwnedBy, SortedMap.values, SortedMap.filter, List.filter_map,
      List.filter_filter]
    apply congrArg
    apply List.filter_congr
    intro entry member
    have ownKey : entry.2.key = entry.1 :=
      reachable.key_link (SortedMap.mem_entries_iff.mp member)
    simp [ownKey, Bool.and_comm]
  rw [undeclared]
  apply SortedMap.map_values_eq_keys
  intro key link found
  rw [SortedMap.find?_filter, Option.filter_eq_some_iff] at found
  exact reachable.key_link found.1

/-- The actions about links depend only on which keys are settled. -/
theorem linkActions_eq_of_settled (firstReachable : first.Reachable)
    (secondReachable : second.Reachable)
    (settled : ∀ key,
      manifest.settled key (first.link? key) = manifest.settled key (second.link? key)) :
    manifest.linkActions first = manifest.linkActions second := by
  have removals : (first.links.filter fun key link =>
        link.owner == some manifest.name && !manifest.desiredLinks.contains key).keys =
      (second.links.filter fun key link =>
        link.owner == some manifest.name && !manifest.desiredLinks.contains key).keys := by
    apply SortedMap.keys_congr
    intro key
    have sameSettled := settled key
    rw [SortedMap.find?_filter, SortedMap.find?_filter]
    simp only [Manifest.settled, ObservedState.link?, SortedMap.contains_eq_isSome]
      at sameSettled ⊢
    cases desired : manifest.desiredLinks.find? key with
    | some link => simp
    | none =>
        rw [desired] at sameSettled
        simpa [Option.isSome_filter] using sameSettled
  have byKey : ∀ links : List ActiveLink,
      (links.map fun link => RequiredAction.removeLink link.key) =
        (links.map ActiveLink.key).map RequiredAction.removeLink := by
    simp
  rw [linkActions, linkActions, byKey, byKey, removals_eq firstReachable,
    removals_eq secondReachable, removals]
  congr 2
  apply List.filter_congr
  intro link member
  have sameSettled := settled link.key
  simp only [Manifest.settled, mem_desiredLinks_values_iff.mp member] at sameSettled
  have isMissing : ∀ standing : Option ActiveLink,
      (match standing with
        | some current => !current.sameWiring link
        | none => true) = !standing.any fun current => current.sameWiring link := by
    intro standing
    cases standing <;> rfl
  exact (isMissing _).trans ((congrArg not sameSettled).trans (isMissing _).symm)

/-- States with the same actions for a manifest leave the same keys settled. -/
theorem settled_eq_of_evaluate (firstReachable : first.Reachable)
    (secondReachable : second.Reachable)
    (same : evaluate manifest first = evaluate manifest second) (key : LinkKey) :
    manifest.settled key (first.link? key) = manifest.settled key (second.link? key) := by
  have unsettled : manifest.settled key (first.link? key) = false ↔
      manifest.settled key (second.link? key) = false := by
    rw [settled_eq_false_iff firstReachable, settled_eq_false_iff secondReachable, same]
  rw [← Bool.not_inj_iff, Bool.eq_iff_iff]
  simpa using unsettled

end Manifest

theorem InstanceRecord.isManagedBy_eq_false {record : InstanceRecord} {app other : AppName}
    (scope : ChangeScope.ofAnnotations record.annotations = .app app) (different : other ≠ app) :
    record.isManagedBy other = false := by
  rw [ChangeScope.ofAnnotations] at scope
  split at scope
  · rename_i name annotated
    obtain rfl := ChangeScope.app.inj scope
    rw [isManagedBy, managedBy, annotated, beq_eq_false_iff_ne]
    rintro same
    exact different (by rw [Option.some.inj same])
  · cases scope

namespace ObservedState

variable {state : ObservedState} {event : LatticeEvent} {host : HostState} {app : AppName}

theorem outcome_of_reported (reported : (state.apply event).2 = .changed (.app app)) :
    state.takes event ∧ event.outcome (state.host? event.host)
      (event.linkWrite?.bind fun write => state.link? write.1) = .changed (.app app) := by
  rw [apply_snd] at reported
  split at reported
  · rename_i taken
    exact ⟨taken, reported⟩
  · cases reported

/-- A change is reported for one application if it is about one instance or one link. -/
theorem isLocal_of_reported (reported : (state.apply event).2 = .changed (.app app)) :
    event.isLocal = true := by
  have outcome := (outcome_of_reported reported).2
  rw [LatticeEvent.outcome.eq_def] at outcome
  rw [LatticeEvent.isLocal.eq_def]
  grind

/-- What a change reported for one application starts belongs to no other one. -/
theorem isManagedBy_of_started? (reported : (state.apply event).2 = .changed (.app app))
    {other : AppName} (different : other ≠ app) {placed : PlacedInstance}
    (started : event.started? = some placed) : placed.record.isManagedBy other = false := by
  have outcome := (outcome_of_reported reported).2
  cases kind : event.kind with
  | instanceStarted component componentKind imageRef id annotations =>
      simp only [LatticeEvent.started?, kind, Option.some.injEq] at started
      subst started
      simp only [LatticeEvent.outcome, kind] at outcome
      split at outcome
      · cases outcome
      · exact InstanceRecord.isManagedBy_eq_false (Applied.changed.inj outcome) different
  | _ => simp [LatticeEvent.started?, kind] at started

/-- What a change reported for one application stops belongs to no other one. -/
theorem isManagedBy_of_stoppedPlace? (reported : (state.apply event).2 = .changed (.app app))
    {other : AppName} (different : other ≠ app) {id : HostId} {name : InstanceId}
    {record : InstanceRecord} (stopped : event.stoppedPlace? = some (id, name))
    (found : state.instance? id name = some record) : record.isManagedBy other = false := by
  have outcome := (outcome_of_reported reported).2
  cases kind : event.kind with
  | instanceStopped component oldName =>
      simp only [LatticeEvent.stoppedPlace?, kind, Option.some.injEq, Prod.mk.injEq] at stopped
      rcases stopped with ⟨rfl, rfl⟩
      have running : (state.host? event.host).bind (fun host => host.instances.find? oldName) =
          some record := found
      simp only [LatticeEvent.outcome, kind, running] at outcome
      exact InstanceRecord.isManagedBy_eq_false (Applied.changed.inj outcome) different
  | _ => simp [LatticeEvent.stoppedPlace?, kind] at stopped

/-- A change reported for one application leaves the instances of all others as they are. -/
theorem managedInstances_after_of_reported (live : state.host? event.host = some host)
    (reported : (state.apply event).2 = .changed (.app app)) {other : AppName}
    (different : other ≠ app) :
    (state.after event).managedInstances other = state.managedInstances other := by
  have taken := (outcome_of_reported reported).1
  have isLocal := isLocal_of_reported reported
  apply managedInstances_congr (labels_after isLocal taken live)
  intro id name record managed
  rw [instance?_after isLocal taken live]
  split
  · rename_i isStopped
    constructor
    · intro nothing
      cases nothing
    · intro found
      rw [isManagedBy_of_stoppedPlace? reported different isStopped found] at managed
      cases managed
  · rw [Option.or_eq_some_iff]
    constructor
    · rintro (found | ⟨_, newcomer⟩)
      · exact found
      · -- A newcomer belongs to the application that the change is reported for.
        rcases Option.map_eq_some_iff.mp newcomer with ⟨placed, isStarted, rfl⟩
        rw [isManagedBy_of_started? reported different
          (Option.eq_some_of_filter_eq_some isStarted)] at managed
        cases managed
    · exact Or.inl

/--
A change from a live host that is reported for one application leaves the evaluation for a manifest
of another one as it is exactly if it puts or deletes no link, or the manifest is as content with
what stands under the key of the link as it was before.
-/
theorem evaluate_after_eq_iff_of_reported (reachable : state.Reachable)
    (live : (state.host? event.host).isSome = true)
    (reported : (state.apply event).2 = .changed (.app app)) {manifest : Manifest}
    (different : manifest.name ≠ app) :
    evaluate manifest (state.after event) = evaluate manifest state ↔
      ∀ key written, event.linkWrite? = some (key, written) →
        manifest.settled key written = manifest.settled key (state.link? key) := by
  rcases Option.isSome_iff_exists.mp live with ⟨host, isLive⟩
  have taken := (outcome_of_reported reported).1
  constructor
  · intro same key written write
    have settled := Manifest.settled_eq_of_evaluate (reachable.after event) reachable same key
    rw [link?_after, write] at settled
    simpa [taken] using settled
  · intro settled
    rw [Manifest.evaluate_eq_iff (labels_after (isLocal_of_reported reported) taken isLive)
      (managedInstances_after_of_reported isLive reported different)]
    apply Manifest.linkActions_eq_of_settled (reachable.after event) reachable
    intro key
    rw [link?_after]
    cases write : event.linkWrite? with
    | none => rfl
    | some keyed =>
        rcases keyed with ⟨named, written⟩
        simp only [taken, true_and]
        split
        · rename_i same
          exact same ▸ settled named written write
        · rfl

/-- A started instance of another application changes nothing, its link over a declared one does. -/
theorem evaluate_after_eq_iff_of_reported_neighbour :
    let definition : LinkDefinition := .new "wasi" "keyvalue" (.external "store-1")
    let manifest : Manifest := (Manifest.new ⟨"shop"⟩ "v1").withComponent
      ((Component.new "eu-api" .component "registry/eu-api:1").withTrait (.link definition))
    let event (sequence : UInt64) (kind : LatticeEventKind) : LatticeEvent :=
      ⟨⟨"prod"⟩, ⟨"host-a"⟩, sequence, ⟨0, 0⟩, kind⟩
    let key : LinkKey := ⟨⟨"shop-eu-api"⟩, "default", "wasi", "keyvalue"⟩
    let link (target : String) (owner : AppName) : ActiveLink := ⟨key, target, [], ∅, some owner⟩
    let state : ObservedState := .replay ⟨"prod"⟩
      [event 1 (.hostStarted ∅ none), event 2 (.linkSet (link "store-1" ⟨"shop"⟩))]
    let started := event 3
      (.instanceStarted ⟨"shop-eu-api"⟩ .component "registry/api:1" ⟨"i-1"⟩ (.forApp ⟨"shop-eu"⟩))
    let put := event 3 (.linkSet (link "store-2" ⟨"shop-eu"⟩))
    (state.Reachable ∧ (state.host? ⟨"host-a"⟩).isSome = true ∧
        (state.apply started).2 = .changed (.app ⟨"shop-eu"⟩) ∧
        (state.apply put).2 = .changed (.app ⟨"shop-eu"⟩)) ∧
      evaluate manifest (state.after started) = evaluate manifest state ∧
      evaluate manifest (state.after put) ≠ evaluate manifest state := by
  intro definition manifest event key link state started put
  have reachable : state.Reachable := (Reachable.empty ⟨"prod"⟩).afterAll _
  have live : (state.host? ⟨"host-a"⟩).isSome = true := by decide +kernel
  have startReported : (state.apply started).2 = .changed (.app ⟨"shop-eu"⟩) := by decide +kernel
  have putReported : (state.apply put).2 = .changed (.app ⟨"shop-eu"⟩) := by decide +kernel
  have different : manifest.name ≠ ⟨"shop-eu"⟩ := by decide +kernel
  have content : manifest.settled key (state.link? key) = true := by decide +kernel
  have discontent : manifest.settled key (some (link "store-2" ⟨"shop-eu"⟩)) = false := by
    decide +kernel
  have starts : started.linkWrite? = none := rfl
  have puts : put.linkWrite? = some (key, some (link "store-2" ⟨"shop-eu"⟩)) := rfl
  have startHost : started.host = ⟨"host-a"⟩ := rfl
  have putHost : put.host = ⟨"host-a"⟩ := rfl
  clear_value state started put manifest
  refine ⟨⟨reachable, live, startReported, putReported⟩, ?_, ?_⟩
  · apply (evaluate_after_eq_iff_of_reported reachable (startHost ▸ live) startReported
      different).mpr
    intro key written write
    rw [starts] at write
    cases write
  · intro same
    have settled := (evaluate_after_eq_iff_of_reported reachable (putHost ▸ live) putReported
      different).mp same key _ puts
    rw [content, discontent] at settled
    cases settled

/-- A link put for one application over that of another is reported for the first one only. -/
theorem evaluate_after_linkSet_ne_of_owned :
    let definition : LinkDefinition := .new "wasi" "keyvalue" (.external "store-1")
    let manifest : Manifest := (Manifest.new ⟨"shop"⟩ "v1").withComponent
      ((Component.new "eu-api" .component "registry/eu-api:1").withTrait (.link definition))
    let event (sequence : UInt64) (kind : LatticeEventKind) : LatticeEvent :=
      ⟨⟨"prod"⟩, ⟨"host-a"⟩, sequence, ⟨0, 0⟩, kind⟩
    let link (target : String) (owner : AppName) : ActiveLink :=
      ⟨⟨⟨"shop-eu-api"⟩, "default", "wasi", "keyvalue"⟩, target, [], ∅, some owner⟩
    let state : ObservedState := .replay ⟨"prod"⟩
      [event 1 (.hostStarted ∅ none), event 2 (.linkSet (link "store-1" ⟨"shop"⟩))]
    let put := event 3 (.linkSet (link "store-2" ⟨"shop-eu"⟩))
    state.Reachable ∧ (state.host? put.host).isSome = true ∧
      (state.apply put).2 = .changed (.app ⟨"shop-eu"⟩) ∧ manifest.name ≠ ⟨"shop-eu"⟩ ∧
      evaluate manifest state = [] ∧
      evaluate manifest (state.after put) = [.addLink (link "store-1" ⟨"shop"⟩)] := by
  intro definition manifest event link state put
  refine ⟨(Reachable.empty ⟨"prod"⟩).afterAll _, ?_, ?_, ?_, ?_, ?_⟩ <;> decide +kernel

end ObservedState

end Reconciler
