import Reconciler.Proofs.Observed.Delivery
import Reconciler.Proofs.Placement.Starts

/-!
# Actions that are carried out

The events that show that actions were carried out: for a start as many started instances as it asks
for, for a stop every instance that it names, and for a link that it was put or deleted. They may
come in any order. What all the events together start, stop and write is read off the actions.
-/

namespace Reconciler

namespace RequiredAction

/-- Whether events show, one by one, that an action was carried out for an application. -/
def ShownBy (app : AppName) : RequiredAction → List LatticeEvent → Prop
  | startInstances component _ imageRef host _ count, events =>
    events.length = count.toNat ∧
      ∀ event ∈ events, event.host = host ∧
        ∃ kind id annotations,
          event.kind = .instanceStarted component kind imageRef id annotations ∧
            annotations.find? Labels.managedBy = some app.text
  | stopInstances _ host ids, events =>
    List.Forall₂ (fun id event => event.host = host ∧
      ∃ component, event.kind = .instanceStopped component id) ids events
  | addLink link, events => ∃ event, events = [event] ∧ event.kind = .linkSet link
  | removeLink key, events => ∃ event, events = [event] ∧ event.kind = .linkDeleted key

/-- One event among those that show that an action was carried out for an application. -/
inductive IsEffect (app : AppName) (event : LatticeEvent) : RequiredAction → Prop
  | started {component : ComponentId} {kind actual : ComponentKind} {imageRef : String}
      {selector : Labels} {count : UInt32} {id : InstanceId} {annotations : Labels}
      (told : event.kind = .instanceStarted component actual imageRef id annotations)
      (managed : annotations.find? Labels.managedBy = some app.text) :
      IsEffect app event (.startInstances component kind imageRef event.host selector count)
  | stopped {component named : ComponentId} {ids : List InstanceId} {id : InstanceId}
      (told : event.kind = .instanceStopped named id) :
      IsEffect app event (.stopInstances component event.host ids)
  | put {link : ActiveLink} (told : event.kind = .linkSet link) :
      IsEffect app event (.addLink link)
  | deleted {key : LinkKey} (told : event.kind = .linkDeleted key) :
      IsEffect app event (.removeLink key)

section IsEffect

variable {app : AppName} {event : LatticeEvent} {action : RequiredAction}

theorem IsEffect.isLocal (effect : IsEffect app event action) : event.isLocal = true := by
  cases effect with
  | started told managed => rw [LatticeEvent.isLocal, told]
  | stopped told => rw [LatticeEvent.isLocal, told]
  | put told => rw [LatticeEvent.isLocal, told]
  | deleted told => rw [LatticeEvent.isLocal, told]

theorem IsEffect.of_started? (effect : IsEffect app event action) {placed : PlacedInstance}
    (started : event.started? = some placed) :
    placed.record.isManagedBy app = true ∧ ∃ kind selector count,
      action = .startInstances placed.record.component kind placed.record.imageRef placed.host
        selector count := by
  cases effect with
  | started told managed =>
      simp only [LatticeEvent.started?, told, Option.some.injEq] at started
      subst started
      refine ⟨?_, _, _, _, rfl⟩
      simpa [InstanceRecord.isManagedBy, InstanceRecord.managedBy, InstanceRecord.started]
        using managed
  | stopped told => simp [LatticeEvent.started?, told] at started
  | put told => simp [LatticeEvent.started?, told] at started
  | deleted told => simp [LatticeEvent.started?, told] at started

theorem IsEffect.of_linkWrite? (effect : IsEffect app event action) {key : LinkKey}
    {written : Option ActiveLink} (write : event.linkWrite? = some (key, written)) :
    (∃ link, action = .addLink link ∧ link.key = key ∧ written = some link) ∨
      action = .removeLink key ∧ written = none := by
  cases effect with
  | started told managed => simp [LatticeEvent.linkWrite?, told] at write
  | stopped told => simp [LatticeEvent.linkWrite?, told] at write
  | put told =>
      simp only [LatticeEvent.linkWrite?, told, Option.some.injEq, Prod.mk.injEq] at write
      rcases write with ⟨rfl, rfl⟩
      exact Or.inl ⟨_, rfl, rfl, rfl⟩
  | deleted told =>
      simp only [LatticeEvent.linkWrite?, told, Option.some.injEq, Prod.mk.injEq] at write
      rcases write with ⟨rfl, rfl⟩
      exact Or.inr ⟨rfl, rfl⟩

end IsEffect

namespace ShownBy

variable {app : AppName} {action : RequiredAction} {events : List LatticeEvent}

theorem isEffect (shown : action.ShownBy app events) {event : LatticeEvent}
    (member : event ∈ events) : IsEffect app event action := by
  cases action with
  | startInstances component kind imageRef host selector count =>
      rcases shown.2 event member with ⟨rfl, _, _, _, told, managed⟩
      exact .started told managed
  | stopInstances component host ids =>
      rcases List.mem_iff_getElem.mp member with ⟨index, bound, rfl⟩
      rw [ShownBy, List.forall₂_iff_get] at shown
      rcases shown.2 index (shown.1 ▸ bound) bound with ⟨rfl, _, told⟩
      exact .stopped told
  | addLink link =>
      rcases shown with ⟨_, rfl, told⟩
      exact .put (List.mem_singleton.mp member ▸ told)
  | removeLink key =>
      rcases shown with ⟨_, rfl, told⟩
      exact .deleted (List.mem_singleton.mp member ▸ told)

theorem stoppedPlaces_eq (shown : action.ShownBy app events) :
    events.filterMap LatticeEvent.stoppedPlace? = action.stoppedPlaces := by
  cases action with
  | stopInstances component host ids =>
      rw [ShownBy] at shown
      -- One event for each name, in the order of the names.
      induction shown with
      | nil => rfl
      | @cons id event ids events head _ ih =>
          rcases head with ⟨onHost, _, told⟩
          have stopped : event.stoppedPlace? = some (host, id) := by
            rw [LatticeEvent.stoppedPlace?, told, onHost]
          rw [List.filterMap_cons, stopped, ih]
          rfl
  | _ =>
      refine List.filterMap_eq_nil_iff.mpr fun event member => ?_
      cases shown.isEffect member
      rw [LatticeEvent.stoppedPlace?, ‹event.kind = _›]

theorem countP_started (shown : action.ShownBy app events) (id : ComponentId) (host : HostId) :
    (events.filterMap LatticeEvent.started?).countP
        (fun placed => placed.record.component = id ∧ placed.host = host) =
      action.startsOf id host := by
  cases action with
  | startInstances component kind imageRef other selector count =>
      rcases shown with ⟨length, each⟩
      have all : ∀ event ∈ events, ∃ placed, event.started? = some placed ∧
          placed.record.component = component ∧ placed.host = other := by
        intro event member
        rcases each event member with ⟨onHost, _, _, _, told, _⟩
        exact ⟨_, by rw [LatticeEvent.started?, told], rfl, onHost⟩
      rw [startsOf, ← length]
      clear length each
      induction events with
      | nil => simp
      | cons event rest ih =>
          rcases List.forall_mem_cons.mp all with ⟨⟨placed, started, ofComponent, onHost⟩, restAll⟩
          rw [List.filterMap_cons, started, List.countP_cons, ih restAll, ofComponent, onHost]
          by_cases asked : component = id ∧ other = host
          · simp [asked]
          · simp [asked]
  | _ =>
      have nothing : events.filterMap LatticeEvent.started? = [] := by
        refine List.filterMap_eq_nil_iff.mpr fun event member => ?_
        cases shown.isEffect member
        rw [LatticeEvent.started?, ‹event.kind = _›]
      rw [nothing]
      rfl

end ShownBy

/--
Events that show, in any order, that actions were carried out for an application. What they start
has a place of its own, and they come in turn.
-/
structure CarriedOut (app : AppName) (actions : List RequiredAction) (state : ObservedState)
    (events : List LatticeEvent) : Prop where
  shown : ∃ reports : List (RequiredAction × List LatticeEvent),
    reports.map Prod.fst = actions ∧ (∀ report ∈ reports, report.1.ShownBy app report.2) ∧
      events.Perm (reports.flatMap Prod.snd)
  once : ((events.filterMap LatticeEvent.started?).map PlacedInstance.place).Nodup
  fresh : ∀ placed ∈ events.filterMap LatticeEvent.started?,
    state.instance? placed.host placed.id = none
  inTurn : state.InTurn events

namespace CarriedOut

variable {app : AppName} {actions : List RequiredAction} {state : ObservedState}
  {events : List LatticeEvent}

theorem exists_isEffect (carriedOut : CarriedOut app actions state events) {event : LatticeEvent}
    (member : event ∈ events) : ∃ action ∈ actions, IsEffect app event action := by
  rcases carriedOut.shown with ⟨reports, rfl, shown, perm⟩
  rcases List.mem_flatMap.mp (perm.mem_iff.mp member) with ⟨report, reportMember, inReport⟩
  exact ⟨report.1, List.mem_map_of_mem reportMember,
    (shown report reportMember).isEffect inReport⟩

theorem isLocal (carriedOut : CarriedOut app actions state events) :
    ∀ event ∈ events, event.isLocal = true := by
  intro event member
  rcases carriedOut.exists_isEffect member with ⟨_, _, effect⟩
  exact effect.isLocal

theorem exists_shownBy (carriedOut : CarriedOut app actions state events)
    {action : RequiredAction} (member : action ∈ actions) :
    ∃ group, action.ShownBy app group ∧ ∀ event ∈ group, event ∈ events := by
  rcases carriedOut.shown with ⟨reports, rfl, shown, perm⟩
  rcases List.mem_map.mp member with ⟨report, reportMember, rfl⟩
  refine ⟨report.2, shown report reportMember, fun event inReport => perm.mem_iff.mpr ?_⟩
  exact List.mem_flatMap.mpr ⟨report, reportMember, inReport⟩

theorem exists_linkWrite?_of_addLink (carriedOut : CarriedOut app actions state events)
    {link : ActiveLink} (member : .addLink link ∈ actions) :
    ∃ event ∈ events, event.linkWrite? = some (link.key, some link) := by
  rcases carriedOut.exists_shownBy member with ⟨_, ⟨event, rfl, told⟩, inEvents⟩
  exact ⟨event, inEvents event (List.mem_singleton.mpr rfl), by rw [LatticeEvent.linkWrite?, told]⟩

theorem exists_linkWrite?_of_removeLink (carriedOut : CarriedOut app actions state events)
    {key : LinkKey} (member : .removeLink key ∈ actions) :
    ∃ event ∈ events, event.linkWrite? = some (key, none) := by
  rcases carriedOut.exists_shownBy member with ⟨_, ⟨event, rfl, told⟩, inEvents⟩
  exact ⟨event, inEvents event (List.mem_singleton.mpr rfl), by rw [LatticeEvent.linkWrite?, told]⟩

/-- All events together stop what the actions stop. -/
theorem stoppedPlaces_perm (carriedOut : CarriedOut app actions state events) :
    (events.filterMap LatticeEvent.stoppedPlace?).Perm
      (actions.flatMap RequiredAction.stoppedPlaces) := by
  rcases carriedOut.shown with ⟨reports, rfl, shown, perm⟩
  refine (perm.filterMap _).trans (List.Perm.of_eq ?_)
  rw [List.filterMap_flatMap, List.flatMap_map]
  exact List.flatMap_congr fun report member => (shown report member).stoppedPlaces_eq

/-- All events together start as many instances of a component on a host as the actions say. -/
theorem countP_started (carriedOut : CarriedOut app actions state events) (id : ComponentId)
    (host : HostId) :
    (events.filterMap LatticeEvent.started?).countP
        (fun placed => placed.record.component = id ∧ placed.host = host) =
      (actions.map (RequiredAction.startsOf id host)).sum := by
  rcases carriedOut.shown with ⟨reports, rfl, shown, perm⟩
  rw [(perm.filterMap _).countP_eq, List.filterMap_flatMap, List.countP_flatMap, List.map_map]
  refine congrArg List.sum (List.map_congr_left fun report member => ?_)
  exact (shown report member).countP_started id host

/-- What runs afterwards is what was started, and what ran before and was not stopped. -/
theorem mem_placedInstances_iff (carriedOut : CarriedOut app actions state events)
    (running : ∀ host id, (host, id) ∈ actions.flatMap RequiredAction.stoppedPlaces →
      state.instance? host id ≠ none) {placed : PlacedInstance} :
    placed ∈ (state.afterAll events).placedInstances ↔
      placed ∈ events.filterMap LatticeEvent.started? ∨
        placed ∈ state.placedInstances ∧
          placed.place ∉ actions.flatMap RequiredAction.stoppedPlaces := by
  have stoppedIff := fun place =>
    (carriedOut.stoppedPlaces_perm.mem_iff (a := place))
  have fresh : ∀ placed ∈ events.filterMap LatticeEvent.started?,
      state.instance? placed.host placed.id = none ∧
        placed.place ∉ events.filterMap LatticeEvent.stoppedPlace? := by
    intro placed started
    refine ⟨carriedOut.fresh placed started, fun stopped => ?_⟩
    exact running _ _ ((stoppedIff _).mp stopped) (carriedOut.fresh placed started)
  rw [carriedOut.inTurn.mem_placedInstances_afterAll_iff carriedOut.isLocal carriedOut.once fresh,
    stoppedIff]

end CarriedOut

end RequiredAction

end Reconciler
