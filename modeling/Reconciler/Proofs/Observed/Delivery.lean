import Reconciler.Proofs.Observed.Inventory

/-!
# Delivery in turn

Events that come in turn, each from a live host and numbered above what came from that host before,
are all taken. If they only tell of instances and links, the order in which they come does not
matter: what runs afterwards is what they started and what ran before and they did not stop, the
hosts keep their labels, and a link stands as the events about it agree.
-/

namespace Reconciler

namespace LatticeEvent

/-- Whether an event tells of one instance or of one link. -/
def isLocal (event : LatticeEvent) : Bool :=
  match event.kind with
  | .instanceStarted .. => true
  | .instanceStopped .. => true
  | .linkSet _ => true
  | .linkDeleted _ => true
  | _ => false

/-- The instance that an event says has started. -/
def started? (event : LatticeEvent) : Option PlacedInstance :=
  match event.kind with
  | .instanceStarted component componentKind imageRef id annotations =>
    some ⟨event.host, id, .started event component componentKind imageRef annotations⟩
  | _ => none

/-- The place of the instance that an event says has stopped. -/
def stoppedPlace? (event : LatticeEvent) : Option (HostId × InstanceId) :=
  match event.kind with
  | .instanceStopped _ id => some (event.host, id)
  | _ => none

theorem labels_liveAfter {event : LatticeEvent} (isLocal : event.isLocal = true)
    (host : HostState) :
    (event.liveAfter (some host)).map HostState.labels = some host.labels := by
  cases kind : event.kind with
  | instanceStarted component componentKind imageRef id annotations =>
      simp only [liveAfter, kind, Option.map_some]
      split <;> rfl
  | instanceStopped component id => simp [liveAfter, kind, HostState.advance]
  | linkSet link => simp [liveAfter, kind, touch, HostState.advance]
  | linkDeleted key => simp [liveAfter, kind, touch, HostState.advance]
  | _ => simp [LatticeEvent.isLocal, kind] at isLocal

end LatticeEvent

namespace ObservedState

/-- Events of a lattice, each from a host that is live by then and with a number above its mark. -/
def InTurn : ObservedState → List LatticeEvent → Prop
  | _, [] => True
  | state, event :: rest =>
    event.lattice = state.lattice ∧
      (∃ host ∈ state.host? event.host, host.highWater < event.sequence) ∧
        (state.after event).InTurn rest

instance decidableInTurn : (state : ObservedState) → (events : List LatticeEvent) →
    Decidable (state.InTurn events)
  | _, [] => isTrue trivial
  | state, event :: rest =>
    have := decidableInTurn (state.after event) rest
    inferInstanceAs (Decidable (_ ∧ _ ∧ _))

section Step

variable {state : ObservedState} {event : LatticeEvent} {host : HostState}

theorem takes_of_later (lattice : event.lattice = state.lattice)
    (live : state.host? event.host = some host) (later : host.highWater < event.sequence) :
    state.takes event := by
  refine ⟨lattice, ?_⟩
  rw [Standing.isStale, standing, live]
  split
  · rfl
  · exact decide_eq_false (UInt64.not_le.mpr later)

theorem host?_after (taken : state.takes event) (id : HostId) :
    (state.after event).host? id =
      if id = event.host then event.liveAfter (state.host? event.host) else state.host? id := by
  rw [after, apply_of_takes taken, host?_accept]

theorem labels_after (isLocal : event.isLocal = true) (taken : state.takes event)
    (live : state.host? event.host = some host) (id : HostId) :
    ((state.after event).host? id).map HostState.labels =
      (state.host? id).map HostState.labels := by
  rw [host?_after taken]
  split
  · rename_i same
    rw [same, live, LatticeEvent.labels_liveAfter isLocal, Option.map_some]
  · rfl

/-- An event stops the instance that it names, or starts it if it does not run. -/
theorem instance?_after (isLocal : event.isLocal = true) (taken : state.takes event)
    (live : state.host? event.host = some host) (id : HostId) (name : InstanceId) :
    (state.after event).instance? id name =
      if event.stoppedPlace? = some (id, name) then none
      else (state.instance? id name).or
        ((event.started?.filter fun placed => placed.place = (id, name)).map
          PlacedInstance.record) := by
  rw [instance?, instance?, host?_after taken]
  cases kind : event.kind with
  | instanceStarted component componentKind imageRef newName annotations =>
      simp only [LatticeEvent.stoppedPlace?, LatticeEvent.started?, kind, reduceCtorEq, if_false]
      by_cases here : id = event.host
      · subst here
        simp only [live, LatticeEvent.liveAfter, kind, if_true, Option.bind_some,
          LatticeEvent.touch, HostState.advance, PlacedInstance.place]
        cases running : host.instances.find? newName with
        | some record =>
            by_cases same : name = newName
            · simp [SortedMap.contains_eq_isSome, running, same]
            · simp [SortedMap.contains_eq_isSome, running, Ne.symm same, Option.filter_some]
        | none =>
            by_cases same : name = newName
            · simp [SortedMap.contains_eq_isSome, running, same]
            · simp [SortedMap.contains_eq_isSome, running, same, Ne.symm same, Option.filter_some]
      · simp [here, Ne.symm here, PlacedInstance.place, Option.filter_some]
  | instanceStopped component oldName =>
      simp only [LatticeEvent.stoppedPlace?, LatticeEvent.started?, kind]
      by_cases here : id = event.host
      · subst here
        by_cases same : name = oldName
        · simp [live, LatticeEvent.liveAfter, kind, HostState.advance, same]
        · simp [live, LatticeEvent.liveAfter, kind, HostState.advance, same, Ne.symm same]
      · simp [here, Ne.symm here]
  | linkSet link =>
      simp only [LatticeEvent.stoppedPlace?, LatticeEvent.started?, kind]
      by_cases here : id = event.host
      · simp [here, live, LatticeEvent.liveAfter, kind, LatticeEvent.touch, HostState.advance]
      · simp [here]
  | linkDeleted key =>
      simp only [LatticeEvent.stoppedPlace?, LatticeEvent.started?, kind]
      by_cases here : id = event.host
      · simp [here, live, LatticeEvent.liveAfter, kind, LatticeEvent.touch, HostState.advance]
      · simp [here]
  | _ => simp [LatticeEvent.isLocal, kind] at isLocal

/-- What runs after an event is what it started, and what ran before and it did not stop. -/
theorem mem_placedInstances_after_iff (isLocal : event.isLocal = true)
    (taken : state.takes event) (live : state.host? event.host = some host)
    (fresh : ∀ placed, event.started? = some placed →
      state.instance? placed.host placed.id = none) {placed : PlacedInstance} :
    placed ∈ (state.after event).placedInstances ↔
      event.started? = some placed ∨
        placed ∈ state.placedInstances ∧ event.stoppedPlace? ≠ some placed.place := by
  rw [mem_placedInstances_iff, mem_placedInstances_iff, instance?_after isLocal taken live]
  cases started : event.started? with
  | none =>
      simp only [Option.filter_none, Option.map_none, Option.or_none, reduceCtorEq, false_or]
      split
      · rename_i stopped
        simp [stopped, PlacedInstance.place]
      · rename_i notStopped
        exact (and_iff_left notStopped).symm
  | some newcomer =>
      have notStopped : event.stoppedPlace? = none := by
        cases kind : event.kind <;>
          simp [LatticeEvent.started?, LatticeEvent.stoppedPlace?, kind] at started ⊢
      simp only [notStopped, reduceCtorEq, if_false, Option.filter_some, ne_eq, not_false_eq_true,
        and_true, Option.some.injEq]
      by_cases same : newcomer.place = placed.place
      · have absent := fresh newcomer started
        rcases placed with ⟨id, name, record⟩
        rcases newcomer with ⟨newId, newName, newRecord⟩
        obtain ⟨rfl, rfl⟩ : newId = id ∧ newName = name := Prod.mk.inj same
        simp [absent, PlacedInstance.place]
      · have other : newcomer ≠ placed := fun equal => same (congrArg PlacedInstance.place equal)
        simp only [PlacedInstance.place] at same
        simp [same, other, PlacedInstance.place]

end Step

section Run

variable {state : ObservedState} {events : List LatticeEvent}

/-- Events about instances and links that come in turn leave every host under its labels. -/
theorem InTurn.labels_afterAll (inTurn : state.InTurn events)
    (isLocal : ∀ event ∈ events, event.isLocal = true) (id : HostId) :
    ((state.afterAll events).host? id).map HostState.labels =
      (state.host? id).map HostState.labels := by
  induction events generalizing state with
  | nil => rfl
  | cons event rest ih =>
      rcases inTurn with ⟨lattice, ⟨host, live, later⟩, restInTurn⟩
      rcases List.forall_mem_cons.mp isLocal with ⟨headLocal, restLocal⟩
      have taken := takes_of_later lattice live later
      rw [afterAll_cons, ih restInTurn restLocal, labels_after headLocal taken live]

/--
What runs after events that come in turn is what they started, and what ran before and they did not
stop, if they start nothing in a place that is taken or that they empty.
-/
theorem InTurn.mem_placedInstances_afterAll_iff (inTurn : state.InTurn events)
    (isLocal : ∀ event ∈ events, event.isLocal = true)
    (once : ((events.filterMap LatticeEvent.started?).map PlacedInstance.place).Nodup)
    (fresh : ∀ placed ∈ events.filterMap LatticeEvent.started?,
      state.instance? placed.host placed.id = none ∧
        placed.place ∉ events.filterMap LatticeEvent.stoppedPlace?)
    {placed : PlacedInstance} :
    placed ∈ (state.afterAll events).placedInstances ↔
      placed ∈ events.filterMap LatticeEvent.started? ∨
        placed ∈ state.placedInstances ∧
          placed.place ∉ events.filterMap LatticeEvent.stoppedPlace? := by
  induction events generalizing state with
  | nil => simp [afterAll]
  | cons event rest ih =>
      rcases inTurn with ⟨lattice, ⟨host, live, later⟩, restInTurn⟩
      rcases List.forall_mem_cons.mp isLocal with ⟨headLocal, restLocal⟩
      have startedIff : ∀ placed, placed ∈ (event :: rest).filterMap LatticeEvent.started? ↔
          event.started? = some placed ∨ placed ∈ rest.filterMap LatticeEvent.started? := by
        simp
      have stoppedIff : ∀ place, place ∈ (event :: rest).filterMap LatticeEvent.stoppedPlace? ↔
          event.stoppedPlace? = some place ∨
            place ∈ rest.filterMap LatticeEvent.stoppedPlace? := by
        simp
      have headFresh : ∀ placed, event.started? = some placed →
          state.instance? placed.host placed.id = none ∧
            placed.place ∉ rest.filterMap LatticeEvent.stoppedPlace? := by
        intro placed started
        rcases fresh placed ((startedIff placed).mpr (Or.inl started)) with ⟨absent, notStopped⟩
        exact ⟨absent, fun inRest => notStopped ((stoppedIff _).mpr (Or.inr inRest))⟩
      have step : ∀ placed, placed ∈ (state.after event).placedInstances ↔ _ := fun placed =>
        mem_placedInstances_after_iff headLocal (takes_of_later lattice live later) live
          fun placed started => (headFresh placed started).1
      have restOnce : ((rest.filterMap LatticeEvent.started?).map PlacedInstance.place).Nodup :=
        once.sublist (((List.sublist_cons_self event rest).filterMap _).map _)
      -- What a later event starts has another place than what the first one starts.
      have restFresh : ∀ placed ∈ rest.filterMap LatticeEvent.started?,
          (state.after event).instance? placed.host placed.id = none ∧
            placed.place ∉ rest.filterMap LatticeEvent.stoppedPlace? := by
        intro placed inRest
        rcases fresh placed ((startedIff placed).mpr (Or.inr inRest)) with ⟨absent, notStopped⟩
        refine ⟨?_, fun stopped => notStopped ((stoppedIff _).mpr (Or.inr stopped))⟩
        by_contra runs
        rcases Option.ne_none_iff_exists'.mp runs with ⟨record, found⟩
        have member := (step ⟨placed.host, placed.id, record⟩).mp
          (mem_placedInstances_iff.mpr found)
        rcases member with started | ⟨before, _⟩
        · rw [List.filterMap_cons, started, List.map_cons, List.nodup_cons] at once
          exact once.1 (List.mem_map.mpr ⟨placed, inRest, rfl⟩)
        · have ran : state.instance? placed.host placed.id = some record :=
            mem_placedInstances_iff.mp before
          cases absent.symm.trans ran
      rw [afterAll_cons, ih restInTurn restLocal restOnce restFresh, step, startedIff, stoppedIff]
      -- What the first event starts, no later event stops.
      constructor
      · rintro (inRest | ⟨started | ⟨before, notHead⟩, notRest⟩)
        · exact Or.inl (Or.inr inRest)
        · exact Or.inl (Or.inl started)
        · exact Or.inr ⟨before, not_or.mpr ⟨notHead, notRest⟩⟩
      · rintro ((started | inRest) | ⟨before, notStopped⟩)
        · exact Or.inr ⟨Or.inl started, (headFresh placed started).2⟩
        · exact Or.inl inRest
        · rcases not_or.mp notStopped with ⟨notHead, notRest⟩
          exact Or.inr ⟨Or.inr ⟨before, notHead⟩, notRest⟩

/-- A link stands as the events about it agree, if it stood so before or there is such an event. -/
theorem InTurn.link?_afterAll (inTurn : state.InTurn events) {key : LinkKey}
    {link : Option ActiveLink}
    (agreed : ∀ event ∈ events, ∀ written, event.linkWrite? = some (key, written) → written = link)
    (stands : state.link? key = link ∨ ∃ event ∈ events, event.linkWrite? = some (key, link)) :
    (state.afterAll events).link? key = link := by
  induction events generalizing state with
  | nil => simpa [afterAll] using stands
  | cons event rest ih =>
      rcases inTurn with ⟨lattice, ⟨host, live, later⟩, restInTurn⟩
      rcases List.forall_mem_cons.mp agreed with ⟨headAgreed, restAgreed⟩
      have taken := takes_of_later lattice live later
      refine ih restInTurn restAgreed ?_
      rw [link?_after]
      cases write : event.linkWrite? with
      | none => simpa [write] using stands
      | some keyed =>
          rcases keyed with ⟨other, written⟩
          by_cases same : key = other
          · subst same
            simp [taken, headAgreed written write]
          · simpa [write, same, Ne.symm same] using stands

end Run

end ObservedState

end Reconciler
