import Reconciler.Proofs.Observed.Delivery
import Reconciler.Proofs.Observed.Redelivery
import Reconciler.Proofs.Text.Digits

/-!
# Any population can come about

For any labels of hosts and any choice of hosts among them there is a history after which just these
hosts are live under their labels and an instance runs on each of the chosen hosts, on a host as
often as it was chosen.
-/

namespace Reconciler

/-- What is told of the instances of a population: a host only makes a difference to the time. -/
structure Population where
  component : ComponentId
  componentKind : ComponentKind
  imageRef : String
  annotations : Labels
  startedAt : HostId → Timestamp

namespace Population

variable (population : Population) (lattice : LatticeId)

/-- The event that a host has started under some labels. -/
def arrival (entry : HostId × Labels) : LatticeEvent :=
  ⟨lattice, entry.1, 1, ⟨0, 0⟩, .hostStarted entry.2 none⟩

/-- The event that an instance with a number has started on a host. -/
def newcomer (numbered : HostId × Nat) : LatticeEvent where
  lattice := lattice
  host := numbered.1
  sequence := UInt64.ofNat numbered.2
  occurredAt := population.startedAt numbered.1
  kind := .instanceStarted population.component population.componentKind population.imageRef
    ⟨toString numbered.2⟩ population.annotations

/-- Such an instance. -/
def instanceOf (numbered : HostId × Nat) : PlacedInstance where
  host := numbered.1
  id := ⟨toString numbered.2⟩
  record := .started (population.newcomer lattice numbered) population.component
    population.componentKind population.imageRef population.annotations

variable {population lattice}

theorem filterMap_started? (numbered : List (HostId × Nat)) :
    (numbered.map (population.newcomer lattice)).filterMap LatticeEvent.started? =
      numbered.map (population.instanceOf lattice) := by
  rw [List.filterMap_map]
  exact congrFun (List.filterMap_eq_map (f := population.instanceOf lattice)) numbered

theorem filterMap_stoppedPlace? (numbered : List (HostId × Nat)) :
    (numbered.map (population.newcomer lattice)).filterMap LatticeEvent.stoppedPlace? = [] := by
  rw [List.filterMap_map]
  exact List.filterMap_eq_nil_iff.mpr fun _ _ => rfl

theorem nodup_places (hosts : List HostId) (first : Nat) :
    (((hosts.zipIdx first).map (population.instanceOf lattice)).map
      PlacedInstance.place).Nodup := by
  have numbers : ((hosts.zipIdx first).map Prod.snd).Nodup := by
    rw [List.zipIdx_map_snd]
    exact List.nodup_range'
  rw [List.map_map]
  refine (List.Nodup.of_map _ numbers).map_on fun one _ other _ same => ?_
  rcases Prod.mk.inj same with ⟨sameHost, sameId⟩
  exact Prod.ext sameHost (Text.eq_of_toString_eq (congrArg Identifier.text sameId))

/-- Events with increasing numbers come in turn if their hosts are live. -/
theorem inTurn {state : ObservedState} {hosts : List HostId} {first : Nat}
    (sameLattice : state.lattice = lattice)
    (live : ∀ host ∈ hosts, ∃ known ∈ state.host? host, known.highWater.toNat < first)
    (few : first + hosts.length ≤ UInt64.size) :
    state.InTurn ((hosts.zipIdx first).map (population.newcomer lattice)) := by
  induction hosts generalizing state first with
  | nil => exact trivial
  | cons host rest ih =>
      rcases List.forall_mem_cons.mp live with ⟨⟨known, found, later⟩, restLive⟩
      rw [List.length_cons] at few
      let event := population.newcomer lattice (host, first)
      have number : event.sequence.toNat = first := UInt64.toNat_ofNat_of_lt' (by omega)
      have inOrder : known.highWater < event.sequence := by
        rw [UInt64.lt_iff_toNat_lt, number]
        exact later
      have taken : state.takes event :=
        ObservedState.takes_of_later sameLattice.symm found inOrder
      refine ⟨sameLattice.symm, ⟨known, found, inOrder⟩, ih ?_ ?_ (by omega)⟩
      · rw [ObservedState.lattice_after, sameLattice]
      · intro other member
        rcases restLive other member with ⟨otherKnown, otherFound, otherLater⟩
        rw [ObservedState.host?_after taken]
        split
        · have notStopped : event.kind ≠ .hostStopped := by simp [event, newcomer]
          have mark : (event.liveAfter (state.host? host)).map HostState.highWater = _ :=
            LatticeEvent.highWater_liveAfter rfl notStopped fun isStop => nomatch isStop
          rcases Option.map_eq_some_iff.mp mark with ⟨now, isNow, highWater⟩
          refine ⟨now, isNow, ?_⟩
          have highest : max known.highWater event.sequence = event.sequence :=
            if_pos (UInt64.le_of_lt inOrder)
          rw [found, Option.map_some, Option.getD_some, highest] at highWater
          rw [highWater, number]
          exact Nat.lt_succ_self first
        · exact ⟨otherKnown, otherFound, Nat.lt_succ_of_lt otherLater⟩

end Population

namespace ObservedState

open Population (arrival)

theorem exists_arrivals (lattice : LatticeId) {entries : List (HostId × Labels)}
    (nodup : (entries.map Prod.fst).Nodup) :
    ∃ state : ObservedState, state.Reachable ∧ state.lattice = lattice ∧
      ∀ id, state.standing id =
        ⟨(entries.find? fun entry => entry.1 = id).map fun entry =>
          ⟨entry.2, none, ∅, 1, ⟨0, 0⟩⟩, none⟩ := by
  induction entries with
  | nil => exact ⟨.empty lattice, .empty lattice, rfl, fun _ => rfl⟩
  | cons entry rest ih =>
      rcases List.nodup_cons.mp nodup with ⟨isNew, restNodup⟩
      rcases ih restNodup with ⟨state, reachable, sameLattice, standing⟩
      refine ⟨state.after (arrival lattice entry), reachable.after _, ?_, ?_⟩
      · rw [lattice_after, sameLattice]
      · intro id
        rw [standing_after, standing, sameLattice, List.find?_cons]
        by_cases same : id = entry.1
        · subst same
          have absent : (rest.find? fun other => decide (other.1 = entry.1)) = none := by
            rw [List.find?_eq_none]
            intro other member same
            exact isNew (of_decide_eq_true same ▸ List.mem_map_of_mem member)
          have mark : max (0 : UInt64) 1 = 1 := by decide
          have moment : Timestamp.later ⟨0, 0⟩ ⟨0, 0⟩ = ⟨0, 0⟩ := by decide
          rw [absent]
          simp [arrival, mark, moment, Standing.after, Standing.isStale, Standing.isRestart,
            LatticeEvent.liveAfter, LatticeEvent.boot, LatticeEvent.tombstoneAfter,
            HostState.appearing, HostState.advance]
        · simp [arrival, same, Ne.symm same]

/--
Hosts under any labels, and an instance on each of some of them, on a host as often as it is listed,
are all that there is after some history.
-/
theorem exists_reachable_of_population (lattice : LatticeId) (labels : SortedMap HostId Labels)
    (population : Population) {hosts : List HostId}
    (known : ∀ host ∈ hosts, labels.contains host = true) (few : hosts.length < UInt32.size) :
    ∃ state : ObservedState, state.Reachable ∧
      (∀ id, (state.host? id).map HostState.labels = labels.find? id) ∧
      (state.placedInstances.map PlacedInstance.host).Perm hosts ∧
      ∀ placed ∈ state.placedInstances, placed.record.component = population.component ∧
        placed.record.imageRef = population.imageRef ∧
        placed.record.annotations = population.annotations ∧
        placed.record.startedAt = population.startedAt placed.host := by
  rcases exists_arrivals lattice labels.nodup_keys with ⟨arrived, reachable, sameLattice, standing⟩
  have found : ∀ id, arrived.host? id =
      (labels.find? id).map fun labels => ⟨labels, none, ∅, 1, ⟨0, 0⟩⟩ := by
    intro id
    have live := congrArg Standing.live (standing id)
    simp only [SortedMap.find?, SortedMap.compare_beq_eq, Option.map_map]
    exact live
  let newcomers := (hosts.zipIdx 2).map (population.newcomer lattice)
  let instances := (hosts.zipIdx 2).map (population.instanceOf lattice)
  have inTurn : arrived.InTurn newcomers := by
    refine Population.inTurn sameLattice ?_ ?_
    · intro host member
      rcases Option.isSome_iff_exists.mp (known host member) with ⟨labelled, isLabelled⟩
      refine ⟨⟨labelled, none, ∅, 1, ⟨0, 0⟩⟩, ?_, Nat.one_lt_two⟩
      rw [found, isLabelled]
      rfl
    · have smaller : UInt32.size + 2 ≤ UInt64.size := by decide
      omega
  have isLocal : ∀ event ∈ newcomers, event.isLocal = true := by
    intro event member
    rcases List.mem_map.mp member with ⟨_, _, rfl⟩
    rfl
  have empty : arrived.placedInstances = [] := by
    refine List.eq_nil_iff_forall_not_mem.mpr fun placed member => ?_
    rw [mem_placedInstances_iff, instance?, found] at member
    cases isLabelled : labels.find? placed.host with
    | none => simp [isLabelled] at member
    | some labelled =>
        rw [isLabelled] at member
        cases member
  have members : ∀ placed, placed ∈ (arrived.afterAll newcomers).placedInstances ↔
      placed ∈ instances := by
    intro placed
    rw [inTurn.mem_placedInstances_afterAll_iff isLocal, Population.filterMap_started?, empty]
    · simp [instances]
    · rw [Population.filterMap_started?]
      exact Population.nodup_places hosts 2
    · intro placed _
      rw [Population.filterMap_stoppedPlace?]
      refine ⟨?_, List.not_mem_nil⟩
      by_contra runs
      rcases Option.ne_none_iff_exists'.mp runs with ⟨record, isRunning⟩
      have member : (⟨placed.host, placed.id, record⟩ : PlacedInstance) ∈ arrived.placedInstances :=
        mem_placedInstances_iff.mpr isRunning
      exact List.not_mem_nil (empty ▸ member)
  refine ⟨arrived.afterAll newcomers, reachable.afterAll _, ?_, ?_, ?_⟩
  · intro id
    rw [inTurn.labels_afterAll isLocal, found, Option.map_map]
    exact Option.map_id'
  · have perm : (arrived.afterAll newcomers).placedInstances.Perm instances :=
      (List.perm_ext_iff_of_nodup (.of_map _ (nodup_places _))
        (.of_map _ (Population.nodup_places hosts 2))).mpr members
    refine (perm.map PlacedInstance.host).trans (List.Perm.of_eq ?_)
    rw [List.map_map]
    exact List.zipIdx_map_fst 2 hosts
  · intro placed member
    rcases List.mem_map.mp ((members placed).mp member) with ⟨numbered, _, rfl⟩
    exact ⟨rfl, rfl, rfl, rfl⟩

end ObservedState

end Reconciler
