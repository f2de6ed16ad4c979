import Reconciler.Proofs.Observed.Redelivery

/-!
# Boot epochs

The boot epoch known of a host is that of its latest start, and a start of a later boot is a
restart, whatever its number. Most events leave the epoch or raise it. Two kinds of events take it
back: a start of an earlier boot that is numbered above the mark of the host, and the return of a
stopped host that announces an earlier boot or none. Where neither is taken, no start of the known
boot or of an earlier one is ever a restart.
-/

namespace Reconciler

namespace LatticeEvent

/-- A host that lives after an event has the boot epoch of the event, or else keeps its own. -/
theorem bootEpoch_liveAfter {event : LatticeEvent} (notStopped : event.kind ≠ .hostStopped)
    {live : Option HostState} (found : event.isStop → live.isSome) :
    (event.liveAfter live).map HostState.bootEpoch =
      some (event.bootEpoch.or (live.bind HostState.bootEpoch)) := by
  have touched : (event.touch live).bootEpoch = live.bind HostState.bootEpoch := by
    cases live <;> rfl
  cases kind : event.kind with
  | hostStarted labels epoch =>
      simp only [liveAfter, bootEpoch, kind, Option.map_some]
      cases epoch with
      | some announced => rfl
      | none => rw [boot_eq_touch (by simp [bootEpoch, kind]), touched]
  | hostStopped => exact absurd kind notStopped
  | instanceStarted component componentKind imageRef instanceId annotations =>
      simp only [liveAfter, bootEpoch, kind, Option.map_some, Option.none_or, ← touched]
      split <;> rfl
  | instanceStopped component instanceId =>
      rcases Option.isSome_iff_exists.mp (found (by simp [isStop, kind])) with ⟨host, rfl⟩
      simp [liveAfter, bootEpoch, kind, HostState.advance]
  | _ => simp [liveAfter, bootEpoch, kind, touched]

end LatticeEvent

namespace Standing

/-- The boot epoch last known of the host, live or stopped; nothing for an unknown host. -/
def epoch? (standing : Standing) : Option (Option UInt64) :=
  match standing.live with
  | some host => some host.bootEpoch
  | none => standing.tombstone.map Tombstone.bootEpoch

/--
Whether an event, if taken, takes its host back behind a boot epoch: as the start of an earlier
boot, or by bringing a stopped host back without announcing this boot or a later one.
-/
def TakesBack (standing : Standing) (event : LatticeEvent) (epoch : UInt64) : Prop :=
  match standing.live with
  | some _ => ∃ announced ∈ event.bootEpoch, announced < epoch
  | none => event.isStop = false ∧ ∀ announced ∈ event.bootEpoch, announced < epoch

section

variable {standing : Standing} {event : LatticeEvent} {epoch : UInt64}

theorem epoch?_of_live {known : Option UInt64}
    (lives : standing.live.map HostState.bootEpoch = some known) :
    standing.epoch? = some known := by
  rcases standing with ⟨live, tombstone⟩
  rcases Option.map_eq_some_iff.mp lives with ⟨host, rfl, rfl⟩
  rfl

/-- A live host takes on the boot epoch that an event announces, and keeps its own otherwise. -/
theorem epoch?_after_of_live {host : HostState} (lives : standing.live = some host)
    (fresh : standing.isStale event = false) :
    (standing.after event).epoch? = some (event.bootEpoch.or host.bootEpoch) := by
  rw [after, fresh, if_neg Bool.false_ne_true, lives]
  by_cases stopped : event.kind = .hostStopped
  · have noEpoch : event.bootEpoch = none := by simp [LatticeEvent.bootEpoch, stopped]
    simp [epoch?, LatticeEvent.liveAfter, LatticeEvent.tombstoneAfter, stopped, lives, noEpoch]
  · exact epoch?_of_live (LatticeEvent.bootEpoch_liveAfter stopped fun _ => rfl)

/-- A stopped host that comes back has the boot epoch that the event announces, if any. -/
theorem epoch?_after_of_stopped (stopped : standing.live = none)
    (fresh : standing.isStale event = false) :
    (standing.after event).epoch? =
      if event.isStop then standing.epoch? else some event.bootEpoch := by
  rw [after, fresh, if_neg Bool.false_ne_true, stopped]
  cases stop : event.isStop with
  | true =>
      rw [if_pos rfl]
      cases kind : event.kind <;>
        simp [LatticeEvent.isStop, kind] at stop <;>
        simp [epoch?, LatticeEvent.liveAfter, LatticeEvent.tombstoneAfter, kind, stopped]
  | false =>
      have notStopped : event.kind ≠ .hostStopped := by
        intro kind
        simp [LatticeEvent.isStop, kind] at stop
      have lives : (event.liveAfter none).map HostState.bootEpoch =
          some (event.bootEpoch.or none) :=
        LatticeEvent.bootEpoch_liveAfter notStopped (by simp [stop])
      rw [if_neg Bool.false_ne_true, epoch?_of_live lives, Option.or_none]

/--
The host of an event that is taken stays known, and its boot epoch stays or rises unless the event
takes it back.
-/
theorem epoch?_after_of_fresh (known : standing.epoch? = some (some epoch))
    (fresh : standing.isStale event = false) :
    ∃ recorded, (standing.after event).epoch? = some recorded ∧
      ((∃ later ∈ recorded, epoch ≤ later) ↔ ¬standing.TakesBack event epoch) := by
  cases live : standing.live with
  | some host =>
      have own : host.bootEpoch = some epoch := by simpa [epoch?, live] using known
      refine ⟨_, epoch?_after_of_live live fresh, ?_⟩
      rw [own, TakesBack, live]
      cases event.bootEpoch <;> simp
  | none =>
      rw [epoch?_after_of_stopped live fresh, known, TakesBack, live]
      cases stop : event.isStop with
      | true => exact ⟨some epoch, rfl, by simp⟩
      | false => exact ⟨event.bootEpoch, rfl, by cases event.bootEpoch <;> simp⟩

/-- A start of the known boot, or of an earlier one, is no restart. -/
theorem isRestart_eq_false_of_le (known : standing.epoch? = some (some epoch))
    (notLater : ∀ announced ∈ event.bootEpoch, announced ≤ epoch) :
    standing.isRestart event = false := by
  have noLaterBoot : event.isLaterBoot (some epoch) = false := by
    cases announces : event.bootEpoch with
    | none => simp [LatticeEvent.isLaterBoot, announces]
    | some announced =>
        simpa [LatticeEvent.isLaterBoot, announces] using notLater announced announces
  rcases standing with ⟨_ | host, _ | tombstone⟩ <;> simp_all [epoch?, isRestart]

end

end Standing

namespace ObservedState

theorem knownEpoch?_eq (state : ObservedState) (id : HostId) :
    state.knownEpoch? id = (state.standing id).epoch? :=
  rfl

/-- Whether a state takes an event that takes its host back behind a boot epoch. -/
def TakesBack (state : ObservedState) (event : LatticeEvent) (epoch : UInt64) : Prop :=
  state.takes event ∧ (state.standing event.host).TakesBack event epoch

/-- A run in which no event takes a host back behind the boot epoch known by then. -/
def Advances (id : HostId) : ObservedState → List LatticeEvent → Prop
  | _, [] => True
  | state, event :: rest =>
    (event.host = id → ∀ epoch, state.knownEpoch? id = some (some epoch) →
      ¬state.TakesBack event epoch) ∧ Advances id (state.after event) rest

section

variable {state : ObservedState} {event : LatticeEvent} {epoch : UInt64}

/--
The host of an event stays known, and its boot epoch stays or rises unless the event takes it back.
-/
theorem knownEpoch?_after (known : state.knownEpoch? event.host = some (some epoch)) :
    ∃ recorded, (state.after event).knownEpoch? event.host = some recorded ∧
      ((∃ later ∈ recorded, epoch ≤ later) ↔ ¬state.TakesBack event epoch) := by
  by_cases taken : state.takes event
  · rw [knownEpoch?_eq, standing_after, if_pos ⟨taken.1, rfl⟩, TakesBack, and_iff_right taken]
    exact Standing.epoch?_after_of_fresh known taken.2
  · rw [after, apply_of_not_takes taken]
    exact ⟨some epoch, known, iff_of_true ⟨epoch, rfl, UInt64.le_refl _⟩
      fun takesBack => taken takesBack.1⟩

theorem knownEpoch?_after_of_ne {id : HostId} (other : id ≠ event.host) :
    (state.after event).knownEpoch? id = state.knownEpoch? id := by
  rw [knownEpoch?_eq, standing_after, if_neg fun own => other own.2, ← knownEpoch?_eq]

/-- Along a run that takes no boot epoch back, the boot epoch of a known host stays or rises. -/
theorem Advances.le_knownEpoch? {id : HostId} {events : List LatticeEvent}
    (advances : Advances id state events) (known : state.knownEpoch? id = some (some epoch)) :
    ∃ later, (state.afterAll events).knownEpoch? id = some (some later) ∧ epoch ≤ later := by
  induction events generalizing state epoch with
  | nil => exact ⟨epoch, known, UInt64.le_refl _⟩
  | cons event rest ih =>
      rcases advances with ⟨notTakenBack, restAdvances⟩
      by_cases own : event.host = id
      · subst own
        rcases knownEpoch?_after known with ⟨recorded, after, upheld⟩
        rcases upheld.mpr (notTakenBack rfl epoch known) with ⟨later, rfl, le⟩
        rcases ih restAdvances after with ⟨latest, atEnd, laterLe⟩
        exact ⟨latest, atEnd, UInt64.le_trans le laterLe⟩
      · exact ih restAdvances ((knownEpoch?_after_of_ne (Ne.symm own)).trans known)

/--
A host with a known boot epoch stays known after an event of it, and its boot epoch does not go back
exactly if the event does not take it back. After any run in which no event does so, the boot epoch
is still that boot or a later one, and no start of that boot or of an earlier one is a restart.
-/
theorem bootEpoch_upheld_iff (known : state.knownEpoch? event.host = some (some epoch)) :
    (∃ recorded, (state.after event).knownEpoch? event.host = some recorded ∧
      ((∃ later ∈ recorded, epoch ≤ later) ↔ ¬state.TakesBack event epoch)) ∧
    ∀ events, Advances event.host state events →
      (∃ later, (state.afterAll events).knownEpoch? event.host = some (some later) ∧
        epoch ≤ later) ∧
      ∀ start : LatticeEvent, start.host = event.host →
        (∀ announced ∈ start.bootEpoch, announced ≤ epoch) →
          (state.afterAll events).isRestart start = false := by
  refine ⟨knownEpoch?_after known, fun events advances => ?_⟩
  rcases advances.le_knownEpoch? known with ⟨later, atEnd, le⟩
  refine ⟨⟨later, atEnd, le⟩, fun start own notLater => ?_⟩
  rw [isRestart_eq, own]
  exact Standing.isRestart_eq_false_of_le atEnd fun announced announces =>
    UInt64.le_trans (notLater announced announces) le

end

/-- A start of the boot before that comes late, under the number of the boot itself, is skipped. -/
theorem bootEpoch_upheld_iff_of_late_start :
    let boot (epoch : UInt64) : LatticeEvent :=
      ⟨⟨"prod"⟩, ⟨"host-a"⟩, 1, ⟨0, 0⟩, .hostStarted ∅ (some epoch)⟩
    let current := replay ⟨"prod"⟩ [boot 7, boot 8]
    current.knownEpoch? ⟨"host-a"⟩ = some (some 8) ∧
      ∃ recorded, (current.after (boot 7)).knownEpoch? ⟨"host-a"⟩ = some recorded ∧
        ∃ later ∈ recorded, 8 ≤ later := by
  intro boot current
  have known : current.knownEpoch? (boot 7).host = some (some 8) := by decide +kernel
  have notTaken : ¬current.takes (boot 7) := by decide +kernel
  rcases (bootEpoch_upheld_iff known).1 with ⟨recorded, after, upheld⟩
  exact ⟨known, recorded, after, upheld.mpr fun takesBack => notTaken takesBack.1⟩

/--
A start of the boot before that comes late, with a number above the mark of the present boot, counts
as the start of the present boot; the start of the present boot, when it comes again, is then taken
for a restart, and drops what runs on the host.
-/
theorem bootEpoch_taken_back_of_late_start :
    let boot (sequence epoch : UInt64) : LatticeEvent :=
      ⟨⟨"prod"⟩, ⟨"host-a"⟩, sequence, ⟨0, 0⟩, .hostStarted ∅ (some epoch)⟩
    let started : LatticeEvent := ⟨⟨"prod"⟩, ⟨"host-a"⟩, 3, ⟨0, 0⟩,
      .instanceStarted ⟨"shop-api"⟩ .component "registry/api:1" ⟨"i-1"⟩ ∅⟩
    let current := replay ⟨"prod"⟩ [boot 1 7, boot 1 8]
    let late := current.after (boot 2 7)
    current.knownEpoch? ⟨"host-a"⟩ = some (some 8) ∧
      late.knownEpoch? ⟨"host-a"⟩ = some (some 7) ∧
      (late.after started).placedInstances ≠ [] ∧
      (late.after started).isRestart (boot 1 8) = true ∧
      ((late.after started).after (boot 1 8)).placedInstances = [] := by
  decide +kernel

end ObservedState

end Reconciler
