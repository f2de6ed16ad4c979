import Reconciler.Proofs.Observed.Lifetime

/-!
# Interleavings of hosts

Two events of different hosts that do not write the same link can be taken in either order: the
state afterwards is the same, and so is what each of them answers. Runs that differ only in how the
events of the hosts are interleaved therefore come to the same state with the same answers, as long
as the writes of each link keep their order.
-/

namespace Reconciler

namespace LatticeEvent

/-- The key of the link that an event puts or deletes. -/
def linkKey? (event : LatticeEvent) : Option LinkKey :=
  event.linkWrite?.map Prod.fst

/-- Two events of different hosts that do not write the same link. -/
structure Independent (first second : LatticeEvent) : Prop where
  hosts : first.host ≠ second.host
  links : ∀ key, second.linkKey? = some key → first.linkKey? ≠ some key

/-- Two runs of the same events, in which each host and each link sees its events in one order. -/
structure Interleaved (first second : List LatticeEvent) : Prop where
  perm : first.Perm second
  hosts : ∀ host, (first.filter fun event => event.host = host) =
    second.filter fun event => event.host = host
  links : ∀ key, (first.filter fun event => event.linkKey? = some key) =
    second.filter fun event => event.linkKey? = some key

theorem Independent.symm {first second : LatticeEvent} (independent : first.Independent second) :
    second.Independent first :=
  ⟨independent.hosts.symm, fun key named other => independent.links key other named⟩

end LatticeEvent

namespace LatticeEvent.Interleaved

variable {event : LatticeEvent} {rest before after : List LatticeEvent}

/--
Whatever is selected from a run that an event begins and from one that it comes later in: if the
same, then nothing is selected before the event, should the event itself be selected.
-/
theorem filter_tail {selected : LatticeEvent → Bool} (absent : event ∉ before)
    (same : (event :: rest).filter selected = (before ++ event :: after).filter selected) :
    (selected event → ∀ earlier ∈ before, ¬selected earlier) ∧
      rest.filter selected = (before ++ after).filter selected := by
  by_cases ownSelected : selected event
  · have nothing : before.filter selected = [] := by
      cases found : before.filter selected with
      | nil => rfl
      | cons head tail =>
          simp only [List.filter_append, found, List.filter_cons_of_pos ownSelected,
            List.cons_append, List.cons.injEq] at same
          have inBefore : head ∈ before := List.mem_of_mem_filter (found ▸ List.mem_cons_self)
          exact absurd (same.1 ▸ inBefore) absent
    refine ⟨fun _ => List.filter_eq_nil_iff.mp nothing, ?_⟩
    simpa [nothing, ownSelected] using same
  · refine ⟨fun wasSelected => absurd wasSelected ownSelected, ?_⟩
    simpa [ownSelected] using same

/-- The event that begins a run is independent of all events before it in an interleaved run. -/
theorem independent (interleaved : Interleaved (event :: rest) (before ++ event :: after))
    (absent : event ∉ before) : ∀ earlier ∈ before, earlier.Independent event := by
  intro earlier member
  constructor
  · have others := (filter_tail absent (interleaved.hosts event.host)).1 (by simp)
    simpa using others earlier member
  · intro key named
    have others := (filter_tail absent (interleaved.links key)).1 (by simp [named])
    simpa using others earlier member

/-- Without the event that begins one of them, two runs are still interleaved. -/
theorem tail (interleaved : Interleaved (event :: rest) (before ++ event :: after))
    (absent : event ∉ before) : Interleaved rest (before ++ after) where
  perm := (interleaved.perm.trans List.perm_middle).cons_inv
  hosts host := (filter_tail absent (interleaved.hosts host)).2
  links key := (filter_tail absent (interleaved.links key)).2

end LatticeEvent.Interleaved

namespace ObservedState

variable {state : ObservedState} {first second : LatticeEvent}

theorem standing_after_of_ne {id : HostId} (other : id ≠ first.host) :
    (state.after first).standing id = state.standing id := by
  rw [standing_after, if_neg]
  exact fun addressed => other addressed.2

theorem takes_after (different : second.host ≠ first.host) :
    (state.after first).takes second ↔ state.takes second := by
  rw [takes, takes, lattice_after, standing_after_of_ne different]

theorem link?_after_of_ne {key : LinkKey} (other : first.linkKey? ≠ some key) :
    (state.after first).link? key = state.link? key := by
  rw [link?_after]
  cases write : first.linkWrite? with
  | none => rfl
  | some written =>
      rcases written with ⟨writtenKey, link⟩
      have differs : key ≠ writtenKey := by
        rintro rfl
        exact other (by simp [LatticeEvent.linkKey?, write])
      simp [differs]

/-- An independent event before an event does not change what the event answers. -/
theorem apply_snd_after (independent : first.Independent second) :
    ((state.after first).apply second).2 = (state.apply second).2 := by
  have live : (state.after first).host? second.host = state.host? second.host :=
    congrArg Standing.live (standing_after_of_ne independent.hosts.symm)
  have named : (second.linkWrite?.bind fun write => (state.after first).link? write.1) =
      second.linkWrite?.bind fun write => state.link? write.1 := by
    cases write : second.linkWrite? with
    | none => rfl
    | some written =>
        have key : second.linkKey? = some written.1 := by simp [LatticeEvent.linkKey?, write]
        exact link?_after_of_ne (independent.links written.1 key)
  rw [apply_snd, apply_snd, live, named]
  simp only [takes_after independent.hosts.symm]

/-- What is known of a host does not depend on whether events of other hosts came before. -/
theorem standing_after_after {id : HostId} (other : id ≠ first.host) :
    ((state.after first).after second).standing id = (state.after second).standing id := by
  rw [standing_after, standing_after_of_ne other, lattice_after, ← standing_after]

/-- A link does not depend on whether events came before that do not write it. -/
theorem link?_after_after {key : LinkKey} (different : second.host ≠ first.host)
    (other : first.linkKey? ≠ some key) :
    ((state.after first).after second).link? key = (state.after second).link? key := by
  rw [link?_after, link?_after_of_ne other, link?_after]
  simp only [takes_after different]

/-- Independent events can be taken in either order. -/
theorem after_comm (independent : first.Independent second) :
    (state.after first).after second = (state.after second).after first := by
  apply ext_standing
  · simp
  · intro id
    by_cases ofFirst : id = first.host
    · have notSecond : id ≠ second.host := ofFirst ▸ independent.hosts
      rw [standing_after_of_ne notSecond, standing_after_after notSecond]
    · rw [standing_after_after ofFirst, standing_after_of_ne ofFirst]
  · intro key
    by_cases writtenFirst : first.linkKey? = some key
    · have notSecond : second.linkKey? ≠ some key :=
        fun writtenSecond => independent.links key writtenSecond writtenFirst
      rw [link?_after_of_ne notSecond, link?_after_after independent.hosts notSecond]
    · rw [link?_after_after independent.hosts.symm writtenFirst, link?_after_of_ne writtenFirst]

/-- The events of a run, each with what it answers. -/
def answers (state : ObservedState) : List LatticeEvent → List (LatticeEvent × Applied)
  | [] => []
  | event :: rest => (event, (state.apply event).2) :: (state.after event).answers rest

/-- Two runs from a state that end in the same state, with the same answers for each host. -/
structure SameRun (state : ObservedState) (first second : List LatticeEvent) : Prop where
  final : state.afterAll first = state.afterAll second
  answers : ∀ host, ((state.answers first).filter fun answer => answer.1.host = host) =
    (state.answers second).filter fun answer => answer.1.host = host

namespace SameRun

variable {events other more : List LatticeEvent} {event : LatticeEvent}

theorem refl (state : ObservedState) (events : List LatticeEvent) : state.SameRun events events :=
  ⟨rfl, fun _ => rfl⟩

theorem symm (same : state.SameRun events other) : state.SameRun other events :=
  ⟨same.final.symm, fun host => (same.answers host).symm⟩

theorem trans (same : state.SameRun events other) (sameMore : state.SameRun other more) :
    state.SameRun events more :=
  ⟨same.final.trans sameMore.final, fun host => (same.answers host).trans (sameMore.answers host)⟩

theorem cons (same : (state.after event).SameRun events other) :
    state.SameRun (event :: events) (event :: other) := by
  refine ⟨same.final, fun host => ?_⟩
  simp only [ObservedState.answers, List.filter_cons, same.answers host]

/-- Two independent events at the head of a run can change places. -/
theorem swap (independent : first.Independent second) (events : List LatticeEvent) :
    state.SameRun (first :: second :: events) (second :: first :: events) := by
  constructor
  · simp only [afterAll_cons, after_comm independent]
  · intro host
    simp only [ObservedState.answers, apply_snd_after independent,
      apply_snd_after independent.symm, after_comm independent, List.filter_cons]
    by_cases ofFirst : first.host = host
    · have notSecond : second.host ≠ host := ofFirst ▸ independent.hosts.symm
      simp [ofFirst, notSecond]
    · simp [ofFirst]

/-- An event can move to the front past events that are independent of it. -/
theorem bubble (independent : ∀ earlier ∈ events, earlier.Independent event)
    (rest : List LatticeEvent) :
    state.SameRun (events ++ event :: rest) (event :: (events ++ rest)) := by
  induction events generalizing state with
  | nil => exact refl state _
  | cons head tail ih =>
      rcases List.forall_mem_cons.mp independent with ⟨headIndependent, tailIndependent⟩
      exact (ih tailIndependent).cons.trans (swap headIndependent _)

/-- Interleaved runs are the same for every state that they start from. -/
theorem of_interleaved (interleaved : LatticeEvent.Interleaved events other) :
    state.SameRun events other := by
  induction events generalizing state other with
  | nil => exact interleaved.perm.nil_eq ▸ refl state []
  | cons event rest ih =>
      -- The first such event of the other run can move to its front; the rest is interleaved.
      have member : event ∈ other := interleaved.perm.subset List.mem_cons_self
      rcases List.eq_append_cons_of_mem member with ⟨before, after, rfl, absent⟩
      have moved : state.SameRun (before ++ event :: after) (event :: (before ++ after)) :=
        bubble (interleaved.independent absent) after
      exact (ih (interleaved.tail absent)).cons.trans moved.symm

end SameRun

/--
However the events of the hosts are interleaved, as long as each host and each link sees its events
in one order, the replay is the same, tombstones included, and every event gets the same answer: the
answers that the events of a host get, one after the other, do not change.
-/
theorem replay_interleaved (lattice : LatticeId) {first second : List LatticeEvent}
    (interleaved : LatticeEvent.Interleaved first second) :
    replay lattice first = replay lattice second ∧
      ∀ host, (((empty lattice).answers first).filter fun answer => answer.1.host = host) =
        ((empty lattice).answers second).filter fun answer => answer.1.host = host :=
  have same : (empty lattice).SameRun first second := .of_interleaved interleaved
  ⟨same.final, same.answers⟩

/-- One host puts a link that another deletes, and it does not matter when the other comes up. -/
theorem replay_interleaved_of_two_hosts :
    let link : ActiveLink := ⟨⟨⟨"web"⟩, "default", "wasi", "keyvalue"⟩, "store", [], ∅, none⟩
    let put : LatticeEvent := ⟨⟨"prod"⟩, ⟨"host-a"⟩, 2, ⟨1, 0⟩, .linkSet link⟩
    let delete : LatticeEvent := ⟨⟨"prod"⟩, ⟨"host-b"⟩, 2, ⟨2, 0⟩, .linkDeleted link.key⟩
    let early : LatticeEvent := .birth ⟨"prod"⟩ ⟨"host-a"⟩ ⟨0, 0⟩
    let late : LatticeEvent := .birth ⟨"prod"⟩ ⟨"host-b"⟩ ⟨0, 0⟩
    LatticeEvent.Interleaved [early, put, late, delete] [late, early, put, delete] ∧
      replay ⟨"prod"⟩ [early, put, late, delete] = replay ⟨"prod"⟩ [late, early, put, delete] := by
  intro link put delete early late
  have interleaved : LatticeEvent.Interleaved [early, put, late, delete]
      [late, early, put, delete] := by
    refine ⟨@List.perm_middle _ late [early, put] [delete], fun host => ?_, fun key => ?_⟩
    · by_cases onFirst : (⟨"host-a"⟩ : HostId) = host
      · subst onFirst
        rfl
      · simp [early, put, List.filter_cons, onFirst]
    · rfl
  exact ⟨interleaved, (replay_interleaved ⟨"prod"⟩ interleaved).1⟩

end ObservedState

end Reconciler
