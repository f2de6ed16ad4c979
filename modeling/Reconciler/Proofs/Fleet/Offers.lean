import Reconciler.Proofs.Fleet.Members

/-!
# How commands come to be offered

A command is offered once more by a sweep that comes to its entry, or it is a new one that an actor
offers in a cycle. An actor that is not to look at its application begins no cycle, and offers
something only if it goes on with one.
-/

namespace Reconciler

namespace Session

/-- A sweep comes to an entry that had waited long enough to be sent again when the sweep began. -/
structure Resends (session : Session) (deed : Deed) (entry : Entry) : Prop where
  comes : ∃ start report key keys retryAt,
    session.chore? deed = some (.resend start report (key :: keys)) ∧
    session.engine.dispatcher.entries.find? key = some entry ∧
    entry.state = .backoff retryAt ∧ retryAt ≤ start.elapsed

/--
An actor goes on with a cycle after the transport has answered, and comes to an action of which
nothing stands in the way.
-/
structure Resumes (session : Session) (deed : Deed) (actor : Actor) (action : RequiredAction) :
    Prop where
  moves : ∃ number, deed = .moveActor number ∧ session.engine.actor? number = some actor
  goesOn : ∃ cycle command answersAt later outcome,
    actor.stage = .sending cycle command answersAt ∧ answersAt ≤ session.now.elapsed ∧
    session.transmit command = (later, .ok outcome) ∧ action ∈ cycle.remaining ∧
    later.engine.dispatcher.isFree session.now actor.key.lattice action = true

variable {session : Session} {deed : Deed} {command : Command}

theorem resends?_eq_some_iff {chore : Chore} :
    session.resends? chore = some command ↔
      ∃ start report key keys entry, chore = .resend start report (key :: keys) ∧
        session.engine.dispatcher.entries.find? key = some entry ∧
        Dispatcher.isDue start.elapsed entry = true ∧
        command = entry.command.again session.now.wall := by
  constructor
  · intro resends
    rcases chore with _ | _ | _ | _ | _ | _ | _ | _ | _ | ⟨start, report, _ | ⟨key, keys⟩⟩ | _ | _
    case resend.cons =>
      rcases Option.map_eq_some_iff.mp resends with ⟨⟨next, offered⟩, reentered, rfl⟩
      rcases (Dispatcher.reenter?_eq_some_iff ..).mp reentered with ⟨entry, found, due, _, offers⟩
      exact ⟨start, report, key, keys, entry, rfl, found, due, offers⟩
    all_goals cases resends
  · rintro ⟨start, report, key, keys, entry, rfl, found, due, rfl⟩
    simp [resends?, Dispatcher.reenter?, found, due, Command.again]

theorem isDue_iff {now : Nat} {entry : Entry} :
    Dispatcher.isDue now entry = true ↔
      ∃ retryAt, entry.state = .backoff retryAt ∧ retryAt ≤ now := by
  rw [Dispatcher.isDue]
  cases entry.state <;> simp

/-- A command that is offered is offered once more by a sweep, or by an actor. -/
theorem mem_offers_iff :
    command ∈ session.offers deed ↔
      (∃ entry, session.Resends deed entry ∧ command = entry.command.again session.now.wall) ∨
      ∃ number actor, deed = .moveActor number ∧ session.engine.actor? number = some actor ∧
        command ∈ session.offersOfActor actor := by
  have resent : command ∈ ((session.chore? deed).bind session.resends?).toList ↔
      ∃ entry, session.Resends deed entry ∧ command = entry.command.again session.now.wall := by
    rw [Option.mem_toList, Option.bind_eq_some_iff]
    constructor
    · rintro ⟨chore, does, resends⟩
      rcases resends?_eq_some_iff.mp resends with
        ⟨start, report, key, keys, entry, rfl, found, due, rfl⟩
      rcases isDue_iff.mp due with ⟨retryAt, waits, past⟩
      exact ⟨entry, ⟨start, report, key, keys, retryAt, does, found, waits, past⟩, rfl⟩
    · rintro ⟨entry, ⟨start, report, key, keys, retryAt, does, found, waits, past⟩, rfl⟩
      have due := isDue_iff.mpr ⟨retryAt, waits, past⟩
      exact ⟨_, does, resends?_eq_some_iff.mpr
        ⟨start, report, key, keys, entry, rfl, found, due, rfl⟩⟩
  rw [← resent]
  cases deed with
  | moveActor number =>
      cases found : session.engine.actor? number with
      | none => simp [offers, chore?, found]
      | some actor => simp [offers, chore?, found]
  | _ => simp [offers]

theorem now_of_transmit {later : Session} {outcome : Except DispatchError (Option AckOutcome)}
    (answer : session.transmit command = (later, outcome)) : later.now = session.now := by
  have transmitted := session.dispatches_transmit command
  rw [answer] at transmitted
  exact transmitted.now

/-- An actor that is not to look offers something only if it goes on with a cycle. -/
theorem offersOfActor_ne_nil_iff_of_barred {number : Nat} {actor : Actor}
    (found : session.engine.actor? number = some actor)
    (barred : ∀ awake, session.awake? actor = some awake → session.mayLook awake = false) :
    session.offersOfActor actor ≠ [] ↔
      ∃ action, session.Resumes (.moveActor number) actor action := by
  constructor
  · intro offering
    rcases List.exists_mem_of_ne_nil _ offering with ⟨command, offered⟩
    rcases engaged_of_mem_offersOfActor offered with ⟨_, _, _, base, total, actions, engaged, _⟩
    cases engaged with
    | begins wakes lasting allowed missing =>
        rw [barred _ wakes] at allowed
        cases allowed
    | @resumes cycle last answersAt sending answered =>
        rw [offersOfActor_of_sending sending, if_pos answered, offersOfRest] at offering
        rcases answer : session.transmit last with ⟨later, problem | outcome⟩
        · simp [answer] at offering
        · simp only [answer] at offering
          rcases (later.offersOfActions_ne_nil_iff actor.key cycle.remaining).mp offering with
            ⟨action, member, free⟩
          rw [now_of_transmit answer] at free
          exact ⟨action, ⟨number, rfl, found⟩, cycle, last, answersAt, later, outcome, sending,
            answered, answer, member, free⟩
  · rintro ⟨action, _, cycle, last, answersAt, later, outcome, sending, answered, answer, member,
      free⟩
    rw [offersOfActor_of_sending sending, if_pos answered, offersOfRest, answer]
    refine (later.offersOfActions_ne_nil_iff actor.key cycle.remaining).mpr ⟨action, member, ?_⟩
    rw [now_of_transmit answer]
    exact free

variable {doing : Option Chore} {next : Session} {offered : List Command}

theorem Service.leads {orders : List Order}
    (service : Service deed doing session offered orders next) :
    session.engine.dispatcher.Leads offered next.engine.dispatcher := by
  cases service with
  | dispatches dispatches => exact dispatches.dispatcher
  | @hires key absent intent active =>
      rw [Engine.ensureActor, absent]
      exact .refl _
  | @delivers number trigger isWaiting _ =>
      rcases session.exists_deliver_eq number trigger isWaiting with ⟨roster, leaving, same⟩
      rw [same]
      exact .refl _
  | takesOff key =>
      rcases session.exists_takeOff_eq key with ⟨roster, leaving, same⟩
      rw [same]
      exact .refl _
  | _ => exact .refl _

theorem Serves.leads {orders : List Order}
    (serves : session.Serves deed doing offered orders next) :
    session.engine.dispatcher.Leads offered next.engine.dispatcher := by
  induction serves with
  | refl session => exact .refl _
  | head service _ ih => exact service.leads.trans ih

theorem Conduct.leads {actor : Actor} (conduct : session.Conduct actor offered next) :
    session.engine.dispatcher.Leads offered next.engine.dispatcher := by
  rcases conduct.exists_eq with ⟨middle, _, _, _, dispatches, rfl⟩
  exact dispatches.dispatcher

/-- The dispatcher offers in a deed just what the deed offers. -/
theorem leads_afterDeed (session : Session) (deed : Deed) :
    session.engine.dispatcher.Leads (session.offers deed)
      (session.afterDeed deed).1.engine.dispatcher := by
  rcases session.conduct_or_serves_afterDeed deed with ⟨_, _, _, _, conduct⟩ | ⟨_, serves⟩
  · exact conduct.leads
  · exact serves.leads

end Session

/-- The commands that a member offers to its transport in an act. -/
def World.offered (world : World) (act : Act) (index : Nat) : List Command :=
  match world.deed? act, world.fleet.session? index with
  | some (member, deed), some session => if member = index then session.offers deed else []
  | _, _ => []

theorem World.mem_offered_iff {world : World} {act : Act} {index : Nat} {session : Session}
    (found : world.fleet.session? index = some session) {command : Command} :
    command ∈ world.offered act index ↔
      ∃ deed, world.deed? act = some (index, deed) ∧ command ∈ session.offers deed := by
  rw [offered, found]
  cases world.deed? act with
  | none => simp
  | some doing =>
      rcases doing with ⟨member, deed⟩
      by_cases same : member = index
      · simp [same]
      · simp [same]

end Reconciler
