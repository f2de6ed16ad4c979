import Reconciler.Control.Event

/-!
# Distribution of control events

An aggregator puts the events of one engine into envelopes and hands them to whoever has subscribed
before.
-/

namespace Reconciler

/-- Hands the events of an engine to subscribers. -/
structure EventAggregator where
  engine : String
  /-- The number of envelopes made so far. -/
  emitted : Nat
  /-- What each subscriber has not fetched yet; nothing for a subscriber that has left. -/
  mailboxes : List (Option (List ControlEventEnvelope))
deriving DecidableEq, Inhabited

namespace EventAggregator

/-- An aggregator without subscribers. -/
def new (engine : String) : EventAggregator :=
  ⟨engine, 0, []⟩

/-- The envelope of an event. -/
def envelope (aggregator : EventAggregator) (now : Timestamp) (event : ControlEvent)
    (severity : EventSeverity) (correlationId : Option String) : ControlEventEnvelope where
  id := ⟨aggregator.emitted⟩
  timestamp := now
  source := event.source
  severity := severity
  engine := aggregator.engine
  correlationId := correlationId
  event := event

/-- Reports an event with a severity. -/
def emit (aggregator : EventAggregator) (now : Timestamp) (event : ControlEvent)
    (severity : EventSeverity) (correlationId : Option String) : EventAggregator :=
  let envelope := aggregator.envelope now event severity correlationId
  { aggregator with
    emitted := aggregator.emitted + 1
    mailboxes := aggregator.mailboxes.map (Option.map (· ++ [envelope])) }

/-- Reports an event with its own severity. -/
def publish (aggregator : EventAggregator) (now : Timestamp) (event : ControlEvent) :
    EventAggregator :=
  aggregator.emit now event event.severity none

/-- Adds a subscriber, which hears of later events. -/
def subscribe (aggregator : EventAggregator) : EventAggregator :=
  { aggregator with mailboxes := aggregator.mailboxes ++ [some []] }

/-- Removes a subscriber. -/
def unsubscribe (aggregator : EventAggregator) (subscriber : Nat) : EventAggregator :=
  { aggregator with mailboxes := aggregator.mailboxes.set subscriber none }

/-- What a subscriber has not fetched yet; nothing if it has left or has never been. -/
def pending (aggregator : EventAggregator) (subscriber : Nat) : List ControlEventEnvelope :=
  ((aggregator.mailboxes[subscriber]?).bind id).getD []

/-- Marks what a subscriber has received as fetched. -/
def drain (aggregator : EventAggregator) (subscriber : Nat) : EventAggregator :=
  { aggregator with mailboxes := aggregator.mailboxes.modify subscriber (Option.map fun _ => []) }

/-- The number of subscribers. -/
def subscriberCount (aggregator : EventAggregator) : Nat :=
  (aggregator.mailboxes.filter Option.isSome).length

end EventAggregator

end Reconciler
