import Reconciler.Proofs.Time.Texts
import Reconciler.Proofs.Uuid
import Reconciler.Proofs.Wire.Forms
import Reconciler.Wire.Command
import Reconciler.Wire.Control

/-!
# Forms that are read back

Manifests, actions and everything that they are made of have lawful forms. Events, commands and
acknowledgements have forms that are read back as far as their points in time and identifiers are
read back from their texts; what was read from a form is read back in any case.
-/

namespace Reconciler

open JsonForm

instance : LawfulForm ComponentKind :=
  ComponentKind.names.lawfulForm fun kind => by cases kind <;> rfl

instance : LawfulForm WeightedTarget where
  isKeepable_write target := by
    unfold instJsonFormWeightedTarget
    simp
  read?_write reading target := by
    unfold instJsonFormWeightedTarget
    simp [Fields.orElse?, List.lookup_cons]

instance : LawfulForm SpreadScaler where
  isKeepable_write scaler := by
    unfold instJsonFormSpreadScaler
    simp
  read?_write reading scaler := by
    unfold instJsonFormSpreadScaler
    simp [Fields.orElse?, Fields.required?, List.lookup_cons]

instance : LawfulForm LinkTarget where
  isKeepable_write target := by
    unfold instJsonFormLinkTarget
    cases target <;> simp
  read?_write reading target := by
    unfold instJsonFormLinkTarget
    cases target <;> simp [Json.variant?, Content.value?]

instance : LawfulForm LinkDefinition where
  isKeepable_write link := by
    unfold instJsonFormLinkDefinition
    simp
  read?_write reading link := by
    unfold instJsonFormLinkDefinition
    simp [Fields.orElse?, Fields.required?, List.lookup_cons]

theorem SpreadScaler.isRecord_write (scaler : SpreadScaler) :
    (write scaler).IsRecord ["instances", "spread"] :=
  ⟨_, rfl, rfl⟩

theorem LinkDefinition.isRecord_write (link : LinkDefinition) :
    (write link).IsRecord
      ["name", "namespace", "package", "interfaces", "target", "source_config"] :=
  ⟨_, rfl, rfl⟩

instance : LawfulForm Trait where
  isKeepable_write trait := by
    unfold instJsonFormTrait
    cases trait with
    | spreadScaler scaler => simp [Json.isKeepable_tagWith scaler.isRecord_write]
    | link definition => simp [Json.isKeepable_tagWith definition.isRecord_write]
  read?_write reading trait := by
    unfold instJsonFormTrait
    cases trait with
    | spreadScaler scaler => simp [Json.tagged?_tagWith scaler.isRecord_write]
    | link definition => simp [Json.tagged?_tagWith definition.isRecord_write]

instance : LawfulForm Component where
  isKeepable_write component := by
    unfold instJsonFormComponent
    simp
  read?_write reading component := by
    unfold instJsonFormComponent
    simp [Fields.orElse?, Fields.required?, List.lookup_cons]

instance : LawfulForm Manifest where
  isKeepable_write manifest := by
    unfold instJsonFormManifest
    simp
  read?_write reading manifest := by
    unfold instJsonFormManifest
    simp [Fields.orElse?, Fields.required?, List.lookup_cons]

instance : LawfulForm LinkKey where
  isKeepable_write key := by
    unfold instJsonFormLinkKey
    simp
  read?_write reading key := by
    unfold instJsonFormLinkKey
    simp [Fields.required?, List.lookup_cons]

instance : LawfulForm ActiveLink where
  isKeepable_write link := by
    unfold instJsonFormActiveLink
    simp
  read?_write reading link := by
    unfold instJsonFormActiveLink
    simp [Fields.orElse?, Fields.required?, List.lookup_cons]

theorem LinkKey.isRecord_write (key : LinkKey) :
    (write key).IsRecord ["source", "name", "namespace", "package"] :=
  ⟨_, rfl, rfl⟩

theorem ActiveLink.isRecord_write (link : ActiveLink) :
    (write link).IsRecord ["key", "target", "interfaces", "source_config", "owner"] :=
  ⟨_, rfl, rfl⟩

namespace LatticeEventKind

/-- No kind of events has a member under the name of the tag. -/
theorem tag_notMem_members (kind : LatticeEventKind) : "type" ∉ kind.members.map Prod.fst := by
  rcases kind with ⟨_, _ | _⟩ | _ | _ | _ | _ | _ | _ | _ <;> simp [members]

theorem isKeepable_members (kind : LatticeEventKind) :
    (Json.object kind.members).isKeepable = true := by
  rcases kind with ⟨_, _ | _⟩ | _ | _ | _ | _ | _ | _ | _ <;> simp [members]

/-- A boot epoch that is left out is read as none. -/
theorem readNamed?_members (kind : LatticeEventKind) :
    readNamed? (.object kind.members) kind.name = some kind := by
  rcases kind with ⟨_, _ | _⟩ | _ | _ | _ | _ | _ | _ | _ <;>
    simp [readNamed?, members, name, Fields.orElse?, Fields.required?, List.lookup_cons]

end LatticeEventKind

instance : LawfulForm LatticeEventKind where
  isKeepable_write kind := by
    unfold instJsonFormLatticeEventKind
    simp [Json.isKeepable_tagWith ⟨kind.members, rfl, rfl⟩, kind.isKeepable_members]
  read?_write reading kind := by
    unfold instJsonFormLatticeEventKind
    simp [Json.tagged?_tagWith ⟨kind.members, rfl, rfl⟩, kind.tag_notMem_members,
      kind.isKeepable_members, kind.readNamed?_members]

instance : LawfulForm RequiredAction where
  isKeepable_write action := by
    unfold instJsonFormRequiredAction
    cases action with
    | addLink link => simp [Json.isKeepable_tagWith link.isRecord_write]
    | removeLink key => simp [Json.isKeepable_tagWith key.isRecord_write]
    | startInstances component componentKind imageRef host selector count => simp
    | stopInstances component host instances => simp
  read?_write reading action := by
    unfold instJsonFormRequiredAction
    cases action with
    | addLink link => simp [Json.tagged?_tagWith link.isRecord_write]
    | removeLink key => simp [Json.tagged?_tagWith key.isRecord_write]
    | startInstances component componentKind imageRef host selector count =>
        simp [Fields.required?, List.lookup_cons]
    | stopInstances component host instances => simp [Fields.required?, List.lookup_cons]

instance : LawfulForm AckResult where
  isKeepable_write result := by
    unfold instJsonFormAckResult
    cases result <;> simp
  read?_write reading result := by
    unfold instJsonFormAckResult
    cases result <;> simp [Fields.required?, List.lookup_cons]

instance : LawfulForm EventSource :=
  EventSource.names.lawfulForm fun source => by cases source <;> rfl

instance : LawfulForm EventSeverity :=
  EventSeverity.names.lawfulForm fun severity => by cases severity <;> rfl

instance : LawfulForm ControlEvent where
  isKeepable_write event := by
    unfold instJsonFormControlEvent
    cases event <;> simp [Json.variantForm]
  read?_write reading event := by
    unfold instJsonFormControlEvent
    cases event <;>
      simp [Json.variantForm, Json.variant?, ControlEvent.readNamed?, Content.isUnit,
        Fields.required?, List.lookup_cons]

section Texts

variable {reading : Reading} {form : Json}

theorem Timestamp.ReadsBack.read?_write {time : Timestamp} (back : time.ReadsBack)
    (reading : Reading) : JsonForm.read? reading (JsonForm.write time) = some time := by
  change (some time.write).bind Timestamp.read? = some time
  rw [Option.bind_some, back]

theorem Timestamp.readsBack_of_form {time : Timestamp}
    (isRead : JsonForm.read? reading form = some time) : time.ReadsBack := by
  rcases Option.bind_eq_some_iff.mp isRead with ⟨text, _, isTime⟩
  exact readsBack_of_read? isTime

theorem Uuid.ReadsBack.read?_write {uuid : Uuid} (back : uuid.ReadsBack) (reading : Reading) :
    JsonForm.read? reading (JsonForm.write uuid) = some uuid := by
  change (some uuid.write).bind Uuid.read? = some uuid
  rw [Option.bind_some, back]

theorem CommandHandle.read?_write {handle : CommandHandle} (back : handle.uuid.ReadsBack)
    (reading : Reading) : JsonForm.read? reading (JsonForm.write handle) = some handle := by
  change (JsonForm.read? reading (JsonForm.write handle.uuid)).map CommandHandle.mk = some handle
  rw [back.read?_write, Option.map_some]

theorem Uuid.readsBack_of_form {uuid : Uuid} (isRead : JsonForm.read? reading form = some uuid) :
    uuid.ReadsBack := by
  rcases Option.bind_eq_some_iff.mp isRead with ⟨text, _, isUuid⟩
  exact readsBack_of_read? isUuid

theorem CommandHandle.readsBack_of_form {handle : CommandHandle}
    (isRead : JsonForm.read? reading form = some handle) : handle.uuid.ReadsBack := by
  rcases Option.map_eq_some_iff.mp isRead with ⟨uuid, isUuid, rfl⟩
  exact Uuid.readsBack_of_form isUuid

end Texts

theorem LatticeEvent.roundTrips :
    RoundTrips LatticeEvent fun event => event.occurredAt.ReadsBack := by
  refine .of_forall (fun event back reading => ?_) fun reading form event isRead => ?_
  · unfold instJsonFormLatticeEvent
    simp [Fields.required?, List.lookup_cons, back.read?_write]
  · unfold instJsonFormLatticeEvent at isRead
    simp only [Option.bind_eq_bind, Option.bind_eq_some_iff] at isRead
    rcases isRead with ⟨fields, _, lattice, _, host, _, sequence, _, time, isTime, kind, _, same⟩
    cases same
    rcases Fields.exists_of_required? isTime with ⟨form, isRead⟩
    exact Timestamp.readsBack_of_form isRead

theorem Command.roundTrips : RoundTrips Command fun command =>
    command.handle.uuid.ReadsBack ∧ command.issuedAt.ReadsBack := by
  refine .of_forall (fun command back reading => ?_) fun reading form command isRead => ?_
  · unfold instJsonFormCommand
    simp [Fields.required?, List.lookup_cons, CommandHandle.read?_write back.1, back.2.read?_write]
  · unfold instJsonFormCommand at isRead
    simp only [Option.bind_eq_bind, Option.bind_eq_some_iff] at isRead
    rcases isRead with ⟨fields, _, handle, isHandle, key, _, lattice, _, app, _, attempt, _, time,
      isTime, annotations, _, action, _, same⟩
    cases same
    rcases Fields.exists_of_required? isHandle with ⟨form, isRead⟩
    rcases Fields.exists_of_required? isTime with ⟨timeForm, timeIsRead⟩
    exact ⟨CommandHandle.readsBack_of_form isRead, Timestamp.readsBack_of_form timeIsRead⟩

theorem CommandAck.roundTrips :
    RoundTrips CommandAck fun ack => ack.handle.uuid.ReadsBack := by
  refine .of_forall (fun ack back reading => ?_) fun reading form ack isRead => ?_
  · unfold instJsonFormCommandAck
    simp [Fields.required?, List.lookup_cons, CommandHandle.read?_write back]
  · unfold instJsonFormCommandAck at isRead
    simp only [Option.bind_eq_bind, Option.bind_eq_some_iff] at isRead
    rcases isRead with ⟨fields, _, handle, isHandle, key, _, result, _, same⟩
    cases same
    rcases Fields.exists_of_required? isHandle with ⟨form, isRead⟩
    exact CommandHandle.readsBack_of_form isRead

theorem ControlEventEnvelope.roundTrips : RoundTrips ControlEventEnvelope fun envelope =>
    envelope.id.ReadsBack ∧ envelope.timestamp.ReadsBack := by
  refine .of_forall (fun envelope back reading => ?_) fun reading form envelope isRead => ?_
  · unfold instJsonFormControlEventEnvelope
    simp [Fields.required?, Fields.optional?, List.lookup_cons, back.1.read?_write,
      back.2.read?_write]
  · unfold instJsonFormControlEventEnvelope at isRead
    simp only [Option.bind_eq_bind, Option.bind_eq_some_iff] at isRead
    rcases isRead with ⟨fields, _, id, isId, time, isTime, source, _, severity, _, engine, _,
      correlation, _, event, _, same⟩
    cases same
    rcases Fields.exists_of_required? isId with ⟨form, isRead⟩
    rcases Fields.exists_of_required? isTime with ⟨timeForm, timeIsRead⟩
    exact ⟨Uuid.readsBack_of_form isRead, Timestamp.readsBack_of_form timeIsRead⟩

namespace JsonForm

/--
Manifests, events, actions, commands, acknowledgements and control events are read back from their
forms, as far as their points in time and identifiers are read back from their texts.
-/
theorem documents_roundTrip :
    RoundTrips Manifest (fun _ => True) ∧
    RoundTrips LatticeEvent (fun event => event.occurredAt.ReadsBack) ∧
    RoundTrips RequiredAction (fun _ => True) ∧
    RoundTrips Command (fun command =>
      command.handle.uuid.ReadsBack ∧ command.issuedAt.ReadsBack) ∧
    RoundTrips CommandAck (fun ack => ack.handle.uuid.ReadsBack) ∧
    RoundTrips ControlEventEnvelope (fun envelope =>
      envelope.id.ReadsBack ∧ envelope.timestamp.ReadsBack) :=
  ⟨LawfulForm.roundTrips Manifest, LatticeEvent.roundTrips, LawfulForm.roundTrips RequiredAction,
    Command.roundTrips, CommandAck.roundTrips, ControlEventEnvelope.roundTrips⟩

/-- A retried command that starts a provider on a host, its refusal, and a warning about it. -/
theorem documents_roundTrip_of_retry :
    let uuid : Uuid := ⟨0x0123456789abcdef0123456789abcdef⟩
    let time : Timestamp := ⟨951782399, 1999000000⟩
    let action : RequiredAction := .startInstances ⟨"shop-kv"⟩ .provider "registry/kv:1" ⟨"host-a"⟩
      (.ofList [("zone", "east")]) 2
    let command : Command :=
      { Command.new ⟨uuid⟩ time ⟨"prod"⟩ ⟨"shop"⟩ action with attempt := 2 }
    let ack : CommandAck := ⟨⟨uuid⟩, command.key, .failure true "host is full"⟩
    let envelope : ControlEventEnvelope := ⟨uuid, time, .dispatcher, .warning, "engine-1", none,
      .commandRetried command.key 2 "host is full"⟩
    uuid.ReadsBack ∧ time.ReadsBack ∧
      read? .document (write command) = some command ∧
      read? .document (write ack) = some ack ∧
      read? .document (write envelope) = some envelope := by
  intro uuid time action command ack envelope
  have isUuid : uuid.ReadsBack := Uuid.readsBack_of_lt (by norm_num [uuid])
  have isTime : time.ReadsBack :=
    Timestamp.IsRegular.readsBack ⟨by decide, by decide, Or.inr (by decide)⟩
  rcases documents_roundTrip with ⟨_, _, _, commands, acks, envelopes⟩
  exact ⟨isUuid, isTime, commands.read?_write command ⟨isUuid, isTime⟩ .document,
    acks.read?_write ack isUuid .document,
    envelopes.read?_write envelope ⟨isUuid, isTime⟩ .document⟩

end JsonForm

end Reconciler
