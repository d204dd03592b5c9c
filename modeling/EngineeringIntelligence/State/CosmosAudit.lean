import EngineeringIntelligence.Framework.PyWire
import EngineeringIntelligence.State.AuditReplay
import EngineeringIntelligence.State.CosmosStore

namespace EngineeringIntelligence.State.Cosmos

open EngineeringIntelligence.Framework

/-! `CosmosAuditLog`: the audit chain in one partition of a container. An append reads the tip,
sends a batch that holds on the tip's etag, and reads its event back when the batch is refused;
other appends may come between any two of these. -/

def auditPartitionKey : String := "eip-audit-chain"

def tipId : String := "audit-chain:tip"

def maxTipAttempts : Nat := 8

inductive CosmosAuditError where
  | storedAudit (message : String)
  | conflict (message : String)
  | unserialisable
  | exhausted (message : String)
  deriving DecidableEq, Repr

section
variable (payload : CosmosItem) (field : String)

def fieldMessage (expected : String) : CosmosAuditError :=
  .storedAudit ("Cosmos audit field '" ++ field ++ "' must be " ++ expected)

def auditMappingField : Except CosmosAuditError CosmosItem :=
  match Json.get payload field with
  | .obj value => .ok value
  | _ => .error (fieldMessage field "an object")

def auditTextField : Except CosmosAuditError String :=
  match Json.get payload field with
  | .str value =>
    if value = "" then .error (fieldMessage field "a non-blank string") else .ok value
  | _ => .error (fieldMessage field "a non-blank string")

def auditOptionalTextField : Except CosmosAuditError (Option String) :=
  match Json.get payload field with
  | .null => .ok none
  | .str value =>
    if value = "" then .error (fieldMessage field "a non-blank string when set") else .ok (some value)
  | _ => .error (fieldMessage field "a non-blank string when set")

def auditIntegerField (minimum : Int) : Except CosmosAuditError Int :=
  match Json.get payload field with
  | .int value =>
    if value < minimum then .error (fieldMessage field ("an integer >= " ++ toString minimum))
    else .ok value
  | _ => .error (fieldMessage field ("an integer >= " ++ toString minimum))

end

/-- `dict(event.payload)` as the service is sent it. -/
def wirePayload (e : NewAuditEvent) : Option (List (String × Json)) :=
  match e.payload with
  | .dict entries => PyValue.wireEntries entries
  | _ => none

/-- `_audit_event_payload`. -/
def auditEventPayload (e : NewAuditEvent) (payload : List (String × Json))
    (previousHash : Option String) (eventHash : String) : CosmosItem :=
  [("event_id", .str e.eventId), ("correlation_id", .str e.correlationId), ("actor", .str e.actor),
    ("action", .str e.action), ("resource", .str e.resource), ("payload", .obj payload),
    ("occurred_at", .str e.occurredAt), ("previous_hash", .optStr previousHash),
    ("event_hash", .str eventHash)]

/-- `_audit_event_from_payload`. -/
def auditEventFromPayload (payload : CosmosItem) : Except CosmosAuditError StoredAuditEvent := do
  let eventId ← auditTextField payload "event_id"
  let correlationId ← auditTextField payload "correlation_id"
  let actor ← auditTextField payload "actor"
  let action ← auditTextField payload "action"
  let resource ← auditTextField payload "resource"
  let content ← auditMappingField payload "payload"
  let occurredAt ← auditTextField payload "occurred_at"
  let previousHash ← auditOptionalTextField payload "previous_hash"
  let eventHash ← auditOptionalTextField payload "event_hash"
  return ⟨.str eventId, .str correlationId, .str actor, .str action, .str resource, .obj content,
    .str occurredAt, .optStr previousHash, .optStr eventHash⟩

section
variable (sha256 : String → String) (partitionKey : String)

/-- `_event_item_id`. -/
def eventItemId (eventId : String) : String := "audit-event:" ++ sha256 eventId

def eventBody (e : NewAuditEvent) (payload : List (String × Json)) (sequence : Int)
    (previousHash : Option String) (eventHash : String) : CosmosItem :=
  [("id", .str (eventItemId sha256 e.eventId)), ("partition_key", .str partitionKey),
    ("kind", .str "audit-event"), ("sequence", .int sequence), ("event_id", .str e.eventId),
    ("event_hash", .str eventHash),
    ("payload", .obj (auditEventPayload e payload previousHash eventHash))]

def tipBody (sequence : Int) (eventId eventHash : String) : CosmosItem :=
  [("id", .str tipId), ("partition_key", .str partitionKey), ("kind", .str "audit-chain-tip"),
    ("sequence", .int sequence), ("event_id", .str eventId), ("event_hash", .str eventHash)]

/-- What an append has computed when it sends its batch. -/
structure PreparedAppend where
  previousHash : Option String
  eventHash : String
  operations : List CosmosBatchOperation

/-- The part of an attempt between reading the tip and sending the batch. -/
def prepareAppend (e : NewAuditEvent) (tip : Option CosmosItem) :
    Except CosmosAuditError PreparedAppend := do
  let previous ← match tip with
    | none => .ok none
    | some t => (auditTextField t "event_hash").map some
  let sequence ← match tip with
    | none => .ok 1
    | some t => (auditIntegerField t "sequence" 1).map (· + 1)
  match e.canonical previous, wirePayload e with
  | some text, some payload =>
    let eventHash := sha256 text
    let advanced := tipBody partitionKey sequence e.eventId eventHash
    let tipOperation ← match tip with
      | none => .ok (.create advanced)
      | some t => (auditTextField t "_etag").map (.replace tipId advanced)
    return ⟨previous, eventHash,
      [.create (eventBody sha256 partitionKey e payload sequence previous eventHash), tipOperation]⟩
  | _, _ => .error .unserialisable

def cosmosAuditConflict : CosmosAuditError :=
  .conflict "audit event id has already been used for different content"

/-- `_replayed`. -/
def replayedAudit (e : NewAuditEvent) (stored : CosmosItem) :
    Except CosmosAuditError AppendedEvent := do
  let restored ← auditEventFromPayload (← auditMappingField stored "payload")
  match e.identity with
  | none => .error .unserialisable
  | some identity =>
    if restored.identity ≠ identity then .error cosmosAuditConflict else .ok (.replayed restored)

/-- Where a call of `append` stands; `attempts` counts the ones left after this one. -/
inductive AppendPhase where
  | idle
  | reading (event : NewAuditEvent) (attempts : Nat)
  | batching (event : NewAuditEvent) (attempts : Nat) (prepared : PreparedAppend)
  | rereading (event : NewAuditEvent) (attempts : Nat)
  | returned (event : NewAuditEvent) (result : Except CosmosAuditError AppendedEvent)

/-- A call can begin where none is under way. -/
def AppendPhase.free : AppendPhase → Bool
  | idle => true
  | returned _ _ => true
  | _ => false

/-- One exchange with the container. -/
def AppendPhase.next (c : CosmosContainer) : AppendPhase → CosmosContainer × AppendPhase
  | reading e attempts =>
    match prepareAppend sha256 partitionKey e (c.readItem tipId partitionKey) with
    | .error x => (c, returned e (.error x))
    | .ok prepared => (c, batching e attempts prepared)
  | batching e attempts prepared =>
    match c.executeItemBatch prepared.operations partitionKey with
    | some written =>
      (written, returned e (.ok (.finalized e prepared.previousHash prepared.eventHash)))
    | none => (c, rereading e attempts)
  | rereading e attempts =>
    match c.readItem (eventItemId sha256 e.eventId) partitionKey with
    | some stored => (c, returned e (replayedAudit e stored))
    | none =>
      match attempts with
      | 0 => (c, returned e (.error (.exhausted
          ("audit chain tip could not be advanced; refusing to append without a linked " ++
            "predecessor"))))
      | attempts + 1 => (c, reading e attempts)
  | phase => (c, phase)

variable {sha256 partitionKey} in
theorem next_reading_prepared {c : CosmosContainer} {e : NewAuditEvent} {attempts : Nat} {p : PreparedAppend}
    (h : prepareAppend sha256 partitionKey e (c.readItem tipId partitionKey) = .ok p) :
    (AppendPhase.reading e attempts).next sha256 partitionKey c = (c, .batching e attempts p) := by
  simp only [AppendPhase.next, h]

/-- Any number of callers on one container. -/
structure AuditSystem where
  container : CosmosContainer
  phases : Nat → AppendPhase

def AuditSystem.initial : AuditSystem := ⟨.empty, fun _ => .idle⟩

inductive AuditMove where
  | start (caller : Nat) (event : NewAuditEvent)
  | proceed (caller : Nat)

def AuditSystem.step (s : AuditSystem) : AuditMove → AuditSystem × Unit
  | .start caller event =>
    if (s.phases caller).free then
      (⟨s.container, Function.update s.phases caller (.reading event (maxTipAttempts - 1))⟩, ())
    else (s, ())
  | .proceed caller =>
    let (c, phase) := (s.phases caller).next sha256 partitionKey s.container
    (⟨c, Function.update s.phases caller phase⟩, ())

def auditSystemAfter (moves : List AuditMove) : AuditSystem :=
  runState (AuditSystem.step sha256 partitionKey) .initial moves

end

end EngineeringIntelligence.State.Cosmos
