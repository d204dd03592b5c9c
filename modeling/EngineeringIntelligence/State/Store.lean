import EngineeringIntelligence.State.Lifecycle

namespace EngineeringIntelligence.State

open EngineeringIntelligence.Framework

/-- What a call on a state store may raise. -/
inductive StateError where
  | lifecycleContract (message : String)
  | versionConflict (message : String)
  | integrity (constraint : String)
  | unreadablePayload
  | cosmosStoredState (message : String)
  deriving DecidableEq, Repr

/-- The exception class of an error. -/
def StateError.className : StateError → String
  | lifecycleContract _ => "LifecycleContractError"
  | versionConflict _ => "VersionConflict"
  | integrity _ => "IntegrityError"
  | unreadablePayload => "ValueError"
  | cosmosStoredState _ => "CosmosStoredStateError"

/-- Python's rendering of an optional integer in a message. -/
def showVersion : Option Int → String
  | none => "None"
  | some n => toString n

def assertExpected (current expected : Option Int) : Except StateError Unit :=
  if expected.isSome && current != expected then
    .error (.versionConflict ("expected version " ++ showVersion expected ++
      ", current version is " ++ showVersion current))
  else .ok ()

/-- The part of `apply_workflow_event` between reading the record and writing it. -/
def advance (current : Option WorkflowRecord) (e : WorkflowLifecycleEvent) :
    Except StateError WorkflowRecord :=
  match assertExpected (current.map (·.version)) e.expectedVersion with
  | .error x => .error x
  | .ok () =>
    match e.applyTo current with
    | .error m => .error (.versionConflict m)
    | .ok candidate => .ok { candidate with
        version := match current with
          | none => 1
          | some r => r.version + 1 }

/-- `_payload_to_workflow` on the decoded text; `none` is the `KeyError`, `TypeError`
or `ValueError` of a payload that `asdict` never wrote. -/
def payloadToWorkflow : Json → Option WorkflowRecord
  | .obj raw =>
    match Json.get raw "workflow_id", Json.get raw "service_id", Json.get raw "environment",
      Json.get raw "kind", Json.get raw "status", Json.get raw "correlation_id",
      Json.get raw "version", Json.get raw "updated_at", Json.get raw "tenant_id" with
    | .str workflowId, .str serviceId, .str environment, .str kind, .str status,
      .str correlationId, .int version, .str updatedAt, .str tenantId =>
      match WorkflowStatus.ofValue status, Json.get raw "plan_hash" with
      | some s, .null => some ⟨workflowId, serviceId, environment, kind, s, correlationId, none,
          version, updatedAt, tenantId⟩
      | some s, .str planHash => some ⟨workflowId, serviceId, environment, kind, s, correlationId,
          some planHash, version, updatedAt, tenantId⟩
      | _, _ => none
    | _, _, _, _, _, _, _, _, _ => none
  | _ => none

theorem payloadToWorkflow_asdict (r : WorkflowRecord) :
    payloadToWorkflow (.obj r.asdict) = some r := by
  obtain ⟨wid, sid, env, kind, status, corr, plan, version, updated, tenant⟩ := r
  cases plan <;> simp [payloadToWorkflow, WorkflowRecord.asdict, Json.get, List.lookup_cons, Json.optStr]

/-- A row of `workflows`. The payload column holds JSON text, which is kept decoded. -/
structure WorkflowRow where
  payload : Json
  version : Int

/-- A row of `workflow_transition_receipts`. -/
structure ReceiptRow where
  workflowId : String
  idempotencyKey : String
  eventId : String
  eventFingerprint : String
  workflowPayload : Json

/-- The two workflow tables of the SQLite store. -/
structure SqliteDb where
  workflows : AList (fun _ : String => WorkflowRow)
  receipts : List ReceiptRow

namespace SqliteDb

def empty : SqliteDb := ⟨∅, []⟩

/-- `BEGIN IMMEDIATE`, the body, `COMMIT`; whatever the body wrote before it raised is
rolled back. -/
def immediate {α : Type} (body : SqliteDb → SqliteDb × Except StateError α) (db : SqliteDb) :
    SqliteDb × Except StateError α :=
  match body db with
  | (_, .error x) => (db, .error x)
  | (written, .ok a) => (written, .ok a)

def selectReceipt (db : SqliteDb) (workflowId idempotencyKey : String) : Option ReceiptRow :=
  db.receipts.find? (fun r => r.workflowId = workflowId ∧ r.idempotencyKey = idempotencyKey)

def selectEvent (db : SqliteDb) (workflowId eventId : String) : Option ReceiptRow :=
  db.receipts.find? (fun r => r.workflowId = workflowId ∧ r.eventId = eventId)

def getWorkflow (db : SqliteDb) (workflowId : String) : Except StateError (Option WorkflowRecord) :=
  match db.workflows.lookup workflowId with
  | none => .ok none
  | some row =>
    match payloadToWorkflow row.payload with
    | none => .error .unreadablePayload
    | some r => .ok (some r)

/-- `_write_workflow`: insert, or update on a conflicting primary key. -/
def writeWorkflow (db : SqliteDb) (record : WorkflowRecord) : SqliteDb :=
  { db with
    workflows := db.workflows.insert record.workflowId ⟨.obj record.asdict, record.version⟩ }

/-- The insertion of a receipt under the primary key and the `UNIQUE` constraint. -/
def insertReceipt (db : SqliteDb) (row : ReceiptRow) : Except StateError SqliteDb :=
  if (db.selectReceipt row.workflowId row.idempotencyKey).isSome then
    .error (.integrity "workflow_id, idempotency_key")
  else if (db.selectEvent row.workflowId row.eventId).isSome then
    .error (.integrity "workflow_id, event_id")
  else .ok { db with receipts := db.receipts ++ [row] }

def putWorkflow (record : WorkflowRecord) (expectedVersion : Option Int) (db : SqliteDb) :
    SqliteDb × Except StateError WorkflowRecord :=
  immediate (fun db =>
    let current := (db.workflows.lookup record.workflowId).map (·.version)
    match assertExpected current expectedVersion with
    | .error x => (db, .error x)
    | .ok () =>
      let stored := { record with
        version := match current with
          | none => 1
          | some n => n + 1 }
      (db.writeWorkflow stored, .ok stored)) db

end SqliteDb

section
variable (sha256 : String → String)

def receiptRow (e : WorkflowLifecycleEvent) (stored : WorkflowRecord) : ReceiptRow :=
  ⟨e.workflowId, e.idempotencyKey, e.eventId, e.fingerprint sha256, .obj stored.asdict⟩

/-- `_replayed_transition`: the answer a receipt gives to an event with its key. -/
def replayedTransition (e : WorkflowLifecycleEvent) (receipt : ReceiptRow) :
    Except StateError WorkflowTransitionResult :=
  if receipt.eventId ≠ e.eventId ∨ receipt.eventFingerprint ≠ e.fingerprint sha256 then
    .error (.versionConflict "idempotency key has already been used for a different workflow event")
  else
    match payloadToWorkflow receipt.workflowPayload with
    | none => .error .unreadablePayload
    | some record => .ok ⟨record, e.eventId, e.idempotencyKey, true⟩

/-- The transaction of `apply_workflow_event`, with what it has written when it ends. -/
def transition (e : WorkflowLifecycleEvent) (db : SqliteDb) :
    SqliteDb × Except StateError WorkflowTransitionResult :=
  match db.selectReceipt e.workflowId e.idempotencyKey with
  | some receipt => (db, replayedTransition sha256 e receipt)
  | none =>
    if (db.selectEvent e.workflowId e.eventId).isSome then
      (db, .error (.versionConflict
        "workflow event id has already been used with a different idempotency key"))
    else
      match db.getWorkflow e.workflowId with
      | .error x => (db, .error x)
      | .ok current =>
        match advance current e with
        | .error x => (db, .error x)
        | .ok stored =>
          match (db.writeWorkflow stored).insertReceipt (receiptRow sha256 e stored) with
          | .error x => (db.writeWorkflow stored, .error x)
          | .ok written => (written, .ok ⟨stored, e.eventId, e.idempotencyKey, false⟩)

/-- `SqliteStateStore.apply_workflow_event`. -/
def applyWorkflowEvent (db : SqliteDb) (e : WorkflowLifecycleEvent) :
    SqliteDb × Except StateError WorkflowTransitionResult :=
  match e.validate with
  | some m => (db, .error (.lifecycleContract m))
  | none => SqliteDb.immediate (transition sha256 e) db

end

end EngineeringIntelligence.State
