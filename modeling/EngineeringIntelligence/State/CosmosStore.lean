import EngineeringIntelligence.State.Store

namespace EngineeringIntelligence.State.Cosmos

open EngineeringIntelligence.Framework

abbrev CosmosItem := List (String × Json)

section
variable (payload : CosmosItem) (field : String)

def mappingField : Except StateError CosmosItem :=
  match Json.get payload field with
  | .obj value => .ok value
  | _ => .error (.cosmosStoredState ("Cosmos field '" ++ field ++ "' must be an object"))

def textField : Except StateError String :=
  match Json.get payload field with
  | .str value =>
    if value = "" then
      .error (.cosmosStoredState ("Cosmos field '" ++ field ++ "' must be a non-blank string"))
    else .ok value
  | _ => .error (.cosmosStoredState ("Cosmos field '" ++ field ++ "' must be a non-blank string"))

def optionalTextField : Except StateError (Option String) :=
  match Json.get payload field with
  | .null => .ok none
  | .str value =>
    if value = "" then
      .error (.cosmosStoredState
        ("Cosmos field '" ++ field ++ "' must be a non-blank string when set"))
    else .ok (some value)
  | _ => .error (.cosmosStoredState
      ("Cosmos field '" ++ field ++ "' must be a non-blank string when set"))

def integerField (minimum : Int) : Except StateError Int :=
  match Json.get payload field with
  | .int value =>
    if value < minimum then
      .error (.cosmosStoredState
        ("Cosmos field '" ++ field ++ "' must be an integer >= " ++ toString minimum))
    else .ok value
  | _ => .error (.cosmosStoredState
      ("Cosmos field '" ++ field ++ "' must be an integer >= " ++ toString minimum))

end

/-- `_workflow_from_payload`, reading the fields in the order of the source. -/
def workflowFromPayload (payload : CosmosItem) : Except StateError WorkflowRecord := do
  let status ← textField payload "status"
  match WorkflowStatus.ofValue status with
  | none => .error (.cosmosStoredState "Cosmos workflow status is invalid")
  | some workflowStatus =>
    let workflowId ← textField payload "workflow_id"
    let serviceId ← textField payload "service_id"
    let environment ← textField payload "environment"
    let kind ← textField payload "kind"
    let correlationId ← textField payload "correlation_id"
    let planHash ← optionalTextField payload "plan_hash"
    let version ← integerField payload "version" 1
    let updatedAt ← textField payload "updated_at"
    let tenantId ← textField payload "tenant_id"
    return ⟨workflowId, serviceId, environment, kind, workflowStatus, correlationId, planHash,
      version, updatedAt, tenantId⟩

structure CosmosDocument where
  body : CosmosItem
  etag : String

/-- A container: documents under partition key and id, and the number of writes so far,
from which the next etag is drawn. -/
structure CosmosContainer where
  documents : AList (fun _ : String × String => CosmosDocument)
  writes : Nat

inductive CosmosBatchOperation where
  | create (body : CosmosItem)
  | replace (item : String) (body : CosmosItem) (ifMatchEtag : String)

namespace CosmosContainer

def empty : CosmosContainer := ⟨∅, 0⟩

/-- `read_item`; `none` is `CosmosResourceNotFoundError`. -/
def readItem (c : CosmosContainer) (item partitionKey : String) : Option CosmosItem :=
  (c.documents.lookup (partitionKey, item)).map (fun d => d.body ++ [("_etag", .str d.etag)])

def write (c : CosmosContainer) (partitionKey item : String) (body : CosmosItem) :
    CosmosContainer :=
  ⟨c.documents.insert (partitionKey, item) ⟨body, "etag-" ++ toString c.writes⟩, c.writes + 1⟩

def itemIdOf (body : CosmosItem) : Option String :=
  match Json.get body "id" with
  | .str item => some item
  | _ => none

/-- One operation of a batch, `none` where its condition fails. -/
def runOperation (partitionKey : String) (c : CosmosContainer) :
    CosmosBatchOperation → Option CosmosContainer
  | .create body =>
    match itemIdOf body with
    | none => none
    | some item =>
      if (c.documents.lookup (partitionKey, item)).isSome then none
      else some (c.write partitionKey item body)
  | .replace item body ifMatchEtag =>
    match c.documents.lookup (partitionKey, item) with
    | none => none
    | some d => if d.etag = ifMatchEtag then some (c.write partitionKey item body) else none

/-- `execute_item_batch`: all operations, or none of them. -/
def executeItemBatch (c : CosmosContainer) (operations : List CosmosBatchOperation)
    (partitionKey : String) : Option CosmosContainer :=
  operations.foldlM (runOperation partitionKey) c

end CosmosContainer

def itemId (kind key : String) : String := kind ++ ":" ++ key

def workflowItemId (workflowId : String) : String := itemId "workflow" workflowId

def workflowFromRaw (raw : CosmosItem) : Except StateError WorkflowRecord := do
  workflowFromPayload (← mappingField raw "payload")

def getWorkflow (c : CosmosContainer) (workflowId : String) :
    Except StateError (Option WorkflowRecord) :=
  match c.readItem (workflowItemId workflowId) (workflowItemId workflowId) with
  | none => .ok none
  | some raw => (workflowFromRaw raw).map some

def workflowBody (stored : WorkflowRecord) (workflowId : String) : CosmosItem :=
  [("id", .str (workflowItemId workflowId)), ("partition_key", .str (workflowItemId workflowId)),
    ("kind", .str "workflow"), ("version", .int stored.version), ("payload", .obj stored.asdict)]

section
variable (sha256 : String → String)

def receiptId (idempotencyKey : String) : String :=
  "workflow-transition:" ++ sha256 idempotencyKey

def receiptBody (e : WorkflowLifecycleEvent) (stored : WorkflowRecord) : CosmosItem :=
  [("id", .str (receiptId sha256 e.idempotencyKey)),
    ("partition_key", .str (workflowItemId e.workflowId)),
    ("kind", .str "workflow-transition-receipt"), ("event_id", .str e.eventId),
    ("idempotency_key", .str e.idempotencyKey),
    ("event_fingerprint", .str (e.fingerprint sha256)), ("workflow_payload", .obj stored.asdict)]

def replayedTransition (e : WorkflowLifecycleEvent) (receipt : CosmosItem) :
    Except StateError WorkflowTransitionResult := do
  let eventId ← textField receipt "event_id"
  let fingerprint ← if eventId ≠ e.eventId then .ok "" else textField receipt "event_fingerprint"
  if eventId ≠ e.eventId ∨ fingerprint ≠ e.fingerprint sha256 then
    .error (.versionConflict "idempotency key has already been used for a different workflow event")
  else
    let record ← workflowFromPayload (← mappingField receipt "workflow_payload")
    return ⟨record, e.eventId, e.idempotencyKey, true⟩

/-- The batch of an accepted event: the workflow is created, or replaced under its etag,
together with the receipt. -/
def batchOperations (e : WorkflowLifecycleEvent) (current : Option CosmosItem)
    (stored : WorkflowRecord) : Except StateError (List CosmosBatchOperation) :=
  match current with
  | none => .ok [.create (workflowBody stored e.workflowId), .create (receiptBody sha256 e stored)]
  | some raw => do
    let etag ← textField raw "_etag"
    return [.replace (workflowItemId e.workflowId) (workflowBody stored e.workflowId) etag,
      .create (receiptBody sha256 e stored)]

/-- `CosmosStateStore.apply_workflow_event`. -/
def applyWorkflowEvent (c : CosmosContainer) (e : WorkflowLifecycleEvent) :
    CosmosContainer × Except StateError WorkflowTransitionResult :=
  match e.validate with
  | some m => (c, .error (.lifecycleContract m))
  | none =>
    let partitionKey := workflowItemId e.workflowId
    match c.readItem (receiptId sha256 e.idempotencyKey) partitionKey with
    | some receipt => (c, replayedTransition sha256 e receipt)
    | none =>
      match getWorkflow c e.workflowId with
      | .error x => (c, .error x)
      | .ok currentRecord =>
        match advance currentRecord e with
        | .error x => (c, .error x)
        | .ok stored =>
          match batchOperations sha256 e (c.readItem partitionKey partitionKey) stored with
          | .error x => (c, .error x)
          | .ok operations =>
            match c.executeItemBatch operations partitionKey with
            | some written => (written, .ok ⟨stored, e.eventId, e.idempotencyKey, false⟩)
            | none =>
              -- the receipt is read again: another writer may have stored this event
              match c.readItem (receiptId sha256 e.idempotencyKey) partitionKey with
              | some recovered => (c, replayedTransition sha256 e recovered)
              | none => (c, .error (.versionConflict
                  "Cosmos lifecycle transition conditional write conflict"))

end

end EngineeringIntelligence.State.Cosmos
