import EngineeringIntelligence.Framework.Json
import EngineeringIntelligence.Framework.Timestamp
import Mathlib.Data.List.AList

namespace EngineeringIntelligence.State

open EngineeringIntelligence.Framework

inductive WorkflowStatus where
  | received
  | diagnosing
  | planned
  | waitingApproval
  | executing
  | verifying
  | succeeded
  | rolledBack
  | escalated
  | failed
  | cancelled
  deriving DecidableEq, Repr

namespace WorkflowStatus

def value : WorkflowStatus → String
  | received => "received"
  | diagnosing => "diagnosing"
  | planned => "planned"
  | waitingApproval => "waiting_approval"
  | executing => "executing"
  | verifying => "verifying"
  | succeeded => "succeeded"
  | rolledBack => "rolled_back"
  | escalated => "escalated"
  | failed => "failed"
  | cancelled => "cancelled"

def all : List WorkflowStatus :=
  [received, diagnosing, planned, waitingApproval, executing, verifying, succeeded, rolledBack,
    escalated, failed, cancelled]

/-- `WorkflowStatus(text)`; `none` is its `ValueError`. -/
def ofValue (text : String) : Option WorkflowStatus := all.find? (fun s => s.value = text)

@[simp] theorem ofValue_value (s : WorkflowStatus) : ofValue s.value = some s := by
  cases s <;> decide

end WorkflowStatus

/-- The authoritative record of one workflow. -/
structure WorkflowRecord where
  workflowId : String
  serviceId : String
  environment : String
  kind : String
  status : WorkflowStatus
  correlationId : String
  planHash : Option String
  version : Int
  updatedAt : String
  tenantId : String
  deriving DecidableEq, Repr

namespace WorkflowRecord

/-- What a workflow is about; the lifecycle may not change any of it. -/
def identity (r : WorkflowRecord) : List (String × String) :=
  [("tenant_id", r.tenantId), ("service_id", r.serviceId), ("environment", r.environment),
    ("kind", r.kind), ("correlation_id", r.correlationId)]

/-- `asdict(record)`. -/
def asdict (r : WorkflowRecord) : List (String × Json) :=
  [("workflow_id", .str r.workflowId), ("service_id", .str r.serviceId),
    ("environment", .str r.environment), ("kind", .str r.kind), ("status", .str r.status.value),
    ("correlation_id", .str r.correlationId), ("plan_hash", Json.optStr r.planHash),
    ("version", .int r.version), ("updated_at", .str r.updatedAt), ("tenant_id", .str r.tenantId)]

end WorkflowRecord

/-- One step of a workflow's tamper-evident record. -/
structure AuditEvent where
  eventId : String
  correlationId : String
  actor : String
  action : String
  resource : String
  payload : List (String × Json)

def lifecycleSchemaVersion : Int := 1

/-- `^[A-Za-z0-9][A-Za-z0-9._:/@-]{0,191}$` matched in full. -/
def isIdentifier (s : String) : Bool :=
  match s.toList with
  | [] => false
  | c :: cs => c.isAlphanum && cs.length ≤ 191 &&
      cs.all (fun d => d.isAlphanum || "._:/@-".toList.contains d)

/-- `^sha256:[a-f0-9]{64}$` matched in full. -/
def isPlanHash (s : String) : Bool :=
  s.toList.take 7 = "sha256:".toList && s.toList.length = 71 &&
    (s.toList.drop 7).all (fun c => c.isDigit || ('a' ≤ c && c ≤ 'f'))

/-- The transition table; `none` is a workflow that does not exist yet. -/
def allowedTransitions : Option WorkflowStatus → List WorkflowStatus
  | none => [.received]
  | some .received => [.diagnosing, .planned, .failed, .escalated, .cancelled]
  | some .diagnosing => [.planned, .failed, .escalated, .cancelled]
  | some .planned => [.waitingApproval, .executing, .succeeded, .failed, .escalated, .cancelled]
  | some .waitingApproval => [.executing, .failed, .escalated, .cancelled]
  | some .executing => [.verifying, .rolledBack, .failed, .escalated, .cancelled]
  | some .verifying => [.succeeded, .rolledBack, .failed, .escalated]
  | some .succeeded => []
  | some .rolledBack => []
  | some .escalated => []
  | some .failed => []
  | some .cancelled => []

/-- No transition leaves a terminal status. -/
def WorkflowStatus.terminal (s : WorkflowStatus) : Bool := (allowedTransitions (some s)).isEmpty

/-- The event shape of the state/audit bridge. `attributes` is `none` for a
mapping that `json.dumps` refuses. -/
structure WorkflowLifecycleEvent where
  eventId : String
  idempotencyKey : String
  workflowId : String
  tenantId : String
  serviceId : String
  environment : String
  kind : String
  correlationId : String
  actor : String
  action : String
  fromStatus : Option WorkflowStatus
  toStatus : WorkflowStatus
  expectedVersion : Option Int
  planHash : Option String := none
  causationId : Option String := none
  consequential : Bool := false
  attributes : Option (List (String × Json)) := some []
  occurredAt : String
  schemaVersion : Int := lifecycleSchemaVersion

namespace WorkflowLifecycleEvent

/-- The fields that must be bounded opaque identifiers, in the order they are checked. -/
def identifiers (e : WorkflowLifecycleEvent) : List (String × String) :=
  [("event_id", e.eventId), ("idempotency_key", e.idempotencyKey), ("workflow_id", e.workflowId),
    ("tenant_id", e.tenantId), ("service_id", e.serviceId), ("environment", e.environment),
    ("kind", e.kind), ("correlation_id", e.correlationId), ("actor", e.actor),
    ("action", e.action)]

def identity (e : WorkflowLifecycleEvent) : List (String × String) :=
  [("tenant_id", e.tenantId), ("service_id", e.serviceId), ("environment", e.environment),
    ("kind", e.kind), ("correlation_id", e.correlationId)]

/-- The checks of `validate`, each with the message it raises. -/
def checks (e : WorkflowLifecycleEvent) : List (Bool × String) :=
  e.identifiers.map (fun p => (isIdentifier p.2, p.1 ++ " must be a bounded opaque identifier")) ++
  [(e.causationId.all isIdentifier, "causation_id must be a bounded opaque identifier when set"),
    (e.schemaVersion = lifecycleSchemaVersion, "unsupported workflow lifecycle schema version"),
    (e.planHash.all isPlanHash, "plan_hash must be a sha256 digest when set"),
    (e.expectedVersion.all (1 ≤ ·), "expected_version must be a positive integer when set"),
    (e.fromStatus.isSome || (e.expectedVersion.isNone && e.toStatus = .received),
      "a new workflow must transition to received without an expected version"),
    (e.fromStatus.isNone || e.expectedVersion.isSome,
      "an existing workflow transition requires an expected version"),
    ((allowedTransitions e.fromStatus).contains e.toStatus,
      "workflow transition " ++ (e.fromStatus.map WorkflowStatus.value).getD "none" ++ " -> " ++
        e.toStatus.value ++ " is not allowed"),
    ((fromisoformat e.occurredAt).isSome, "occurred_at must be an ISO-8601 timestamp"),
    ((fromisoformat e.occurredAt).any (·.utcoffset.isSome),
      "occurred_at must include an explicit timezone"),
    (e.attributes.isSome, "attributes must be canonical JSON data")]

/-- `validate`: the first failing check, as the `LifecycleContractError` it raises. -/
def validate (e : WorkflowLifecycleEvent) : Option String :=
  (e.checks.find? (fun c => !c.1)).map Prod.snd

def canonicalPayload (e : WorkflowLifecycleEvent) : List (String × Json) :=
  [("schema_version", .int e.schemaVersion), ("event_id", .str e.eventId),
    ("idempotency_key", .str e.idempotencyKey), ("workflow_id", .str e.workflowId),
    ("tenant_id", .str e.tenantId), ("service_id", .str e.serviceId),
    ("environment", .str e.environment), ("kind", .str e.kind),
    ("correlation_id", .str e.correlationId), ("causation_id", Json.optStr e.causationId),
    ("actor", .str e.actor), ("action", .str e.action),
    ("from_status", Json.optStr (e.fromStatus.map WorkflowStatus.value)),
    ("to_status", .str e.toStatus.value), ("expected_version", Json.optInt e.expectedVersion),
    ("plan_hash", Json.optStr e.planHash), ("consequential", .bool e.consequential),
    ("attributes", .obj (e.attributes.getD [])), ("occurred_at", .str e.occurredAt)]

/-- The digest a receipt remembers an event by; `sha256` is the hex digest of a text. -/
def fingerprint (sha256 : String → String) (e : WorkflowLifecycleEvent) : String :=
  "sha256:" ++ sha256 (Json.obj e.canonicalPayload).dumps

/-- The first field of a workflow's identity that an event would change. -/
def identityChange (e : WorkflowLifecycleEvent) (current : WorkflowRecord) : Option String :=
  ((current.identity.zip e.identity).find? (fun p => p.1.2 ≠ p.2.2)).map (fun p => p.1.1)

/-- `apply_to`: the record an event creates or advances to. -/
def applyTo (e : WorkflowLifecycleEvent) (current : Option WorkflowRecord) :
    Except String WorkflowRecord :=
  match e.validate, current with
  | some m, _ => .error m
  | none, none =>
    if e.fromStatus.isSome then .error "workflow does not exist for a non-creation transition"
    else .ok ⟨e.workflowId, e.serviceId, e.environment, e.kind, e.toStatus, e.correlationId,
      e.planHash, 1, e.occurredAt, e.tenantId⟩
  | none, some r =>
    match e.fromStatus with
    | none => .error "workflow already exists"
    | some expected =>
      if r.status ≠ expected then
        .error ("workflow status is " ++ r.status.value ++ ", expected " ++ expected.value)
      else
        match e.identityChange r with
        | some label => .error (label ++ " cannot change during a workflow lifecycle")
        | none => .ok { r with
            status := e.toStatus, planHash := e.planHash.orElse (fun _ => r.planHash),
            updatedAt := e.occurredAt }

end WorkflowLifecycleEvent

structure WorkflowTransitionResult where
  record : WorkflowRecord
  eventId : String
  idempotencyKey : String
  replayed : Bool := false
  deriving DecidableEq, Repr

end EngineeringIntelligence.State
