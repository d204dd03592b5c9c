import EngineeringIntelligence.Framework.PyJson
import EngineeringIntelligence.Framework.Run

namespace EngineeringIntelligence.State

open EngineeringIntelligence.Framework

/-! `SqliteAuditLog`: the hash-chained audit table. -/

/-- An audit event as a caller hands it over. The hashes it may carry are replaced by the
log. -/
structure NewAuditEvent where
  eventId : String
  correlationId : String
  actor : String
  action : String
  resource : String
  payload : PyValue
  occurredAt : String

namespace NewAuditEvent

/-- `asdict` of the event with the given hashes. -/
def asdict (e : NewAuditEvent) (previousHash eventHash : Option String) : PyValue :=
  let hash (h : Option String) : PyValue := (h.map .str).getD .none
  .dict [(.str "event_id", .str e.eventId), (.str "correlation_id", .str e.correlationId),
    (.str "actor", .str e.actor), (.str "action", .str e.action),
    (.str "resource", .str e.resource), (.str "payload", e.payload),
    (.str "occurred_at", .str e.occurredAt), (.str "previous_hash", hash previousHash),
    (.str "event_hash", hash eventHash)]

/-- `_canonical` of the event linked to its predecessor. -/
def canonical (e : NewAuditEvent) (previousHash : Option String) : Option String :=
  (e.asdict previousHash none).dumps .hashing

/-- `_event_identity`. -/
def identity (e : NewAuditEvent) : Option String := (e.asdict none none).dumps .comparing

end NewAuditEvent

/-- An `AuditEvent` built from a stored payload; nothing checks the types of its fields. -/
structure StoredAuditEvent where
  eventId : Json
  correlationId : Json
  actor : Json
  action : Json
  resource : Json
  payload : Json
  occurredAt : Json
  previousHash : Json
  eventHash : Json

namespace StoredAuditEvent

def fields (e : StoredAuditEvent) : List (String × Json) :=
  [("event_id", e.eventId), ("correlation_id", e.correlationId), ("actor", e.actor),
    ("action", e.action), ("resource", e.resource), ("payload", e.payload),
    ("occurred_at", e.occurredAt), ("previous_hash", e.previousHash), ("event_hash", e.eventHash)]

/-- `_canonical`. -/
def canonical (e : StoredAuditEvent) : String := (Json.obj { e with eventHash := .null }.fields).dumps

/-- `_event_identity`. -/
def identity (e : StoredAuditEvent) : String :=
  (Json.obj { e with previousHash := .null, eventHash := .null }.fields).dumps

def required : List String :=
  ["event_id", "correlation_id", "actor", "action", "resource", "payload"]

def optional : List String := ["occurred_at", "previous_hash", "event_hash"]

/-- `AuditEvent(**raw)`, at a moment whose `isoformat` is `now`: an unknown or a missing
argument raises `TypeError`, as does data that is not a mapping. -/
def restore (now : String) : Json → Option StoredAuditEvent
  | .obj raw =>
    if raw.all (fun f => (required ++ optional).contains f.1) &&
        required.all (fun k => (raw.lookup k).isSome) then
      some
        { eventId := Json.get raw "event_id", correlationId := Json.get raw "correlation_id"
          actor := Json.get raw "actor", action := Json.get raw "action"
          resource := Json.get raw "resource", payload := Json.get raw "payload"
          occurredAt := (raw.lookup "occurred_at").getD (.str now)
          previousHash := Json.get raw "previous_hash", eventHash := Json.get raw "event_hash" }
    else none
  | _ => none

end StoredAuditEvent

/-- A row of `audit_events`. The payload is kept as `json.loads` reads it, nothing where it
does not read it. -/
structure AuditRow where
  eventId : String
  payload : Option Json
  eventHash : String
  printed : ∀ j ∈ payload, j.Printed

namespace AuditRow

/-- The row an event is stored as. -/
def store (eventId : String) (event : PyValue) (eventHash : String) : Option AuditRow :=
  match h : event.document .storing with
  | none => none
  | some j => some ⟨eventId, some j, eventHash, fun _ hj =>
      Option.some.inj hj ▸ PyValue.printed_document event j h⟩

def restored (row : AuditRow) (now : String) : Option StoredAuditEvent :=
  row.payload.bind (StoredAuditEvent.restore now)

end AuditRow

/-- The table in the order of its sequence. -/
abbrev AuditTable := List AuditRow

/-- `last_hash`. -/
def lastHash (t : AuditTable) : Option String := t.getLast?.map (·.eventHash)

section
variable (sha256 : String → String)

/-- `value == previous` for a hash that may be missing. -/
def isHash (previous : Option String) : Json → Bool
  | .null => previous.isNone
  | .str s => previous = some s
  | _ => false

/-- The loop of `verify_chain`; `clock` tells the time at each row. -/
def verifyFrom (clock : Nat → String) (previous : Option String) (i : Nat) : AuditTable → Bool
  | [] => true
  | row :: rest =>
    match row.restored (clock i) with
    | none => false
    | some event =>
      isHash previous event.previousHash && (sha256 event.canonical = row.eventHash) &&
        verifyFrom clock (some row.eventHash) (i + 1) rest

/-- `verify_chain`. -/
def verifyChain (clock : Nat → String) (t : AuditTable) : Bool := verifyFrom sha256 clock none 0 t

/-- What `append` may raise. -/
inductive AuditError where
  | unserialisable
  | corrupt
  | conflict (message : String)
  deriving DecidableEq, Repr

/-- What `append` returns: the event as it was finalized, or the stored one. -/
inductive AppendedEvent where
  | finalized (event : NewAuditEvent) (previousHash : Option String) (eventHash : String)
  | replayed (event : StoredAuditEvent)

def auditConflict : AuditError :=
  .conflict "audit event id has already been used for different content"

/-- `append`, in one write transaction. -/
def auditAppend (t : AuditTable) (e : NewAuditEvent) (now : String) :
    AuditTable × Except AuditError AppendedEvent :=
  let previous := lastHash t
  match e.canonical previous with
  | none => (t, .error .unserialisable)
  | some text =>
    match AuditRow.store e.eventId (e.asdict previous (some (sha256 text))) (sha256 text) with
    | none => (t, .error .unserialisable)
    | some row =>
      match t.find? (fun r => r.eventId = e.eventId) with
      | none => (t ++ [row], .ok (.finalized e previous (sha256 text)))
      | some existing =>
        match existing.restored now with
        | none => (t, .error .corrupt)
        | some stored =>
          match e.identity with
          | none => (t, .error .unserialisable)
          | some identity =>
            if stored.identity ≠ identity then (t, .error auditConflict)
            else (t, .ok (.replayed stored))

end

end EngineeringIntelligence.State
