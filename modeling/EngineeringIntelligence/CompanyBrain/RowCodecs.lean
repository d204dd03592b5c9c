import EngineeringIntelligence.CompanyBrain.Memory
import EngineeringIntelligence.Framework.Fields
import EngineeringIntelligence.Framework.JsonReader
import EngineeringIntelligence.Framework.UtcInstant

namespace EngineeringIntelligence.CompanyBrain.Rows

open EngineeringIntelligence.Framework

/-! The rows of the SQLite store and of the projection journal: how a record is written to its columns
and read back. A timestamp has its own zone here. -/

inductive RowError where
  /-- `PayloadValidationError` -/
  | payload (message : String)
  /-- what a constructor of the model raises -/
  | brain (error : BrainError)
  /-- `ValueError` of an enumeration -/
  | unknownKind (text : String)
  /-- `ValueError` of `fromisoformat` -/
  | isoformat (text : String)
  /-- what `json.loads` raises and no codec catches -/
  | loads (error : Json.LoadsError)
  /-- `OverflowError` -/
  | overflow
  deriving DecidableEq

/-! ### Timestamps -/

/-- `value.astimezone(timezone.utc)` of an aware value. -/
def astimezone (value : PyDateTime) (naive : RowError) : Except RowError UtcTime :=
  if value.utcoffset.isNone then .error naive
  else
    match UtcTime.ofInstant value.instant with
    | some t => .ok t
    | none => .error .overflow

/-- A time in UTC, as the `datetime` it is. -/
def asDateTime (t : UtcTime) : PyDateTime := ⟨ordinal t.year t.month t.day, t.clockMicros, some 0⟩

/-- `_timestamp`. -/
def timestamp (value : PyDateTime) (label : String) : Except RowError UtcTime :=
  astimezone value (.brain (.store (label ++ " must include a timezone")))

/-- `_timestamp_text`. -/
def timestampText (value : PyDateTime) : Except RowError String := do
  let t ← timestamp value "timestamp"
  return t.isoformat

/-- `_parse_timestamp`. -/
def parseStored (text : String) : Except RowError PyDateTime :=
  match fromisoformat text with
  | none => .error (.isoformat text)
  | some parsed => do
    let t ← timestamp parsed "stored timestamp"
    return asDateTime t

/-- `parse_timestamp`. -/
def parseTimestamp (value : Json) (label : String) : Except RowError PyDateTime :=
  match value with
  | .str text =>
    match fromisoformat text with
    | none => .error (.payload (label ++ " must be an ISO timestamp string"))
    | some parsed => do
      let t ← astimezone parsed (.payload (label ++ " must include a timezone"))
      return asDateTime t
  | _ => .error (.payload (label ++ " must be an ISO timestamp string"))

/-- A timestamp that may be missing, through a step that may fail. -/
def optionally {α β : Type} (f : α → Except RowError β) : Option α → Except RowError (Option β)
  | none => .ok none
  | some a => do
    let b ← f a
    return some b

/-! ### Records with their timestamps -/

/-- Raise the problem of some constructor. -/
def refuse (error : String → BrainError) (problem : Option String) : Except RowError Unit :=
  match problem with
  | none => .ok ()
  | some message => .error (.brain (error message))

/-- `BrainProvenance.__post_init__`. -/
def provenanceCheck (sourceSystem sourceRecordId sourceRevision projectionPolicyVersion : String)
    (observedAt : PyDateTime) (eventId : Option String) : Except RowError Unit := do
  refuse .store (invalid (required 100 sourceSystem) "provenance source_system")
  refuse .store (invalid (required 500 sourceRecordId) "provenance source_record_id")
  refuse .store (invalid (required 200 sourceRevision) "provenance source_revision")
  refuse .store (invalid (required 200 projectionPolicyVersion) "provenance projection_policy_version")
  let _ ← timestamp observedAt "provenance observed_at"
  refuse .store (invalid (eventId.all (required 200)) "provenance event_id")

structure DatedProvenance where
  sourceSystem : String
  sourceRecordId : String
  sourceRevision : String
  projectionPolicyVersion : String
  observedAt : PyDateTime
  eventId : Option String
  valid : provenanceCheck sourceSystem sourceRecordId sourceRevision projectionPolicyVersion observedAt
    eventId = .ok ()

def DatedProvenance.make (sourceSystem sourceRecordId sourceRevision projectionPolicyVersion : String)
    (observedAt : PyDateTime) (eventId : Option String) : Except RowError DatedProvenance :=
  match h : provenanceCheck sourceSystem sourceRecordId sourceRevision projectionPolicyVersion observedAt
      eventId with
  | .error x => .error x
  | .ok () => .ok ⟨sourceSystem, sourceRecordId, sourceRevision, projectionPolicyVersion, observedAt, eventId, h⟩

/-- `RetentionPolicy.__post_init__`. -/
def retentionCheck (retainUntil : Option PyDateTime) : Except RowError Unit := do
  let _ ← optionally (timestamp · "retain_until") retainUntil
  return ()

structure DatedRetention where
  retainUntil : Option PyDateTime
  legalHold : Bool
  valid : retentionCheck retainUntil = .ok ()

def DatedRetention.make (retainUntil : Option PyDateTime) (legalHold : Bool) : Except RowError DatedRetention :=
  match h : retentionCheck retainUntil with
  | .error x => .error x
  | .ok () => .ok ⟨retainUntil, legalHold, h⟩

/-- `__post_init__` of the three stored records. -/
def storedCheck (tenantId : String) (version : Int) (createdAt updatedAt : PyDateTime)
    (deletedAt : Option PyDateTime) (deletionReason : Option String) : Except RowError Unit := do
  refuse .store (invalid (required 200 tenantId) "tenant_id")
  refuse .store (if version < 1 then some "record version must be positive" else none)
  let _ ← timestamp createdAt "created_at"
  let _ ← timestamp updatedAt "updated_at"
  match deletedAt with
  | some t =>
    let _ ← timestamp t "deleted_at"
    refuse .store (invalid (required 500 (deletionReason.getD "")) "deletion_reason")
  | none =>
    refuse .store (if deletionReason.isSome then some "deletion_reason requires deleted_at" else none)

/-- `StoredEntity`, `StoredEvidence` and `StoredRelationship`. -/
structure DatedRecord (α : Type) where
  tenantId : String
  record : α
  version : Int
  provenance : DatedProvenance
  retention : DatedRetention
  createdAt : PyDateTime
  updatedAt : PyDateTime
  deletedAt : Option PyDateTime
  deletionReason : Option String
  valid : storedCheck tenantId version createdAt updatedAt deletedAt deletionReason = .ok ()

def DatedRecord.make {α : Type} (tenantId : String) (record : α) (version : Int) (provenance : DatedProvenance)
    (retention : DatedRetention) (createdAt updatedAt : PyDateTime) (deletedAt : Option PyDateTime)
    (deletionReason : Option String) : Except RowError (DatedRecord α) :=
  match h : storedCheck tenantId version createdAt updatedAt deletedAt deletionReason with
  | .error x => .error x
  | .ok () => .ok ⟨tenantId, record, version, provenance, retention, createdAt, updatedAt, deletedAt,
      deletionReason, h⟩

/-- `BrainSourceProjection.__post_init__`; the zone of `updated_at` is asked for, its time in UTC is not. -/
def projectionCheck (tenantId sourceKey sourceKind fingerprint : String)
    (entityIds ownedEntityIds evidenceIds : List String) (relationships : List BrainRelationship)
    (updatedAt : PyDateTime) : Except RowError Unit := do
  refuse .memory (invalid (required 200 tenantId) "tenant_id")
  refuse .memory (invalid (required 500 sourceKey) "source_key")
  refuse .memory (invalid (required 100 sourceKind) "source_kind")
  refuse .memory (invalid (required 500 fingerprint) "fingerprint")
  refuse .memory (if updatedAt.utcoffset.isNone then some "projection updated_at must include a timezone" else none)
  refuse .memory (identifiersProblem entityIds "entity_ids")
  refuse .memory (identifiersProblem ownedEntityIds "owned_entity_ids")
  refuse .memory (identifiersProblem evidenceIds "evidence_ids")
  refuse .memory (if ∃ o ∈ ownedEntityIds, o ∉ entityIds then some "owned entities must be included in entity_ids"
    else none)
  refuse .memory (if relationships.map (·.key.order) ≠ sortedSet (relationships.map (·.key.order)) then
    some "relationships must be sorted and unique" else none)

structure DatedProjection where
  tenantId : String
  sourceKey : String
  sourceKind : String
  state : ProjectionState
  fingerprint : String
  provenance : DatedProvenance
  entityIds : List String
  ownedEntityIds : List String
  evidenceIds : List String
  relationships : List BrainRelationship
  updatedAt : PyDateTime
  valid : projectionCheck tenantId sourceKey sourceKind fingerprint entityIds ownedEntityIds evidenceIds
    relationships updatedAt = .ok ()

def DatedProjection.make (tenantId sourceKey sourceKind : String) (state : ProjectionState) (fingerprint : String)
    (provenance : DatedProvenance) (entityIds ownedEntityIds evidenceIds : List String)
    (relationships : List BrainRelationship) (updatedAt : PyDateTime) : Except RowError DatedProjection :=
  match h : projectionCheck tenantId sourceKey sourceKind fingerprint entityIds ownedEntityIds evidenceIds
      relationships updatedAt with
  | .error x => .error x
  | .ok () => .ok ⟨tenantId, sourceKey, sourceKind, state, fingerprint, provenance, entityIds, ownedEntityIds,
      evidenceIds, relationships, updatedAt, h⟩

/-! ### Payload helpers -/

abbrev Payload := List (String × Json)

section
variable (floatRepr : String → String)

def payloadFromJson (serialized label : String) : Except RowError Payload :=
  match Json.loads floatRepr serialized with
  | .error .decode => .error (.payload (label ++ " is not valid JSON"))
  | .error x => .error (.loads x)
  | .ok (.obj fields) => .ok fields
  | .ok _ => .error (.payload (label ++ " must be a JSON object"))

end

def payloadFromValue (value : Json) (label : String) : Except RowError Payload :=
  match value with
  | .obj fields => .ok fields
  | _ => .error (.payload (label ++ " must be an object"))

def fieldError (label field problem : String) : RowError := .payload (label ++ "." ++ field ++ problem)

def requiredText (payload : Payload) (field label : String) : Except RowError String :=
  match Json.get payload field with
  | .str text =>
    if text = "" then .error (fieldError label field " must be a non-empty string") else .ok text
  | _ => .error (fieldError label field " must be a non-empty string")

def optionalText (payload : Payload) (field label : String) : Except RowError (Option String) :=
  match Json.get payload field with
  | .null => .ok none
  | .str text => .ok (some text)
  | _ => .error (fieldError label field " must be a string when supplied")

/-- One item of `text_sequence`. -/
def textItem (label field : String) : Json → Except RowError String
  | .str text => .ok text
  | _ => .error (fieldError label field " must be a list of strings")

/-- `text_sequence`, whose default is empty in every call here. -/
def textSequence (payload : Payload) (field label : String) : Except RowError (List String) :=
  match Json.get payload field with
  | .null => .ok []
  | .arr items => items.mapM (textItem label field)
  | _ => .error (fieldError label field " must be a list of strings")

def requiredTextSequence (payload : Payload) (field label : String) : Except RowError (List String) :=
  if (payload.lookup field).isNone then .error (fieldError label field " is required")
  else textSequence payload field label

def requiredObjectSequence (payload : Payload) (field label : String) : Except RowError (List Json) :=
  match Json.get payload field with
  | .arr items => .ok items
  | _ => .error (fieldError label field " must be a list")

/-- One item of `text_pairs`. -/
def pairItem (label field : String) : Json → Except RowError (String × String)
  | .arr [.str key, .str value] => .ok (key, value)
  | _ => .error (fieldError label field " must contain two-string pairs")

def textPairs (payload : Payload) (field label : String) : Except RowError (List (String × String)) :=
  match (payload.lookup field).getD (.arr []) with
  | .arr items => items.mapM (pairItem label field)
  | _ => .error (fieldError label field " must be a list")

/-- An enumeration called on a value. -/
def memberOf {κ : Type} (members : List κ) (value : κ → String) (text : String) : Except RowError κ :=
  match members.find? (value · = text) with
  | some member => .ok member
  | none => .error (.unknownKind text)

def entityKinds : List EntityKind :=
  [.repository, .service, .team, .owner, .adr, .change, .deployment, .incident, .runbook, .workItem, .document,
    .conversation, .finding, .outcome, .evidence]

def relationshipKinds : List RelationshipKind :=
  [.owns, .dependsOn, .changedBy, .caused, .resolvedBy, .governedBy, .belongsTo, .hasEvidence, .assessedBy,
    .hasOutcome]

def stateValue : ProjectionState → String
  | .active => "active"
  | .deleted => "deleted"

/-- A constructor of the model, with what it raises. -/
def constructed {α : Type} : Except BrainError α → Except RowError α
  | .ok a => .ok a
  | .error x => .error (.brain x)

/-! ### Payloads -/

def entityPayload (entity : BrainEntity) : Payload :=
  [("entity_id", .str entity.entityId), ("kind", .str entity.kind.value), ("label", .str entity.label),
    ("attributes", .arr (entity.attributes.map fun a => .arr [.str a.1, .str a.2]))]

def entityFromPayload (payload : Payload) : Except RowError BrainEntity := do
  let entityId ← requiredText payload "entity_id" "entity"
  let kindText ← requiredText payload "kind" "entity"
  let kind ← memberOf entityKinds EntityKind.value kindText
  let label ← requiredText payload "label" "entity"
  let attributes ← textPairs payload "attributes" "entity"
  constructed (BrainEntity.make entityId kind label attributes)

def evidencePayload (evidence : BrainEvidence) : Payload :=
  [("evidence_id", .str evidence.evidenceId), ("source_kind", .str evidence.sourceKind),
    ("citation", .str evidence.citation), ("revision", .str evidence.revision),
    ("acl_groups", .arr (evidence.aclGroups.map .str)), ("acl_users", .arr (evidence.aclUsers.map .str))]

def evidenceFromPayload (payload : Payload) : Except RowError BrainEvidence := do
  let evidenceId ← requiredText payload "evidence_id" "evidence"
  let sourceKind ← requiredText payload "source_kind" "evidence"
  let citation ← requiredText payload "citation" "evidence"
  let revision ← requiredText payload "revision" "evidence"
  let aclGroups ← textSequence payload "acl_groups" "evidence"
  let aclUsers ← textSequence payload "acl_users" "evidence"
  constructed (BrainEvidence.make evidenceId sourceKind citation revision aclGroups aclUsers)

def relationshipPayload (relationship : BrainRelationship) : Payload :=
  [("source_id", .str relationship.sourceId), ("target_id", .str relationship.targetId),
    ("kind", .str relationship.kind.value), ("evidence_ids", .arr (relationship.evidenceIds.map .str))]

def relationshipFromPayload (payload : Payload) : Except RowError BrainRelationship := do
  let sourceId ← requiredText payload "source_id" "relationship"
  let targetId ← requiredText payload "target_id" "relationship"
  let kindText ← requiredText payload "kind" "relationship"
  let kind ← memberOf relationshipKinds RelationshipKind.value kindText
  let evidenceIds ← textSequence payload "evidence_ids" "relationship"
  constructed (BrainRelationship.make sourceId targetId kind evidenceIds)

def provenancePayload (provenance : DatedProvenance) : Except RowError Payload := do
  let observedAt ← astimezone provenance.observedAt (.payload "provenance observed_at must include a timezone")
  return [("source_system", .str provenance.sourceSystem), ("source_record_id", .str provenance.sourceRecordId),
    ("source_revision", .str provenance.sourceRevision),
    ("projection_policy_version", .str provenance.projectionPolicyVersion),
    ("observed_at", .str observedAt.isoformat), ("event_id", .optStr provenance.eventId)]

/-- `optional_text(...) or "legacy-unversioned"`. -/
def policyVersionOr (version : Option String) : String :=
  match version with
  | none => "legacy-unversioned"
  | some text => if text = "" then "legacy-unversioned" else text

def provenanceFromPayload (payload : Payload) : Except RowError DatedProvenance := do
  let sourceSystem ← requiredText payload "source_system" "provenance"
  let sourceRecordId ← requiredText payload "source_record_id" "provenance"
  let sourceRevision ← requiredText payload "source_revision" "provenance"
  let version ← optionalText payload "projection_policy_version" "provenance"
  let observedAt ← parseTimestamp (Json.get payload "observed_at") "provenance.observed_at"
  let eventId ← optionalText payload "event_id" "provenance"
  DatedProvenance.make sourceSystem sourceRecordId sourceRevision (policyVersionOr version) observedAt eventId

def projectionPayload (p : DatedProjection) : Payload :=
  [("entity_ids", .arr (p.entityIds.map .str)), ("owned_entity_ids", .arr (p.ownedEntityIds.map .str)),
    ("evidence_ids", .arr (p.evidenceIds.map .str)),
    ("relationships", .arr (p.relationships.map fun r => .obj (relationshipPayload r)))]

/-- One item of `relationships`. -/
def relationshipItem (value : Json) : Except RowError BrainRelationship := do
  let payload ← payloadFromValue value "source projection.relationships"
  relationshipFromPayload payload

/-! ### Rows -/

/-- The columns of the three tables of records, with the key columns of each. -/
structure RecordRow (κ : Type) where
  tenantId : String
  key : κ
  payload : String
  version : Int
  provenance : String
  retainUntil : Option String
  legalHold : Int
  createdAt : String
  updatedAt : String
  deletedAt : Option String
  deletionReason : Option String

/-- An integer as SQLite takes it. -/
def bindInteger (n : Int) : Except RowError Int :=
  if -2 ^ 63 ≤ n ∧ n < 2 ^ 63 then .ok n else .error .overflow

def provenanceText (provenance : DatedProvenance) : Except RowError String := do
  let payload ← provenancePayload provenance
  return Json.dumpsSpaced (.obj payload)

/-- `int(record.retention.legal_hold)`. -/
def holdColumn (legalHold : Bool) : Int := if legalHold then 1 else 0

section
variable {α κ : Type}

def recordValues (key : α → κ) (payload : α → Payload) (r : DatedRecord α) : Except RowError (RecordRow κ) := do
  let provenance ← provenanceText r.provenance
  let retainUntil ← optionally timestampText r.retention.retainUntil
  let createdAt ← timestampText r.createdAt
  let updatedAt ← timestampText r.updatedAt
  let deletedAt ← optionally timestampText r.deletedAt
  let version ← bindInteger r.version
  return ⟨r.tenantId, key r.record, Json.dumpsSpaced (.obj (payload r.record)), version, provenance, retainUntil,
    holdColumn r.retention.legalHold, createdAt, updatedAt, deletedAt, r.deletionReason⟩

/-- `_parse_timestamp(row[...]) if row[...] else None`. -/
def parseColumn (column : Option String) : Except RowError (Option PyDateTime) :=
  optionally parseStored (column.filter (· ≠ ""))

variable (floatRepr : String → String)

def provenanceFromText (text label : String) : Except RowError DatedProvenance := do
  let payload ← payloadFromJson floatRepr text label
  provenanceFromPayload payload

def retentionFromRow (retainUntil : Option String) (legalHold : Int) : Except RowError DatedRetention := do
  let keptUntil ← parseColumn retainUntil
  DatedRetention.make keptUntil (legalHold ≠ 0)

def recordFromRow (fromPayload : Payload → Except RowError α) (label : String) (row : RecordRow κ) :
    Except RowError (DatedRecord α) := do
  let payload ← payloadFromJson floatRepr row.payload label
  let record ← fromPayload payload
  let provenance ← provenanceFromText floatRepr row.provenance (label ++ " provenance")
  let retention ← retentionFromRow row.retainUntil row.legalHold
  let createdAt ← parseStored row.createdAt
  let updatedAt ← parseStored row.updatedAt
  let deletedAt ← parseColumn row.deletedAt
  DatedRecord.make row.tenantId record row.version provenance retention createdAt updatedAt deletedAt
    row.deletionReason

end

def entityValues : DatedRecord BrainEntity → Except RowError (RecordRow String) :=
  recordValues BrainEntity.entityId entityPayload

def evidenceValues : DatedRecord BrainEvidence → Except RowError (RecordRow String) :=
  recordValues BrainEvidence.evidenceId evidencePayload

/-- The columns `source_id`, `target_id` and `relationship_kind`. -/
def relationshipColumns (r : BrainRelationship) : String × String × String := (r.sourceId, r.targetId, r.kind.value)

def relationshipValues : DatedRecord BrainRelationship → Except RowError (RecordRow (String × String × String)) :=
  recordValues relationshipColumns relationshipPayload

/-- A row of `company_brain_source_projections`. -/
structure ProjectionRow where
  tenantId : String
  sourceKey : String
  sourceKind : String
  state : String
  fingerprint : String
  provenance : String
  payload : String
  updatedAt : String

/-- `put`, the row it writes. -/
def projectionValues (p : DatedProjection) : Except RowError ProjectionRow := do
  let provenance ← provenanceText p.provenance
  let updatedAt ← astimezone p.updatedAt (.brain (.memory "projection updated_at must include a timezone"))
  return ⟨p.tenantId, p.sourceKey, p.sourceKind, stateValue p.state, p.fingerprint, provenance,
    Json.dumpsSpaced (.obj (projectionPayload p)), updatedAt.isoformat⟩

section
variable (floatRepr : String → String)

def entityFromRow : RecordRow String → Except RowError (DatedRecord BrainEntity) :=
  recordFromRow floatRepr entityFromPayload "stored entity"

def evidenceFromRow : RecordRow String → Except RowError (DatedRecord BrainEvidence) :=
  recordFromRow floatRepr evidenceFromPayload "stored evidence"

def relationshipFromRow : RecordRow (String × String × String) → Except RowError (DatedRecord BrainRelationship) :=
  recordFromRow floatRepr relationshipFromPayload "stored relationship"

/-- `_from_row` of the journal. -/
def projectionFromRow (row : ProjectionRow) : Except RowError DatedProjection := do
  let raw ← payloadFromJson floatRepr row.payload "source projection"
  let state ← memberOf [ProjectionState.active, .deleted] stateValue row.state
  let provenance ← provenanceFromText floatRepr row.provenance "source projection provenance"
  let entityIds ← requiredTextSequence raw "entity_ids" "source projection"
  let ownedEntityIds ← requiredTextSequence raw "owned_entity_ids" "source projection"
  let evidenceIds ← requiredTextSequence raw "evidence_ids" "source projection"
  let items ← requiredObjectSequence raw "relationships" "source projection"
  let relationships ← items.mapM relationshipItem
  let updatedAt ← parseTimestamp (.str row.updatedAt) "source projection.updated_at"
  DatedProjection.make row.tenantId row.sourceKey row.sourceKind state row.fingerprint provenance entityIds
    ownedEntityIds evidenceIds relationships updatedAt

end

end EngineeringIntelligence.CompanyBrain.Rows
