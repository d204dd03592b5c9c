import EngineeringIntelligence.CompanyBrain.Model
import EngineeringIntelligence.Framework.Effect
import EngineeringIntelligence.Framework.Timestamp
import EngineeringIntelligence.State.Store

namespace EngineeringIntelligence.CompanyBrain

open EngineeringIntelligence.Framework

/-! The SQLite store of the company brain. Points in time are instants in microseconds. -/

def provenanceProblem (sourceSystem sourceRecordId sourceRevision projectionPolicyVersion : String)
    (eventId : Option String) : Option String :=
  (invalid (required 100 sourceSystem) "provenance source_system").or
    ((invalid (required 500 sourceRecordId) "provenance source_record_id").or
      ((invalid (required 200 sourceRevision) "provenance source_revision").or
        ((invalid (required 200 projectionPolicyVersion) "provenance projection_policy_version").or
          (invalid (eventId.all (required 200)) "provenance event_id"))))

/-- The source and the projection policy that created a record. -/
structure BrainProvenance where
  sourceSystem : String
  sourceRecordId : String
  sourceRevision : String
  projectionPolicyVersion : String
  observedAt : Int
  eventId : Option String
  valid : provenanceProblem sourceSystem sourceRecordId sourceRevision projectionPolicyVersion
    eventId = none
  deriving DecidableEq

def BrainProvenance.make (sourceSystem sourceRecordId sourceRevision projectionPolicyVersion : String)
    (observedAt : Int) (eventId : Option String) : Except BrainError BrainProvenance :=
  match h : provenanceProblem sourceSystem sourceRecordId sourceRevision projectionPolicyVersion
      eventId with
  | some message => .error (.store message)
  | none => .ok ⟨sourceSystem, sourceRecordId, sourceRevision, projectionPolicyVersion, observedAt,
      eventId, h⟩

structure RetentionPolicy where
  retainUntil : Option Int
  legalHold : Bool
  deriving DecidableEq, Repr

def defaultRetentionPolicy : RetentionPolicy := ⟨none, false⟩

/-- `StoredEntity`, `StoredEvidence` and `StoredRelationship`: a record and its lifecycle. The
payload and provenance columns, which hold JSON text, are kept decoded. -/
structure Stored (α : Type) where
  tenantId : String
  record : α
  version : Int
  provenance : BrainProvenance
  retention : RetentionPolicy
  createdAt : Int
  updatedAt : Int
  deletedAt : Option Int
  deletionReason : Option String
  deriving DecidableEq

def Stored.isActive {α : Type} (r : Stored α) : Bool := r.deletedAt.isNone

abbrev StoredEntity := Stored BrainEntity
abbrev StoredEvidence := Stored BrainEvidence
abbrev StoredRelationship := Stored BrainRelationship

/-- The primary keys of the three tables. -/
def StoredEntity.rowKey (r : StoredEntity) : String × String := (r.tenantId, r.record.entityId)
def StoredEvidence.rowKey (r : StoredEvidence) : String × String := (r.tenantId, r.record.evidenceId)
def StoredRelationship.rowKey (r : StoredRelationship) : String × EdgeKey :=
  (r.tenantId, r.record.key)

structure BrainAuditEvent where
  sequence : Nat
  tenantId : String
  recordType : String
  recordKey : String
  operation : String
  version : Int
  occurredAt : Int
  provenance : BrainProvenance
  deletionReason : Option String
  deriving DecidableEq

structure Store where
  entities : Table StoredEntity.rowKey
  evidence : Table StoredEvidence.rowKey
  relationships : Table StoredRelationship.rowKey
  auditEvents : List BrainAuditEvent

namespace Store

def empty : Store := ⟨Table.empty, Table.empty, Table.empty, []⟩

/-- The rows with a key, tombstoned or not. -/
def entityRow (s : Store) (tenant entityId : String) : Option StoredEntity :=
  s.entities.get (tenant, entityId)

def evidenceRow (s : Store) (tenant evidenceId : String) : Option StoredEvidence :=
  s.evidence.get (tenant, evidenceId)

def relationshipRow (s : Store) (tenant : String) (k : EdgeKey) : Option StoredRelationship :=
  s.relationships.get (tenant, k)

def writeEntity (s : Store) (r : StoredEntity) : Store := { s with entities := s.entities.put r }

def writeEvidence (s : Store) (r : StoredEvidence) : Store := { s with evidence := s.evidence.put r }

def writeRelationship (s : Store) (r : StoredRelationship) : Store :=
  { s with relationships := s.relationships.put r }

/-- `_append_event`; `sequence` is the table's autoincrement. -/
def appendEvent {α : Type} (s : Store) (recordType recordKey operation : String) (r : Stored α) :
    Store :=
  { s with auditEvents := s.auditEvents ++ [⟨s.auditEvents.length + 1, r.tenantId, recordType,
      recordKey, operation, r.version, r.updatedAt, r.provenance, r.deletionReason⟩] }

end Store

/-! ### Reads -/

/-- The checks on the arguments of a call, up to the first that fails. -/
def argumentProblem (checks : List (Bool × String)) : Option BrainError :=
  checks.findSome? fun c => (invalid c.1 c.2).map .store

/-- A call whose arguments are checked before anything else is done. -/
def reading {α : Type} (checks : List (Bool × String)) (answer : α) : Except BrainError α :=
  match argumentProblem checks with
  | some x => .error x
  | none => .ok answer

namespace Store

def getEntity (s : Store) (tenant entityId : String) (includeDeleted : Bool) :
    Except BrainError (Option StoredEntity) :=
  reading [(required 200 tenant, "tenant_id"), (required 500 entityId, "entity_id")]
    ((s.entityRow tenant entityId).filter fun r => includeDeleted || r.isActive)

def getEvidence (s : Store) (tenant evidenceId : String) (includeDeleted : Bool) :
    Except BrainError (Option StoredEvidence) :=
  reading [(required 200 tenant, "tenant_id"), (required 500 evidenceId, "evidence_id")]
    ((s.evidenceRow tenant evidenceId).filter fun r => includeDeleted || r.isActive)

def getRelationship (s : Store) (tenant : String) (k : EdgeKey) (includeDeleted : Bool) :
    Except BrainError (Option StoredRelationship) :=
  reading [(required 200 tenant, "tenant_id"), (required 500 k.sourceId, "relationship source_id"),
      (required 500 k.targetId, "relationship target_id")]
    ((s.relationshipRow tenant k).filter fun r => includeDeleted || r.isActive)

def listEntities (s : Store) (tenant : String) (includeDeleted : Bool) :
    Except BrainError (List StoredEntity) :=
  reading [(required 200 tenant, "tenant_id")]
    (sortedBy (·.record.entityId)
      (s.entities.rows.filter fun r => r.tenantId = tenant && (includeDeleted || r.isActive)))

def listEvidence (s : Store) (tenant : String) (includeDeleted : Bool) :
    Except BrainError (List StoredEvidence) :=
  reading [(required 200 tenant, "tenant_id")]
    (sortedBy (·.record.evidenceId)
      (s.evidence.rows.filter fun r => r.tenantId = tenant && (includeDeleted || r.isActive)))

/-- The join of `list_relationships` with the rows of the two endpoints. -/
def joins (s : Store) (includeDeleted : Bool) (r : StoredRelationship) : Bool :=
  (s.entityRow r.tenantId r.record.sourceId).any (fun e => includeDeleted || e.isActive) &&
    (s.entityRow r.tenantId r.record.targetId).any (fun e => includeDeleted || e.isActive)

def listRelationships (s : Store) (tenant : String) (includeDeleted : Bool) :
    Except BrainError (List StoredRelationship) :=
  reading [(required 200 tenant, "tenant_id")]
    (sortedBy (·.record.key.order)
      (s.relationships.rows.filter fun r =>
        r.tenantId = tenant && (includeDeleted || r.isActive) && s.joins includeDeleted r))

def auditEventsOf (s : Store) (tenant : String) (recordType recordKey : Option String) :
    Except BrainError (List BrainAuditEvent) :=
  reading [(required 200 tenant, "tenant_id"), (recordType.all (required 50), "record_type"),
      (recordKey.all (required 500), "record_key")]
    (s.auditEvents.filter fun e =>
      e.tenantId = tenant && recordType.all (· = e.recordType) && recordKey.all (· = e.recordKey))

/-- `snapshot`: the active rows, each relationship related anew. -/
def snapshot (s : Store) (tenant : String) : Except BrainError CompanyBrain := do
  let entities ← s.listEntities tenant false
  let evidence ← s.listEvidence tenant false
  let relationships ← s.listRelationships tenant false
  let brain := entities.foldl (fun b r => b.upsertEntity r.record) CompanyBrain.empty
  let brain := evidence.foldl (fun b r => { b with evidence := b.evidence.put r.record }) brain
  relationships.foldlM (fun b r => (·.1) <$> b.relate r.record.sourceId r.record.targetId r.record.kind
    r.record.evidenceIds) brain

end Store

/-! ### Writes -/

/-- The keyword arguments of the `put_*` calls. -/
structure PutTerms where
  provenance : BrainProvenance
  retention : RetentionPolicy
  expectedVersion : Option Int

/-- The keyword arguments of the `delete_*` calls. -/
structure DeleteTerms where
  expectedVersion : Int
  reason : String
  deletedAt : Option PyDateTime

def assertExpected (current expected : Option Int) : Except BrainError Unit :=
  if expected.isSome && current != expected then
    .error (.versionConflict ("expected version " ++ State.showVersion expected ++
      ", current version is " ++ State.showVersion current))
  else .ok ()

section
variable {α : Type}

def assertMutable (current : Option (Stored α)) (requested : RetentionPolicy) :
    Except BrainError Unit :=
  match current with
  | none => .ok ()
  | some row =>
    if row.deletedAt.isSome then
      .error (.store "tombstoned records cannot be silently recreated")
    else if row.retention.legalHold && !requested.legalHold then
      .error (.retention "legal hold cannot be removed by an ordinary update")
    else if row.retention.retainUntil.any fun t => requested.retainUntil.all (· < t) then
      .error (.retention "retention cannot be shortened by an ordinary update")
    else .ok ()

/-- The row a `put_*` writes over the current one. -/
def revise (current : Option (Stored α)) (tenant : String) (record : α) (terms : PutTerms)
    (now : Int) : Except BrainError (Stored α) :=
  match assertExpected (current.map (·.version)) terms.expectedVersion with
  | .error x => .error x
  | .ok () =>
    match assertMutable current terms.retention with
    | .error x => .error x
    | .ok () => .ok ⟨tenant, record, current.elim 1 (·.version + 1), terms.provenance,
        terms.retention, current.elim now (·.createdAt), now, none, none⟩

/-- `_put_entity`, `_put_evidence` and `_put_relationship`, each given its own table. -/
def putRow (read : Store → Option (Stored α)) (write : Store → Stored α → Store)
    (recordType recordKey tenant : String) (record : α) (terms : PutTerms) (now : Int) (s : Store) :
    Store × Except BrainError (Stored α) :=
  match revise (read s) tenant record terms now with
  | .error x => (s, .error x)
  | .ok stored =>
    ((write s stored).appendEvent recordType recordKey
      (if (read s).isNone then "created" else "updated") stored, .ok stored)

/-- The row a `delete_*` writes. -/
def tombstone (current : Stored α) (reason : String) (now : Int) : Stored α :=
  { current with
    version := current.version + 1, updatedAt := now, deletedAt := some now,
    deletionReason := some reason }

/-- The checks of a `delete_*` on the row it finds; `guard` is the check only `delete_entity` makes. -/
def deletable (noun : String) (guard : α → Option String) (current : Option (Stored α))
    (expected : Int) : Except BrainError (Stored α) :=
  match current with
  | none => .error (.store (noun ++ " does not exist"))
  | some row =>
    match assertExpected (some row.version) (some expected) with
    | .error x => .error x
    | .ok () =>
      if row.deletedAt.isSome then .error (.store (noun ++ " is already deleted"))
      else
        match guard row.record with
        | some message => .error (.store message)
        | none =>
          if row.retention.legalHold then
            .error (.retention (noun ++ " is under legal hold and cannot be tombstoned"))
          else .ok row

def assertActive (noun : String) : Option (Stored α) → Except BrainError Unit
  | none => .error (.store (noun ++ " must exist in the same tenant"))
  | some row =>
    if row.deletedAt.isSome then .error (.store (noun ++ " must be active")) else .ok ()

end

/-- `_timestamp(deleted_at or datetime.now(timezone.utc), "deleted_at")`. -/
def deletionTime (deletedAt : Option PyDateTime) (now : Int) : Except BrainError Int :=
  match deletedAt with
  | none => .ok now
  | some t =>
    if t.utcoffset.isNone then .error (.store "deleted_at must include a timezone")
    else .ok t.instant

/-- A `put_*` call: the tenant is checked, the rest is a transaction. -/
def putting {α : Type} (tenant : String) (body : Store → Store × Except BrainError α) (s : Store) :
    Store × Except BrainError α :=
  match argumentProblem [(required 200 tenant, "tenant_id")] with
  | some x => (s, .error x)
  | none => transaction body s

/-- A `delete_*` call: its arguments are checked, its time is fixed, the rest is a transaction. -/
def deleting {α : Type} (tenant : String) (keys : List (Bool × String)) (terms : DeleteTerms)
    (now : Int) (body : Int → Store → Store × Except BrainError α) (s : Store) :
    Store × Except BrainError α :=
  match argumentProblem ((required 200 tenant, "tenant_id") :: keys ++
      [(required 500 terms.reason, "deletion reason")]) with
  | some x => (s, .error x)
  | none =>
    match deletionTime terms.deletedAt now with
    | .error x => (s, .error x)
    | .ok time => transaction (body time) s

/-- `_relationship_key`. -/
def auditKey (k : EdgeKey) : String := k.sourceId ++ "|" ++ k.kind.value ++ "|" ++ k.targetId

namespace Store

def putEntityRow (tenant : String) (entity : BrainEntity) (terms : PutTerms) (now : Int) :
    Store → Store × Except BrainError StoredEntity :=
  putRow (·.entityRow tenant entity.entityId) writeEntity "entity" entity.entityId tenant entity
    terms now

def putEvidenceRow (tenant : String) (evidence : BrainEvidence) (terms : PutTerms) (now : Int) :
    Store → Store × Except BrainError StoredEvidence :=
  putRow (·.evidenceRow tenant evidence.evidenceId) writeEvidence "evidence" evidence.evidenceId
    tenant evidence terms now

def putRelationshipRow (tenant : String) (relationship : BrainRelationship) (terms : PutTerms)
    (now : Int) : Store → Store × Except BrainError StoredRelationship :=
  putRow (·.relationshipRow tenant relationship.key) writeRelationship "relationship"
    (auditKey relationship.key) tenant relationship terms now

def putEntity (tenant : String) (entity : BrainEntity) (terms : PutTerms) (now : Int) :
    Store → Store × Except BrainError StoredEntity :=
  putting tenant (putEntityRow tenant entity terms now)

/-- `put_evidence`; the clock is read for the evidence and again for its entity. -/
def putEvidence (tenant : String) (evidence : BrainEvidence) (terms : PutTerms)
    (now entityNow : Int) : Store → Store × Except BrainError StoredEvidence :=
  putting tenant <| andThen (putEvidenceRow tenant evidence terms now) fun stored s =>
    match evidenceEntity evidence with
    | .error x => (s, .error x)
    | .ok entity =>
      let current := (s.entityRow tenant evidence.evidenceId).map (·.version)
      andThen (putEntityRow tenant entity { terms with expectedVersion := current } entityNow)
        (fun _ s => (s, .ok stored)) s

/-- The endpoints and the evidence of a relationship are active in its tenant. -/
def assertLinkable (s : Store) (tenant : String) (r : BrainRelationship) : Except BrainError Unit := do
  assertActive "relationship endpoints" (s.entityRow tenant r.sourceId)
  assertActive "relationship endpoints" (s.entityRow tenant r.targetId)
  r.evidenceIds.forM fun v => assertActive "relationship evidence" (s.evidenceRow tenant v)

def putRelationship (tenant : String) (relationship : BrainRelationship) (terms : PutTerms)
    (now : Int) : Store → Store × Except BrainError StoredRelationship :=
  putting tenant fun s =>
    match s.assertLinkable tenant relationship with
    | .error x => (s, .error x)
    | .ok () => putRelationshipRow tenant relationship terms now s

/-- The check that sends evidence entities to `delete_evidence`. -/
def notEvidence (e : BrainEntity) : Option String :=
  if e.kind = .evidence then some "evidence entities must be deleted through delete_evidence" else none

def deleteEntity (tenant entityId : String) (terms : DeleteTerms) (now : Int) :
    Store → Store × Except BrainError StoredEntity :=
  deleting tenant [(required 500 entityId, "entity_id")] terms now fun time s =>
    match deletable "entity" notEvidence (s.entityRow tenant entityId) terms.expectedVersion with
    | .error x => (s, .error x)
    | .ok current =>
      let stored := tombstone current terms.reason time
      ((s.writeEntity stored).appendEvent "entity" entityId "tombstoned" stored, .ok stored)

/-- The structural entity of evidence that is about to be deleted. -/
def structuralEntity (current : Option StoredEntity) : Except BrainError StoredEntity :=
  match current with
  | none => .error (.store "evidence is missing its structural entity")
  | some row =>
    if row.record.kind ≠ .evidence then
      .error (.store "evidence structural entity has an invalid kind")
    else if row.deletedAt.isSome then
      .error (.store "evidence structural entity is already deleted")
    else if row.retention.legalHold then
      .error (.retention "evidence entity is under legal hold and cannot be tombstoned")
    else .ok row

def deleteEvidence (tenant evidenceId : String) (terms : DeleteTerms) (now : Int) :
    Store → Store × Except BrainError StoredEvidence :=
  deleting tenant [(required 500 evidenceId, "evidence_id")] terms now fun time s =>
    match deletable "evidence" (fun _ => none) (s.evidenceRow tenant evidenceId)
        terms.expectedVersion with
    | .error x => (s, .error x)
    | .ok current =>
      match structuralEntity (s.entityRow tenant evidenceId) with
      | .error x => (s, .error x)
      | .ok structural =>
        let stored := tombstone current terms.reason time
        let entity := tombstone structural terms.reason time
        ((((s.writeEvidence stored).appendEvent "evidence" evidenceId "tombstoned" stored).writeEntity
          entity).appendEvent "entity" evidenceId "tombstoned" entity, .ok stored)

def deleteRelationship (tenant : String) (k : EdgeKey) (terms : DeleteTerms) (now : Int) :
    Store → Store × Except BrainError StoredRelationship :=
  deleting tenant [(required 500 k.sourceId, "relationship source_id"),
      (required 500 k.targetId, "relationship target_id")] terms now fun time s =>
    match deletable "relationship" (fun _ => none) (s.relationshipRow tenant k)
        terms.expectedVersion with
    | .error x => (s, .error x)
    | .ok current =>
      let stored := tombstone current terms.reason time
      ((s.writeRelationship stored).appendEvent "relationship" (auditKey current.record.key)
        "tombstoned" stored, .ok stored)

end Store

/-! ### The store as a machine -/

inductive StoreOp where
  | putEntity (tenant : String) (entity : BrainEntity) (terms : PutTerms) (now : Int)
  | putEvidence (tenant : String) (evidence : BrainEvidence) (terms : PutTerms) (now entityNow : Int)
  | putRelationship (tenant : String) (relationship : BrainRelationship) (terms : PutTerms)
      (now : Int)
  | deleteEntity (tenant entityId : String) (terms : DeleteTerms) (now : Int)
  | deleteEvidence (tenant evidenceId : String) (terms : DeleteTerms) (now : Int)
  | deleteRelationship (tenant : String) (key : EdgeKey) (terms : DeleteTerms) (now : Int)

/-- What a write returns. -/
inductive StoreAnswer where
  | entity (stored : StoredEntity)
  | evidence (stored : StoredEvidence)
  | relationship (stored : StoredRelationship)

def Store.step (s : Store) : StoreOp → Store × Except BrainError StoreAnswer
  | .putEntity tenant entity terms now =>
    (putEntity tenant entity terms now s).map id (.map .entity)
  | .putEvidence tenant evidence terms now entityNow =>
    (putEvidence tenant evidence terms now entityNow s).map id (.map .evidence)
  | .putRelationship tenant relationship terms now =>
    (putRelationship tenant relationship terms now s).map id (.map .relationship)
  | .deleteEntity tenant entityId terms now =>
    (deleteEntity tenant entityId terms now s).map id (.map .entity)
  | .deleteEvidence tenant evidenceId terms now =>
    (deleteEvidence tenant evidenceId terms now s).map id (.map .evidence)
  | .deleteRelationship tenant key terms now =>
    (deleteRelationship tenant key terms now s).map id (.map .relationship)

end EngineeringIntelligence.CompanyBrain
