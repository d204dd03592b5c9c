import EngineeringIntelligence.CompanyBrain.Projector
import EngineeringIntelligence.CompanyBrain.Store

namespace EngineeringIntelligence.CompanyBrain

open EngineeringIntelligence.Framework EngineeringIntelligence.Ingestion

/-! The durable projection of source changes: the journal of what each source contributes, and
the writes that carry a change into the store. -/

inductive ProjectionState where
  | active | deleted
  deriving DecidableEq, Repr

/-- A tuple of identifiers in a projection, as the message of the check it fails. -/
def identifiersProblem (values : List String) (label : String) : Option String :=
  if values ≠ sortedSet values then some (label ++ " must be sorted and unique")
  else invalid (values.all (required 500)) label

def projectionProblem (tenantId sourceKey sourceKind fingerprint : String)
    (entityIds ownedEntityIds evidenceIds : List String) (relationships : List BrainRelationship) :
    Option String :=
  (invalid (required 200 tenantId) "tenant_id").or
    ((invalid (required 500 sourceKey) "source_key").or
      ((invalid (required 100 sourceKind) "source_kind").or
        ((invalid (required 500 fingerprint) "fingerprint").or
          ((identifiersProblem entityIds "entity_ids").or
            ((identifiersProblem ownedEntityIds "owned_entity_ids").or
              ((identifiersProblem evidenceIds "evidence_ids").or
                (if ∃ o ∈ ownedEntityIds, o ∉ entityIds then
                  some "owned entities must be included in entity_ids"
                else if relationships.map (·.key.order) ≠
                    sortedSet (relationships.map (·.key.order)) then
                  some "relationships must be sorted and unique"
                else none)))))))

/-- What one source currently contributes. -/
structure BrainSourceProjection where
  tenantId : String
  sourceKey : String
  sourceKind : String
  state : ProjectionState
  fingerprint : String
  provenance : BrainProvenance
  entityIds : List String
  ownedEntityIds : List String
  evidenceIds : List String
  relationships : List BrainRelationship
  updatedAt : Int
  valid : projectionProblem tenantId sourceKey sourceKind fingerprint entityIds ownedEntityIds
    evidenceIds relationships = none

def BrainSourceProjection.make (tenantId sourceKey sourceKind : String) (state : ProjectionState)
    (fingerprint : String) (provenance : BrainProvenance)
    (entityIds ownedEntityIds evidenceIds : List String) (relationships : List BrainRelationship)
    (updatedAt : Int) : Except BrainError BrainSourceProjection :=
  match h : projectionProblem tenantId sourceKey sourceKind fingerprint entityIds ownedEntityIds
      evidenceIds relationships with
  | some message => .error (.memory message)
  | none => .ok ⟨tenantId, sourceKey, sourceKind, state, fingerprint, provenance, entityIds,
      ownedEntityIds, evidenceIds, relationships, updatedAt, h⟩

def BrainSourceProjection.rowKey (p : BrainSourceProjection) : String × String :=
  (p.tenantId, p.sourceKey)

structure ProjectionReceipt where
  sourceKey : String
  state : ProjectionState
  changed : Bool
  duplicate : Bool
  entityCount : Nat
  evidenceCount : Nat
  relationshipCount : Nat
  deriving DecidableEq, Repr

/-- The journal's table. -/
abbrev Journal := Table BrainSourceProjection.rowKey

namespace Journal

def lookup (j : Journal) (tenant sourceKey : String) :
    Except BrainError (Option BrainSourceProjection) :=
  if required 200 tenant = false then .error (.memory "tenant_id is invalid")
  else if required 500 sourceKey = false then .error (.memory "source_key is invalid")
  else .ok (j.get (tenant, sourceKey))

/-- `active`; the tenant is the projector's, which its constructor checked. -/
def active (j : Journal) (tenant : String) : List BrainSourceProjection :=
  sortedBy (·.sourceKey) (j.rows.filter fun p => p.tenantId = tenant && p.state = .active)

end Journal

/-- The store and the journal. -/
structure Memory where
  store : Store
  journal : Journal

def Memory.empty : Memory := ⟨Store.empty, Table.empty⟩

/-- What the clock says during one call: when the change was observed, when the projection was
built, and at each write of the store, which the writes so far tell apart. -/
structure Clock where
  observed : Int
  projected : Int
  writes : Nat → Int

/-- `CompanyBrainMemoryProjector`; the store and the journal are passed along. -/
structure MemoryProjector where
  tenantId : String
  valid : required 200 tenantId = true

def fileChangeProjectionPolicyVersion : String := "company-brain-file-change-projection:v1"

def knowledgeDocumentProjectionPolicyVersion : String :=
  "company-brain-knowledge-document-projection:v1"

/-- `_is_source_owned`. -/
def isSourceOwned (e : BrainEntity) : Bool :=
  e.kind ∉ [EntityKind.repository, .service, .team, .owner]

/-- `_receipt`. -/
def receipt (p : BrainSourceProjection) (changed duplicate : Bool) : ProjectionReceipt :=
  ⟨p.sourceKey, p.state, changed, duplicate, p.entityIds.length, p.evidenceIds.length,
    p.relationships.length⟩

/-- `_relationship_memberships(projections).get(key, ())`. -/
def relationshipMemberships (projections : List BrainSourceProjection) (k : EdgeKey) : List String :=
  sortedSet (projections.flatMap fun p =>
    (p.relationships.filter (·.key = k)).flatMap (·.evidenceIds))

/-- The terms of a projection's writes. -/
def projectionTerms (provenance : BrainProvenance) : PutTerms :=
  ⟨provenance, defaultRetentionPolicy, none⟩

/-- What one round of the projector asks of the store, given what it reads there: nothing, one
write, or an exception of its own. -/
inductive Round where
  | done
  | write (op : StoreOp)
  | raises (x : BrainError)

def Round.run (s : Store) : Round → Store × Except BrainError Unit
  | done => (s, .ok ())
  | write op => void (s.step op)
  | raises x => (s, .error x)

/-- A round decided on the store it is run on. -/
def perform (round : Store → Round) (s : Store) : Store × Except BrainError Unit := (round s).run s

namespace MemoryProjector

variable (q : MemoryProjector) (clock : Clock)

def putEntityIfChanged (provenance : BrainProvenance) (entity : BrainEntity) (s : Store) : Round :=
  match s.getEntity q.tenantId entity.entityId false with
  | .error x => .raises x
  | .ok current =>
    if current.map (·.record) = some entity then .done
    else .write (.putEntity q.tenantId entity (projectionTerms provenance)
      (clock.writes s.auditEvents.length))

/-- `_put_evidence_if_changed` on `model.evidence[evidence_id]`, a `KeyError` without it. -/
def putEvidenceIfChanged (provenance : BrainProvenance) (evidence : Option BrainEvidence) (s : Store) :
    Round :=
  match evidence with
  | none => .raises (.value "KeyError")
  | some v =>
    match s.getEvidence q.tenantId v.evidenceId false with
    | .error x => .raises x
    | .ok current =>
      if current.map (·.record) = some v then .done
      else .write (.putEvidence q.tenantId v (projectionTerms provenance)
        (clock.writes s.auditEvents.length) (clock.writes (s.auditEvents.length + 1)))

/-- One round of `_reconcile_relationships`. -/
def reconcileRelationship (candidates : List BrainSourceProjection) (k : EdgeKey) (s : Store) :
    Round :=
  match s.getRelationship q.tenantId k false with
  | .error x => .raises x
  | .ok current =>
    match relationshipMemberships candidates k with
    | [] =>
      match current with
      | none => .done
      | some row => .write (.deleteRelationship q.tenantId k ⟨row.version,
          "source projection no longer contributes this relationship", none⟩
          (clock.writes s.auditEvents.length))
    | evidenceIds =>
      match candidates.find? fun p => p.relationships.any (·.key = k) with
      | none => .raises (.value "StopIteration")
      | some candidate =>
        match BrainRelationship.make k.sourceId k.targetId k.kind evidenceIds with
        | .error x => .raises x
        | .ok relationship =>
          if current.map (·.record) = some relationship then .done
          else .write (.putRelationship q.tenantId relationship
            (projectionTerms candidate.provenance) (clock.writes s.auditEvents.length))

/-- The relationships whose membership may have changed, in order. -/
def affected (previous projection : Option BrainSourceProjection) : List EdgeKey :=
  sortedBy EdgeKey.order
    (((previous.elim [] (·.relationships)) ++ (projection.elim [] (·.relationships))).map
      (·.key)).dedup

def reconcileRelationships (previous projection : Option BrainSourceProjection)
    (candidates : List BrainSourceProjection) : Store → Store × Except BrainError Unit :=
  sweep (fun k => perform (q.reconcileRelationship clock candidates k)) (affected previous projection)

def retireEvidence (candidates : List BrainSourceProjection) (evidenceId : String) (s : Store) :
    Round :=
  if evidenceId ∈ candidates.flatMap (·.evidenceIds) then .done
  else
    match s.getEvidence q.tenantId evidenceId false with
    | .error x => .raises x
    | .ok none => .done
    | .ok (some row) => .write (.deleteEvidence q.tenantId evidenceId ⟨row.version,
        "source projection is superseded or deleted", none⟩ (clock.writes s.auditEvents.length))

def retireEntity (candidates : List BrainSourceProjection) (entityId : String) (s : Store) : Round :=
  if entityId ∈ candidates.flatMap (·.ownedEntityIds) then .done
  else
    match s.getEntity q.tenantId entityId false with
    | .error x => .raises x
    | .ok none => .done
    | .ok (some row) => .write (.deleteEntity q.tenantId entityId ⟨row.version,
        "source projection is superseded or deleted", none⟩ (clock.writes s.auditEvents.length))

/-- `_retire_unreferenced`. -/
def retireUnreferenced (previous : Option BrainSourceProjection)
    (candidates : List BrainSourceProjection) : Store → Store × Except BrainError Unit :=
  match previous with
  | none => fun s => (s, .ok ())
  | some p => andThen (sweep (fun v => perform (q.retireEvidence clock candidates v)) p.evidenceIds)
      fun _ => sweep (fun e => perform (q.retireEntity clock candidates e)) p.ownedEntityIds

/-- `_assert_not_conflicting_replay`. -/
def assertNotConflictingReplay (j : Journal) (sourceKey fingerprint : String)
    (targetState : ProjectionState) (provenance : BrainProvenance) :
    Except BrainError (Option BrainSourceProjection) :=
  match j.lookup q.tenantId sourceKey with
  | .error x => .error x
  | .ok previous =>
    if previous.any fun p => provenance.eventId.isSome && p.provenance.eventId = provenance.eventId &&
        (p.state ≠ targetState || p.fingerprint ≠ fingerprint) then
      .error (.memory "a source event ID cannot project different state or content")
    else .ok previous

/-- The other active projections. -/
def others (j : Journal) (sourceKey : String) : List BrainSourceProjection :=
  (j.active q.tenantId).filter (·.sourceKey ≠ sourceKey)

/-- `_active_candidates`. -/
def activeCandidates (j : Journal) (projection : BrainSourceProjection) :
    List BrainSourceProjection :=
  sortedBy (·.sourceKey) (q.others j projection.sourceKey ++ [projection])

/-- The entities a projection writes. -/
def describedEntities (model : CompanyBrain) (entityIds : List String) : List BrainEntity :=
  ((sortedSet entityIds).filterMap model.entities.get).filter (·.kind ≠ .evidence)

/-- The edges of the model that cite the evidence, each with that evidence alone. -/
def contributedRelationships (model : CompanyBrain) (evidenceId : String) :
    Except BrainError (List BrainRelationship) :=
  (fun rs => sortedBy (·.key.order) rs) <$>
    (model.relationships.filter (evidenceId ∈ ·.evidenceIds)).mapM fun r =>
      BrainRelationship.make r.sourceId r.targetId r.kind [evidenceId]

/-- The store writes of `_materialize`, in order. -/
def materializeStore (provenance : BrainProvenance) (entities : List BrainEntity)
    (evidence : Option BrainEvidence) (previous : Option BrainSourceProjection)
    (projection : BrainSourceProjection) (candidates : List BrainSourceProjection) :
    Store → Store × Except BrainError Unit :=
  andThen (sweep (fun e => perform (q.putEntityIfChanged clock provenance e)) entities) fun _ =>
  andThen (perform (q.putEvidenceIfChanged clock provenance evidence)) fun _ =>
  andThen (q.reconcileRelationships clock previous (some projection) candidates) fun _ =>
    q.retireUnreferenced clock previous candidates

/-- `_materialize`. -/
def materialize (previous : Option BrainSourceProjection) (sourceKey sourceKind fingerprint : String)
    (provenance : BrainProvenance) (model : CompanyBrain) (result : ProjectionResult) (m : Memory) :
    Memory × Except BrainError ProjectionReceipt :=
  let entities := describedEntities model result.entityIds
  match contributedRelationships model result.evidenceId with
  | .error x => (m, .error x)
  | .ok relationships =>
    match BrainSourceProjection.make q.tenantId sourceKey sourceKind .active fingerprint provenance
        (sortedBy id (entities.map (·.entityId)))
        (sortedBy id ((entities.filter isSourceOwned).map (·.entityId)))
        [result.evidenceId] relationships clock.projected with
    | .error x => (m, .error x)
    | .ok projection =>
      match q.materializeStore clock provenance entities (model.evidence.get result.evidenceId)
          previous projection (q.activeCandidates m.journal projection) m.store with
      | (s, .error x) => ({ m with store := s }, .error x)
      | (s, .ok ()) => (⟨s, m.journal.put projection⟩, .ok (receipt projection true false))

/-- `_upsert_file` and `_upsert_knowledge`, which differ in the fingerprint and the projection. -/
def upsert (sourceKey sourceKind fingerprint : String) (provenance : BrainProvenance)
    (project : CompanyBrain → Except BrainError (CompanyBrain × ProjectionResult)) (m : Memory) :
    Memory × Except BrainError ProjectionReceipt :=
  match q.assertNotConflictingReplay m.journal sourceKey fingerprint .active provenance with
  | .error x => (m, .error x)
  | .ok previous =>
    match previous.filter fun p => p.state = .active && p.fingerprint = fingerprint with
    | some p => (m, .ok (receipt p false true))
    | none =>
      match m.store.snapshot q.tenantId with
      | .error x => (m, .error x)
      | .ok snapshot =>
        match project snapshot with
        | .error x => (m, .error x)
        | .ok (model, result) =>
          q.materialize clock previous sourceKey sourceKind fingerprint provenance model result m

/-- `_delete`. -/
def delete (sourceKey sourceKind fingerprint : String) (provenance : BrainProvenance) (m : Memory) :
    Memory × Except BrainError ProjectionReceipt :=
  match q.assertNotConflictingReplay m.journal sourceKey fingerprint .deleted provenance with
  | .error x => (m, .error x)
  | .ok none =>
    match BrainSourceProjection.make q.tenantId sourceKey sourceKind .deleted fingerprint provenance
        [] [] [] [] clock.projected with
    | .error x => (m, .error x)
    | .ok projection =>
      ({ m with journal := m.journal.put projection }, .ok (receipt projection false true))
  | .ok (some previous) =>
    if previous.state = .deleted then (m, .ok (receipt previous false true))
    else
      let candidates := q.others m.journal sourceKey
      match andThen (q.reconcileRelationships clock (some previous) none candidates)
          (fun _ => q.retireUnreferenced clock (some previous) candidates) m.store with
      | (s, .error x) => ({ m with store := s }, .error x)
      | (s, .ok ()) =>
        match BrainSourceProjection.make q.tenantId sourceKey sourceKind .deleted fingerprint
            provenance previous.entityIds previous.ownedEntityIds previous.evidenceIds
            previous.relationships clock.projected with
        | .error x => ({ m with store := s }, .error x)
        | .ok tombstone =>
          (⟨s, m.journal.put tombstone⟩, .ok (receipt tombstone true false))

section
variable (sha256 : String → String)

def projectFileChange (c : FileChange) (eventId : Option String) (m : Memory) :
    Memory × Except BrainError ProjectionReceipt :=
  match BrainProvenance.make c.source.provider c.source.documentId c.source.commitSha
      fileChangeProjectionPolicyVersion clock.observed eventId with
  | .error x => (m, .error x)
  | .ok provenance =>
    match c.changeType with
    | .delete => q.delete clock ("file:" ++ c.source.documentId) "file"
        ("deleted:" ++ c.source.documentId) provenance m
    | .upsert => q.upsert clock ("file:" ++ c.source.documentId) "file"
        (changeFingerprint sha256 c) provenance (projectFile c) m

def projectKnowledgeChange (c : KnowledgeChange) (eventId : Option String) (m : Memory) :
    Memory × Except BrainError ProjectionReceipt :=
  match BrainProvenance.make c.document.identity.provider c.document.identity.documentId
      c.document.revision knowledgeDocumentProjectionPolicyVersion clock.observed eventId with
  | .error x => (m, .error x)
  | .ok provenance =>
    match c.changeType with
    | .delete => q.delete clock ("knowledge:" ++ c.document.identity.documentId) "knowledge"
        ("deleted:" ++ c.document.identity.documentId) provenance m
    | .upsert => q.upsert clock ("knowledge:" ++ c.document.identity.documentId) "knowledge"
        (knowledgeFingerprint sha256 c.document) provenance (projectKnowledge c.document) m

end

end MemoryProjector

end EngineeringIntelligence.CompanyBrain
