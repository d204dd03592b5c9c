import EngineeringIntelligence.CompanyBrain.Model
import EngineeringIntelligence.Ingestion.Models

namespace EngineeringIntelligence.CompanyBrain

open EngineeringIntelligence.Framework EngineeringIntelligence.Ingestion

/-! The projection of source records into the in-memory model. -/

def repositoryId (provider repository : String) : String :=
  "repository:" ++ provider ++ ":" ++ repository

def serviceId (service : String) : String := "service:" ++ service

def ownerId (owner : String) : String := "owner:" ++ owner

/-- A text field that is present: neither `None` nor empty. -/
def truthy (value : Option String) : Option String := value.filter (· ≠ "")

def attributes (values : List (String × Option String)) : List (String × String) :=
  sortedBy pairOrder (values.filterMap fun p => (truthy p.2).map fun v => (p.1, v))

structure ProjectionResult where
  entityIds : List String
  evidenceId : String
  unresolvedRelationships : List String
  deletedEntityIds : List String

/-- One call of a projection on the model: `upsert_entity`, `record_evidence`, or `relate`
with the projection's own evidence. -/
inductive Fact where
  | entity (entityId : String) (kind : EntityKind) (label : String)
      (attributes : List (String × String))
  | evidence (sourceKind citation revision : String) (aclGroups aclUsers : List String)
  | edge (sourceId targetId : String) (kind : RelationshipKind)

def stateFact (evidenceId : String) (b : CompanyBrain) : Fact → Except BrainError CompanyBrain
  | .entity entityId kind label attributes =>
    match BrainEntity.make entityId kind label attributes with
    | .error x => .error x
    | .ok e => .ok (b.upsertEntity e)
  | .evidence sourceKind citation revision aclGroups aclUsers =>
    match BrainEvidence.make evidenceId sourceKind citation revision aclGroups aclUsers with
    | .error x => .error x
    | .ok v =>
      match b.recordEvidence v with
      | (_, .error x) => .error x
      | (b', .ok ()) => .ok b'
  | .edge sourceId targetId kind =>
    match b.relate sourceId targetId kind [evidenceId] with
    | .error x => .error x
    | .ok (b', _) => .ok b'

def stateAll (evidenceId : String) (b : CompanyBrain) (facts : List Fact) :
    Except BrainError CompanyBrain :=
  facts.foldlM (stateFact evidenceId) b

/-! ### File changes -/

section
variable (c : FileChange)

def changeEntityId : String :=
  "change:" ++ c.source.provider ++ ":" ++ c.source.repository ++ ":" ++ c.source.branch ++ ":" ++
    c.source.commitSha ++ ":" ++ c.source.path

def fileEvidenceId : String :=
  "evidence:" ++ c.source.provider ++ ":" ++ c.source.repository ++ ":" ++ c.source.branch ++ ":" ++
    c.source.commitSha ++ ":" ++ c.source.path

/-- What an upsert of a file states, in the order of the calls. -/
def fileFacts : List Fact :=
  let repo := repositoryId c.source.provider c.source.repository
  let change := changeEntityId c
  let evidence := fileEvidenceId c
  [.entity repo .repository c.source.repository
      (attributes [("provider", some c.source.provider), ("branch", some c.source.branch)]),
    .entity change .change (c.source.repository ++ "@" ++ c.source.commitSha ++ ":" ++ c.source.path)
      (attributes [("branch", some c.source.branch), ("commit_sha", some c.source.commitSha),
        ("path", some c.source.path), ("change_type", some c.changeType.value),
        ("language", c.language)]),
    .evidence "repository-change" c.source.citation c.source.commitSha (sortedSet c.acl.groups)
      (sortedSet c.acl.users),
    .edge repo change .changedBy, .edge repo evidence .hasEvidence,
    .edge change evidence .hasEvidence] ++
  match truthy c.service with
  | none => []
  | some service =>
    [.entity (serviceId service) .service service
        (attributes [("repository", some c.source.repository)]),
      .edge (serviceId service) repo .belongsTo, .edge (serviceId service) change .changedBy,
      .edge (serviceId service) evidence .hasEvidence] ++
    match truthy c.owner with
    | none => []
    | some owner =>
      [.entity (ownerId owner) .owner owner [], .edge (ownerId owner) (serviceId service) .owns]

def fileEntityIds : List String :=
  [repositoryId c.source.provider c.source.repository, changeEntityId c] ++
  match truthy c.service with
  | none => []
  | some service => serviceId service :: ((truthy c.owner).map ownerId).toList

end

/-- `_remove_file_change_projection`: every revision of the file goes. -/
def removeFileChangeProjection (b : CompanyBrain) (c : FileChange) : CompanyBrain × List String :=
  let scope := c.source.provider ++ ":" ++ c.source.repository ++ ":" ++ c.source.branch ++ ":"
  let named (lead entityId : String) : Bool :=
    (lead ++ scope).toList.isPrefixOf entityId.toList &&
      (":" ++ c.source.path).toList.isSuffixOf entityId.toList
  let evidenceIds := sortedBy id ((b.evidence.rows.map (·.evidenceId)).filter (named "evidence:"))
  let changeIds := sortedBy id ((b.entities.rows.filter fun e =>
    e.kind = .change && named "change:" e.entityId).map (·.entityId))
  (changeIds.foldl CompanyBrain.removeEntity (evidenceIds.foldl CompanyBrain.removeEvidence b),
    sortedBy id (evidenceIds ++ changeIds))

/-- `CompanyBrainProjector.project_file_change`. -/
def projectFile (c : FileChange) (b : CompanyBrain) :
    Except BrainError (CompanyBrain × ProjectionResult) :=
  match c.changeType with
  | .delete =>
    let (b', removed) := removeFileChangeProjection b c
    .ok (b', ⟨[], fileEvidenceId c, [], removed⟩)
  | .upsert =>
    match stateAll (fileEvidenceId c) b (fileFacts c) with
    | .error x => .error x
    | .ok b' => .ok (b', ⟨sortedBy id (fileEntityIds c), fileEvidenceId c, [], []⟩)

/-! ### Knowledge documents -/

/-- `_entity_kind`. -/
def entityKind : KnowledgeSourceType → EntityKind
  | .adr => .adr
  | .deployment => .deployment
  | .incident => .incident
  | .runbook => .runbook
  | .workItem => .workItem
  | .conversation => .conversation
  | .documentation => .document

section
variable (d : KnowledgeDocument)

def artifactId : String :=
  (entityKind d.identity.sourceType).value ++ ":" ++ d.identity.provider ++ ":" ++ d.identity.sourceId

def knowledgeEvidenceId : String := "evidence:" ++ d.identity.documentId ++ ":" ++ d.revision

/-- What a document states before its declared relationships, in the order of the calls. -/
def knowledgeFacts : List Fact :=
  let artifact := artifactId d
  let evidence := knowledgeEvidenceId d
  [.entity artifact (entityKind d.identity.sourceType) d.title
      (attributes [("provider", some d.identity.provider),
        ("source_type", some d.identity.sourceType.value), ("revision", some d.revision),
        ("source_updated_at", some d.updatedAt.utc.isoformat)]),
    .evidence d.identity.sourceType.value ((truthy d.sourceUrl).getD d.identity.documentId) d.revision
      (sortedSet d.acl.groups) (sortedSet d.acl.users),
    .edge artifact evidence .hasEvidence] ++
  (match truthy d.service with
  | none => []
  | some service =>
    [.entity (serviceId service) .service service [],
      .edge (serviceId service) evidence .hasEvidence] ++
    if d.identity.sourceType = .adr then [.edge (serviceId service) artifact .governedBy] else []) ++
  match truthy d.owner with
  | none => []
  | some owner => [.entity (ownerId owner) .owner owner [], .edge (ownerId owner) artifact .owns]

def knowledgeEntityIds : List String :=
  artifactId d :: ((truthy d.service).map serviceId).toList ++ ((truthy d.owner).map ownerId).toList

/-- The relationships an incident declares in its metadata, with the end it names. -/
def declaredEdges : List (String × String × Fact) :=
  if d.identity.sourceType = .incident then
    ((truthy ((d.metadata.get "caused_by").map (·.2))).map fun cause =>
      ("caused_by:", cause, Fact.edge cause (artifactId d) .caused)).toList ++
    ((truthy ((d.metadata.get "resolved_by").map (·.2))).map fun resolution =>
      ("resolved_by:", resolution, Fact.edge (artifactId d) resolution .resolvedBy)).toList
  else []

end

/-- `_project_declared_operational_relationships`: an end the model does not have is left unresolved. -/
def projectDeclared (evidenceId : String) : List (String × String × Fact) → CompanyBrain →
    Except BrainError (CompanyBrain × List String)
  | [], b => .ok (b, [])
  | (label, named, edge) :: rest, b =>
    if (b.entities.get named).isSome then
      match stateFact evidenceId b edge with
      | .error x => .error x
      | .ok b' => projectDeclared evidenceId rest b'
    else
      match projectDeclared evidenceId rest b with
      | .error x => .error x
      | .ok (b', unresolved) => .ok (b', (label ++ named) :: unresolved)

/-- `CompanyBrainProjector.project_knowledge_document`. -/
def projectKnowledge (d : KnowledgeDocument) (b : CompanyBrain) :
    Except BrainError (CompanyBrain × ProjectionResult) :=
  if d.updatedAt.aware = false then
    .error (.value "knowledge document updated_at must include a timezone")
  else
    match stateAll (knowledgeEvidenceId d) b (knowledgeFacts d) with
    | .error x => .error x
    | .ok b' =>
      match projectDeclared (knowledgeEvidenceId d) (declaredEdges d) b' with
      | .error x => .error x
      | .ok (b'', unresolved) => .ok (b'', ⟨sortedBy id (knowledgeEntityIds d),
          knowledgeEvidenceId d, sortedBy id unresolved, []⟩)

end EngineeringIntelligence.CompanyBrain
