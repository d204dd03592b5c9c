import EngineeringIntelligence.CompanyBrain.Store
import EngineeringIntelligence.Framework.Binary64
import EngineeringIntelligence.Framework.Worklist

namespace EngineeringIntelligence.CompanyBrain

open EngineeringIntelligence.Framework

/-! `CompanyBrainWorldModel`: what a principal is told about a change, from the records of the
store it may rely on. Ages are in microseconds. -/

/-- What a query raises; `key` is the `KeyError` of a dictionary. -/
inductive WorldModelError where
  | worldModel (message : String)
  | store (x : BrainError)
  | key (k : String)
  deriving DecidableEq, Repr

inductive FactFreshness where
  | fresh | stale | unknown
  deriving DecidableEq, Repr

inductive WorldModelConflictKind where
  | dependencyCycle | ambiguousOwnership
  deriving DecidableEq, Repr

def trustProblem (sourceKind : String) (confidence : ℚ) (maxAge : Int) : Option String :=
  (invalid (sourceKind ≠ "" && !sourceKind.toList.contains '\n') "source_kind").or
    ((if 0 < confidence ∧ confidence ≤ 1 then none else some "source confidence must be in (0, 1]").or
      (if maxAge ≤ 0 then some "source max_age must be positive" else none))

/-- Trust and freshness policy for one evidence source type. -/
structure SourceTrustRule where
  sourceKind : String
  confidence : ℚ
  maxAge : Int
  valid : trustProblem sourceKind confidence maxAge = none

/-- `timedelta(days=n)`. -/
def days (n : Int) : Int := n * 86400000000

/-- A decimal literal, in hundredths. -/
def hundredths (n : ℚ) : ℚ := Binary64.round (n / 100)

/-- `_DEFAULT_SOURCE_TRUST`. -/
def defaultSourceTrust : List SourceTrustRule :=
  [⟨"adr", hundredths 98, days 365, by decide +kernel⟩,
    ⟨"conversation", hundredths 45, days 30, by decide +kernel⟩,
    ⟨"deployment", hundredths 80, days 30, by decide +kernel⟩,
    ⟨"documentation", hundredths 70, days 180, by decide +kernel⟩,
    ⟨"incident", hundredths 75, days 90, by decide +kernel⟩,
    ⟨"repository-change", hundredths 85, days 45, by decide +kernel⟩,
    ⟨"runbook", hundredths 82, days 90, by decide +kernel⟩,
    ⟨"work_item", hundredths 65, days 120, by decide +kernel⟩]

def policyProblem (minimumConfidence : ℚ) (sourceRules : List SourceTrustRule) : Option String :=
  (if 0 < minimumConfidence ∧ minimumConfidence ≤ 1 then none
    else some "minimum_confidence must be in (0, 1]").or
    (if sourceRules.map (·.sourceKind) ≠ sortedSet (sourceRules.map (·.sourceKind)) then
      some "source_rules must be sorted by unique source_kind" else none)

/-- Deterministic policy controlling when an assertion is decision-usable. -/
structure WorldModelPolicy where
  minimumConfidence : ℚ
  defaultRule : SourceTrustRule
  sourceRules : List SourceTrustRule
  valid : policyProblem minimumConfidence sourceRules = none

def defaultPolicy : WorldModelPolicy where
  minimumConfidence := hundredths 70
  defaultRule := ⟨"unknown", hundredths 40, days 30, by decide +kernel⟩
  sourceRules := defaultSourceTrust
  valid := by decide +kernel

def WorldModelPolicy.ruleFor (policy : WorldModelPolicy) (sourceKind : String) : SourceTrustRule :=
  (policy.sourceRules.find? fun rule => rule.sourceKind = sourceKind).getD policy.defaultRule

def principalProblem (groups users : List String) : Option String :=
  (normalizedStrings groups "principal groups").or
    ((normalizedStrings users "principal users").or
      (if groups = [] ∧ users = [] then some "principal requires a group or user identity" else none))

/-- The identity dimensions relevant to evidence authorization. -/
structure BrainPrincipal where
  groups : List String
  users : List String
  valid : principalProblem groups users = none

def BrainEvidence.visibleTo (v : BrainEvidence) (principal : BrainPrincipal) : Bool :=
  v.aclGroups.any (· ∈ principal.groups) || v.aclUsers.any (· ∈ principal.users)

structure EvidenceQualification where
  evidenceId : String
  sourceKind : String
  citation : String
  revision : String
  observedAt : Int
  age : Int
  confidence : ℚ
  freshness : FactFreshness
  deriving DecidableEq

structure EntityQualification where
  entity : BrainEntity
  confidence : ℚ
  freshness : FactFreshness
  evidence : List EvidenceQualification
  limitations : List String
  deriving DecidableEq

structure RelationshipQualification where
  relationship : BrainRelationship
  confidence : ℚ
  freshness : FactFreshness
  evidence : List EvidenceQualification
  withheldEvidenceCount : Nat
  usable : Bool
  limitations : List String
  conflicts : List String
  deriving DecidableEq

structure WorldModelConflict where
  conflictId : String
  kind : WorldModelConflictKind
  entityIds : List String
  relationshipKeys : List EdgeKey
  message : String
  deriving DecidableEq

structure QualifiedWorldModelContext where
  tenantId : String
  repositoryId : String
  changedServices : List String
  blastRadius : List String
  ownerIds : List String
  confidence : ℚ
  entities : List EntityQualification
  relationships : List RelationshipQualification
  evidence : List EvidenceQualification
  conflicts : List WorldModelConflict
  limitations : List String

/-- A dictionary comprehension whose values hold their keys. -/
def dictOf {ρ : Type} {key : ρ → String} (values : List ρ) : Table key :=
  values.foldl Table.put Table.empty

abbrev EntityDict := Table BrainEntity.entityId
abbrev EvidenceDict := Table fun r : StoredEvidence => r.record.evidenceId

/-- `_relationship_key`. -/
def RelationshipQualification.key (item : RelationshipQualification) : EdgeKey := item.relationship.key

abbrev RelationshipDict := Table RelationshipQualification.key

def EntityDict.kindOf (entities : EntityDict) (entityId : String) : Option EntityKind :=
  (Table.get entities entityId).map (·.kind)

/-- `entities[entity_id]`. -/
def EntityDict.item (entities : EntityDict) (entityId : String) : Except WorldModelError BrainEntity :=
  match Table.get entities entityId with
  | none => .error (.key entityId)
  | some entity => .ok entity

/-- `_utc`. -/
def utc (value : PyDateTime) (label : String) : Except WorldModelError Int :=
  if value.utcoffset.isNone then .error (.worldModel (label ++ " must include a timezone"))
  else .ok value.instant

/-! ### Qualification -/

/-- `_combine_confidence`. -/
def combineConfidence (values : List ℚ) : ℚ :=
  Binary64.sub 1 ((values.map (Binary64.sub 1)).foldl Binary64.mul 1)

/-- `_deduplicate_evidence`. -/
def deduplicateEvidence (values : List EvidenceQualification) : List EvidenceQualification :=
  sortedBy (·.evidenceId) (dictOf values : Table EvidenceQualification.evidenceId).rows

def freshConfidences (qualifications : List EvidenceQualification) : List ℚ :=
  (qualifications.filter (·.freshness = .fresh)).map (·.confidence)

namespace WorldModelPolicy

/-- `_qualify_evidence`. -/
def qualifyEvidence (policy : WorldModelPolicy) (now : Int) (evidence : StoredEvidence) :
    EvidenceQualification :=
  let age := max 0 (now - evidence.provenance.observedAt)
  let rule := policy.ruleFor evidence.record.sourceKind
  { evidenceId := evidence.record.evidenceId
    sourceKind := evidence.record.sourceKind
    citation := evidence.record.citation
    revision := evidence.record.revision
    observedAt := evidence.provenance.observedAt
    age := age
    confidence := rule.confidence
    freshness := if age ≤ rule.maxAge then .fresh else .stale }

/-- `_qualify_relationship`. -/
def qualifyRelationship (policy : WorldModelPolicy) (evidence : EvidenceDict) (principal : BrainPrincipal)
    (now : Int) (relationship : BrainRelationship) : RelationshipQualification :=
  let known := relationship.evidenceIds.filterMap evidence.get
  let authorized := known.filter (·.record.visibleTo principal)
  let qualifications := authorized.map (policy.qualifyEvidence now)
  let withheld := known.length - authorized.length
  let freshOnes := freshConfidences qualifications
  if qualifications = [] then
    { relationship, confidence := 0, freshness := .unknown, evidence := [],
      withheldEvidenceCount := withheld, usable := false,
      limitations := ["No authorized supporting evidence is available for this relationship."],
      conflicts := [] }
  else if freshOnes = [] then
    { relationship, confidence := 0, freshness := .stale, evidence := qualifications,
      withheldEvidenceCount := withheld, usable := false,
      limitations := ["Authorized supporting evidence is stale and is excluded from decision paths."],
      conflicts := [] }
  else
    let confidence := combineConfidence freshOnes
    { relationship, confidence, freshness := .fresh, evidence := qualifications,
      withheldEvidenceCount := withheld, usable := decide (policy.minimumConfidence ≤ confidence),
      limitations :=
        (if withheld ≠ 0 then ["Some supporting evidence is not authorized for this principal."] else []) ++
          (if qualifications.any (·.freshness = .stale) then
            ["Stale supporting evidence was excluded from the confidence calculation."] else []) ++
          (if confidence < policy.minimumConfidence then
            ["Fresh evidence confidence is below the decision threshold."] else []),
      conflicts := [] }

end WorldModelPolicy

/-- `_qualify_entity`. -/
def qualifyEntity (entity : BrainEntity) (relationships : RelationshipDict) : EntityQualification :=
  let supports := relationships.rows.filter fun item =>
    item.relationship.kind = .hasEvidence && item.relationship.sourceId = entity.entityId
  let qualifications := deduplicateEvidence (supports.flatMap (·.evidence))
  let freshOnes := freshConfidences qualifications
  if freshOnes ≠ [] then
    ⟨entity, combineConfidence freshOnes, .fresh, qualifications, []⟩
  else if qualifications ≠ [] then
    ⟨entity, 0, .stale, qualifications,
      ["Authorized entity evidence is stale and is not decision-usable."]⟩
  else
    ⟨entity, 0, .unknown, [], ["No authorized evidence directly supports this entity fact."]⟩

/-! ### Conflicts -/

def EdgeKey.reverse (k : EdgeKey) : EdgeKey := ⟨k.targetId, .dependsOn, k.sourceId⟩

/-- The cycle an assessment is the first edge of. -/
def cycleOf (byKey : RelationshipDict) (item : RelationshipQualification) : Option WorldModelConflict :=
  let key := item.key
  if key.kind ≠ .dependsOn ∨ item.usable = false then none
  else if (byKey.get key.reverse).all (!·.usable) ∨ key.reverse.order < key.order then none
  else
    let pair := sortedBy id [key.sourceId, key.targetId]
    some ⟨"dependency-cycle:" ++ ":".intercalate pair, .dependencyCycle, pair,
      sortedBy EdgeKey.order [key, key.reverse],
      "A direct dependency cycle has conflicting decision semantics and is excluded."⟩

/-- A usable assertion that an owner or a team owns something. -/
def ownsSomething (entities : EntityDict) (item : RelationshipQualification) : Bool :=
  item.relationship.kind = .owns && item.usable &&
    (entities.kindOf item.relationship.sourceId = some .owner ||
      entities.kindOf item.relationship.sourceId = some .team)

def ownershipOf (asserted : List RelationshipQualification) (serviceId : String) :
    Option WorldModelConflict :=
  let here := asserted.filter (·.relationship.targetId = serviceId)
  let owners := sortedSet (here.map (·.relationship.sourceId))
  if owners.length ≤ 1 then none
  else some ⟨"ambiguous-ownership:" ++ serviceId, .ambiguousOwnership, sortedBy id (serviceId :: owners),
    sortedBy EdgeKey.order (here.map (·.key)),
    "Multiple fresh owners are asserted; no single owner is inferred."⟩

def conflictIdsAt (conflicts : List WorldModelConflict) (key : EdgeKey) : List String :=
  conflicts.flatMap fun conflict =>
    (conflict.relationshipKeys.filter (· = key)).map fun _ => conflict.conflictId

/-- `_detect_conflicts`. -/
def detectConflicts (assessments : List RelationshipQualification) (entities : EntityDict) :
    List RelationshipQualification × List WorldModelConflict :=
  let byKey : RelationshipDict := assessments.foldl Table.put Table.empty
  let cycles := byKey.rows.filterMap (cycleOf byKey)
  let cycleKeys := cycles.flatMap (·.relationshipKeys)
  let asserted := byKey.rows.filter (ownsSomething entities)
  let conflicts := cycles ++
    (sortedSet (asserted.map (·.relationship.targetId))).filterMap (ownershipOf asserted)
  (assessments.map fun assessment =>
      { assessment with
        usable := if assessment.key ∈ cycleKeys then false else assessment.usable
        conflicts := sortedBy id (conflictIdsAt conflicts assessment.key) },
    sortedBy (·.conflictId) conflicts)

/-! ### The query -/

/-- A usable dependency between two services. -/
def serviceDependency (entities : EntityDict) (item : RelationshipQualification) : Bool :=
  item.usable && item.relationship.kind = .dependsOn &&
    entities.kindOf item.relationship.sourceId = some .service &&
    entities.kindOf item.relationship.targetId = some .service

/-- `incoming[current]`, in the order it is gone through. -/
def dependents (assessments : List RelationshipQualification) (entities : EntityDict) (current : String) :
    List String :=
  sortedSet ((assessments.filter fun item =>
    serviceDependency entities item && item.relationship.targetId = current).map (·.relationship.sourceId))

/-- `_blast_radius`. Each service is pushed once. -/
def blastRadius (changedServices : List String) (assessments : List RelationshipQualification)
    (entities : EntityDict) : List String :=
  sortedSet (worklist (dependents assessments entities) (changedServices.length + assessments.length)
    changedServices changedServices.reverse)

/-- `_context_limitations`. -/
def contextLimitations (requested scopedChanged : List String)
    (relevantRelationships : List RelationshipQualification) (conflicts : List WorldModelConflict) :
    List String :=
  ((if requested.any (· ∉ scopedChanged) then
      ["Some changed services lack authorized, fresh repository membership evidence."] else []) ++
    (if relevantRelationships.any (·.freshness = .stale) then
      ["Stale Company Brain relationships were excluded from decision paths."] else []) ++
    (if relevantRelationships.any (·.withheldEvidenceCount ≠ 0) then
      ["Some relevant Company Brain evidence is not authorized for this principal."] else []) ++
    (if relevantRelationships.any (!·.usable) then
      ["Some relevant Company Brain relationships are below the decision threshold or conflicted."]
      else []) ++
    (if conflicts ≠ [] then
      ["Company Brain conflicts require human review before relying on affected relationships."] else []) ++
    (if relevantRelationships.all (!·.usable) then
      ["No qualified Company Brain relationship is available for the requested context."]
      else [])).eraseDups

def worldModelProblem (tenantId : String) : Option String :=
  invalid (tenantId ≠ "" && !tenantId.toList.contains '\n') "tenant_id"

/-- `CompanyBrainWorldModel`, but for its store. -/
structure WorldModel where
  tenantId : String
  policy : WorldModelPolicy
  valid : worldModelProblem tenantId = none

/-- What a query asks; `clock` is the time at which it runs. -/
structure ChangeQuery where
  repositoryId : String
  changedServices : List String
  principal : BrainPrincipal
  now : Option PyDateTime
  clock : Int

/-- `_utc(now or datetime.now(timezone.utc), "now")`. -/
def ChangeQuery.when (query : ChangeQuery) : Except WorldModelError Int :=
  query.now.elim (.ok query.clock) (utc · "now")

/-- The services whose membership of the repository is usable. -/
def repositoryServices (repositoryId : String) (assessments : List RelationshipQualification)
    (entities : EntityDict) : List String :=
  (assessments.filter fun item =>
    item.usable && item.relationship.kind = .belongsTo && item.relationship.targetId = repositoryId &&
      entities.kindOf item.relationship.sourceId = some .service).map (·.relationship.sourceId)

def ownerIds (radius : List String) (assessments : List RelationshipQualification)
    (entities : EntityDict) : List String :=
  sortedSet ((assessments.filter fun item =>
    ownsSomething entities item && item.relationship.targetId ∈ radius).map (·.relationship.sourceId))

/-- A relationship with an end among some entities. -/
def RelationshipQualification.touches (item : RelationshipQualification) (entityIds : List String) : Bool :=
  item.relationship.sourceId ∈ entityIds || item.relationship.targetId ∈ entityIds

/-- The weakest usable relationship other than an evidence link. -/
def weakest (relationships : List RelationshipQualification) : ℚ :=
  (((relationships.filter fun item => item.usable && item.relationship.kind ≠ .hasEvidence).map
    (·.confidence)).min?).getD 0

/-- The query, once the records are at hand. -/
def WorldModel.assemble (model : WorldModel) (query : ChangeQuery) (entities : EntityDict)
    (evidence : EvidenceDict) (relationships : List BrainRelationship) (now : Int) :
    Except WorldModelError QualifiedWorldModelContext := do
  let (assessments, conflicts) := detectConflicts
    (relationships.map (model.policy.qualifyRelationship evidence query.principal now)) entities
  let byKey : RelationshipDict := assessments.foldl Table.put Table.empty
  let requested := sortedSet query.changedServices
  let scopedChanged := requested.filter (· ∈ repositoryServices query.repositoryId assessments entities)
  let radius := blastRadius scopedChanged assessments entities
  let owners := ownerIds radius assessments entities
  let contextEntityIds := sortedSet (query.repositoryId :: (scopedChanged ++ radius ++ owners))
  let relevantRelationships := assessments.filter (·.touches contextEntityIds)
  let entityQualifications ← contextEntityIds.mapM fun entityId =>
    (entities.item entityId).map (qualifyEntity · byKey)
  let relevantConflicts := conflicts.filter (·.entityIds.any (· ∈ contextEntityIds))
  return {
    tenantId := model.tenantId
    repositoryId := query.repositoryId
    changedServices := scopedChanged
    blastRadius := radius
    ownerIds := owners
    confidence := weakest relevantRelationships
    entities := entityQualifications
    relationships := relevantRelationships
    evidence := deduplicateEvidence (relevantRelationships.flatMap (·.evidence))
    conflicts := relevantConflicts
    limitations := contextLimitations requested scopedChanged relevantRelationships relevantConflicts }

/-- A read of the store as the query sees it. -/
def reads {α : Type} (answer : Except BrainError α) : Except WorldModelError α := answer.mapError .store

/-- `context_for_change`. -/
def WorldModel.contextForChange (model : WorldModel) (query : ChangeQuery) (s : Store) :
    Except WorldModelError QualifiedWorldModelContext := do
  let now ← query.when
  let stored ← reads (s.listEntities model.tenantId false)
  let entities : EntityDict := dictOf (stored.map (·.record))
  if entities.kindOf query.repositoryId ≠ some .repository then
    .error (.worldModel "repository_id does not identify an active repository in this tenant")
  else do
    let evidence ← reads (s.listEvidence model.tenantId false)
    let relationships ← reads (s.listRelationships model.tenantId false)
    model.assemble query entities (dictOf evidence) (relationships.map (·.record)) now

end EngineeringIntelligence.CompanyBrain
