import EngineeringIntelligence.CompanyBrain.PacketSelection
import EngineeringIntelligence.CompanyBrain.Projector
import EngineeringIntelligence.CompanyBrain.Queries
import EngineeringIntelligence.Framework.UtcInstant
import EngineeringIntelligence.Intelligence.Graph

namespace EngineeringIntelligence.PrGuardian.Company

open CompanyBrain Framework Intelligence Topology

/-! The context a pull request is assessed on, from the in-memory company brain or from the world model. -/

/-! ### The health of a context -/

inductive ContextHealthState where
  | ready | limited | conflicted | unqualified
  deriving DecidableEq, Repr

inductive ContextHealthIssueKind where
  | contextUnqualified | packetOmission | limitation | conflict
  deriving DecidableEq, Repr

def ContextHealthIssueKind.value : ContextHealthIssueKind → String
  | contextUnqualified => "context_unqualified"
  | packetOmission => "packet_omission"
  | limitation => "limitation"
  | conflict => "conflict"

/-- What the construction of a context raises, by where it comes from. -/
inductive ContextError where
  | query (x : QueryError)
  | worldModel (x : WorldModelError)
  | contract (x : ProductContractError)
  | packet (x : ContextPacketError)
  | health (message : String)
  deriving DecidableEq, Repr

def issueProblem (count : Nat) (message : String) : Option String :=
  if count < 1 then some "context health issue count must be a positive integer"
  else invalid (CompanyBrain.required 500 message) "context health issue message"

structure ContextHealthIssue where
  kind : ContextHealthIssueKind
  count : Nat
  message : String
  valid : issueProblem count message = none
  deriving DecidableEq

def ContextHealthIssue.make (kind : ContextHealthIssueKind) (count : Nat) (message : String) :
    Except ContextError ContextHealthIssue :=
  match h : issueProblem count message with
  | some problem => .error (.health problem)
  | none => .ok ⟨kind, count, message, h⟩

def reportProblem (contextVersion contextPacketDigest : String) (issues : List ContextHealthIssue) : Option String :=
  (invalid (contextVersion ≠ "" && contextVersion.toList.length ≤ 240) "context health context_version").or
    ((invalid ("sha256:".toList.isPrefixOf contextPacketDigest.toList) "context health context_packet_digest").or
      (if issues ≠ sortedBy (·.kind.value) issues then some "context health issues must be sorted"
      else if ¬ (issues.map (·.kind)).Nodup then some "context health issues must be unique by kind"
      else none))

structure ContextHealthReport where
  contextVersion : String
  contextPacketDigest : String
  state : ContextHealthState
  issues : List ContextHealthIssue
  qualifiedRelationshipCount : Nat
  retainedEvidenceCount : Nat
  valid : reportProblem contextVersion contextPacketDigest issues = none

def ContextHealthReport.make (contextVersion contextPacketDigest : String) (state : ContextHealthState)
    (issues : List ContextHealthIssue) (qualifiedRelationshipCount retainedEvidenceCount : Nat) :
    Except ContextError ContextHealthReport :=
  match h : reportProblem contextVersion contextPacketDigest issues with
  | some problem => .error (.health problem)
  | none => .ok ⟨contextVersion, contextPacketDigest, state, issues, qualifiedRelationshipCount,
      retainedEvidenceCount, h⟩

/-- `_state`. -/
def healthState (context : DecisionContext) (packet : ContextPacket) : ContextHealthState :=
  if context.qualified = false then .unqualified
  else if context.conflictIds ≠ [] then .conflicted
  else if packet.omissions ≠ [] ∨ context.limitations ≠ [] then .limited
  else .ready

/-- `_omission_message`. -/
def omissionMessage (sections : List String) : String :=
  "The packet omitted bounded " ++ ", ".intercalate sections ++ " material; it cannot be treated as complete."

/-- The issue of one kind, when there is something to count. -/
def issueWhen (present : Bool) (kind : ContextHealthIssueKind) (count : Nat) (message : String) :
    Except ContextError (List ContextHealthIssue) :=
  if present then (ContextHealthIssue.make kind count message).map ([·]) else .ok []

def contextHealthReport (context : DecisionContext) (packet : ContextPacket) :
    Except ContextError ContextHealthReport :=
  if packet.contextVersion ≠ context.contextVersion then
    .error (.health "context health packet context_version does not match the Decision Context")
  else if packet.qualified ≠ context.qualified then
    .error (.health "context health packet qualification does not match the Decision Context")
  else do
    let unqualified ← issueWhen (!context.qualified) .contextUnqualified 1
      "The qualified world-model policy did not admit this context to a decision path."
    let sections := sortedSet (packet.omissions.map (·.packetSection.value))
    let omitted ← issueWhen (packet.omissions ≠ []) .packetOmission (packet.omissions.map (·.count)).sum
      (omissionMessage sections)
    let limited ← issueWhen (context.limitations ≠ []) .limitation context.limitations.length
      "The qualified context includes explicit evidence, freshness, or scope limitations."
    let conflicted ← issueWhen (context.conflictIds ≠ []) .conflict context.conflictIds.length
      "Conflicting Company Brain facts require human review before use."
    ContextHealthReport.make context.contextVersion packet.digest (healthState context packet)
      (sortedBy (·.kind.value) (unqualified ++ omitted ++ limited ++ conflicted)) packet.relationships.length
      packet.evidence.length

/-! ### Contexts -/

structure PRGuardianCompanyContext where
  changedServices : List String
  blastRadius : List String
  ownerIds : List String
  graph : ServiceGraph
  decisionContext : DecisionContext
  contextPacket : ContextPacket
  contextHealth : ContextHealthReport

theorem default_bytes : 1024 ≤ 12000 ∧ 12000 ≤ 65536 := by decide

/-- `DEFAULT_CONTEXT_PACKET_BUDGET`. -/
def defaultContextPacketBudget : ContextPacketBudget :=
  ⟨20, 40, 12, 12, 12000, default_relationships, default_evidence, default_rows, default_rows, default_bytes⟩

section
variable (int : String → Option Int) (floatRepr : ℚ → String) (sha256 : String → String)

/-- `_tier`, where `int` is `int(value)`, nothing when it raises `ValueError`. -/
def tier (value : Option String) : Int :=
  match int ((truthy value).getD "3") with
  | some n => if n ∈ [1, 2, 3] then n else 3
  | none => 3

/-- `entity.metadata.get("tier")`. -/
def tierAttribute (entity : BrainEntity) : Option String := entity.attributes.lookup "tier"

/-- The packet of a decision context within the default budget. -/
def packetOf (decisionContext : DecisionContext) : Except ContextError ContextPacket :=
  (contextPacketFromDecisionContext floatRepr sha256 decisionContext defaultContextPacketBudget).mapError .packet

/-! ### The in-memory adapter -/

section
variable (b : CompanyBrain)

/-- A service of the repository, as a node that lists its dependencies within the repository. -/
def repositoryNode (known : List String) (service : String) : Except QueryError ServiceNode := do
  let entity ← b.entityAt service
  let targets ← ((b.outgoing service .dependsOn).filter (·.targetId ∈ known)).mapM fun r => b.entityAt r.targetId
  let owners ← b.ownerIdsForService service
  let owner ← match owners with
    | [] => .ok none
    | first :: _ => (b.entityAt first).map fun e => some e.label
  return ⟨entity.label, tier int (tierAttribute entity), owner, sortedBy id (targets.map (·.label))⟩

/-- `_service_graph`. -/
def serviceGraph (repositoryId : String) : Except QueryError ServiceGraph :=
  if (b.entities.get repositoryId).isNone then
    .error (.companyBrain "repository is not present in the Company Brain")
  else do
    let services ← b.servicesForRepository repositoryId
    let nodes ← services.mapM (repositoryNode int b services)
    return nodes.foldl ServiceGraph.add ServiceGraph.empty

/-- `_legacy_decision_context`. -/
def legacyDecisionContext (evidence : EvidenceBundle) (limitations : List String) :
    Except ProductContractError DecisionContext :=
  DecisionContext.make "legacy-company-brain-v1" false 0 [] evidence
    (sortedSet (if limitations ≠ [] then limitations
      else ["Legacy Company Brain context is not freshness-qualified."])) []

/-- The bundle of some references: without any, what is known to be missing. -/
def legacyBundle (references : List EvidenceReference) (limitations : List String) :
    Except ProductContractError EvidenceBundle :=
  if references ≠ [] then EvidenceBundle.make .measured references limitations
  else EvidenceBundle.make .derived []
    (if limitations ≠ [] then limitations else ["No authorized Company Brain evidence was available."])

/-- The evidence of the in-memory adapter. -/
def legacyEvidence (evidence : List BrainEvidence) (limitations : List String) :
    Except ProductContractError EvidenceBundle := do
  let references ← evidence.mapM fun v =>
    EvidenceReference.make v.evidenceId v.sourceKind v.citation v.revision true
  legacyBundle references limitations

/-- `PRGuardianCompanyBrainAdapter.context_for`. -/
def brainContextFor (provider repository : String) (changedServices : List String) (principal : BrainPrincipal) :
    Except ContextError PRGuardianCompanyContext := do
  let repo := repositoryId provider repository
  let core ← (b.contextForChange repo (changedServices.map serviceId) principal).mapError .query
  let evidence ← (legacyEvidence core.evidence core.limitations).mapError .contract
  let graph ← (serviceGraph int b repo).mapError .query
  let decisionContext ← (legacyDecisionContext evidence core.limitations).mapError .contract
  let packet ← packetOf floatRepr sha256 decisionContext
  let changed ← (core.changedServices.mapM b.entityAt).mapError .query
  let radius ← (core.blastRadius.mapM b.entityAt).mapError .query
  let health ← contextHealthReport decisionContext packet
  return ⟨changed.map (·.label), radius.map (·.label), core.ownerIds, graph, decisionContext, packet, health⟩

end

/-! ### The world-model adapter -/

section
variable (context : QualifiedWorldModelContext)

/-- The entities of a context under their ids. -/
def contextEntities : EntityDict := dictOf (context.entities.map (·.entity))

/-- `_entity_labels`. -/
def entityLabels (entityIds : List String) : List String :=
  sortedBy id (entityIds.filterMap fun item => (Table.get (contextEntities context) item).map (·.label))

/-- The services the graph is made of. -/
def graphServices : List String :=
  (sortedSet (context.changedServices ++ context.blastRadius)).filter fun id =>
    (contextEntities context).kindOf id = some .service

/-- `dependencies[service]`, in order. -/
def dependencyIds (service : String) : List String :=
  sortedSet ((context.relationships.filter fun item =>
    item.usable && item.relationship.kind = .dependsOn && item.relationship.sourceId = service &&
      item.relationship.targetId ∈ graphServices context).map (·.relationship.targetId))

/-- `owners[service]`, in order. -/
def graphOwners (service : String) : List String :=
  sortedSet ((context.relationships.filter fun item =>
    item.usable && item.relationship.kind = .owns && item.relationship.targetId = service).map
      (·.relationship.sourceId))

/-- The owner, unless the evidence yields an ambiguity. -/
def singleOwner (service : String) : Option String :=
  match graphOwners context service with
  | [owner] => (Table.get (contextEntities context) owner).map (·.label)
  | _ => none

/-- A service of the graph as a node; the services all have their entities. -/
def contextNode (service : String) : Option ServiceNode :=
  (Table.get (contextEntities context) service).map fun entity =>
    ⟨entity.label, tier int (tierAttribute entity), singleOwner context service,
      sortedBy id ((dependencyIds context service).filterMap fun item =>
        (Table.get (contextEntities context) item).map (·.label))⟩

/-- `_graph`. -/
def contextGraph : ServiceGraph :=
  ((graphServices context).filterMap (contextNode int context)).foldl ServiceGraph.add ServiceGraph.empty

end

/-- `observed_at.isoformat()` of a time in UTC. -/
def instantText (n : Int) : String := ((UtcTime.ofInstant n).map (·.isoformat)).getD ""

section
variable (context : QualifiedWorldModelContext)

/-- What the fingerprint of a context is taken of. -/
def versionPayload : Json :=
  .obj [("tenant_id", .str context.tenantId), ("repository_id", .str context.repositoryId),
    ("changed_services", .arr (context.changedServices.map .str)),
    ("blast_radius", .arr (context.blastRadius.map .str)), ("owner_ids", .arr (context.ownerIds.map .str)),
    ("confidence", .float (floatRepr context.confidence)),
    ("relationships", .arr (context.relationships.map fun item =>
      .obj [("source", .str item.relationship.sourceId), ("kind", .str item.relationship.kind.value),
        ("target", .str item.relationship.targetId), ("confidence", .float (floatRepr item.confidence)),
        ("freshness", .str (item.freshness.value)), ("usable", .bool item.usable)])),
    ("evidence", .arr (context.evidence.map fun item =>
      .obj [("id", .str item.evidenceId), ("source_kind", .str item.sourceKind), ("citation", .str item.citation),
        ("observed_at", .str (instantText item.observedAt)), ("freshness", .str (item.freshness.value))])),
    ("conflicts", .arr (context.conflicts.map fun item => .str item.conflictId)),
    ("limitations", .arr (context.limitations.map .str))]

/-- `_context_version`. -/
def contextVersion : String := "world-model:v1:" ++ sha256 (versionPayload floatRepr context).dumps

/-- Whether the context supports a decision. -/
def contextQualified (model : WorldModel) : Bool :=
  context.changedServices ≠ [] && context.evidence ≠ [] && model.policy.minimumConfidence ≤ context.confidence &&
    context.conflicts = [] && context.limitations.eraseDups = []

/-- The limitations of the query or, when there are none, that the context is insufficient. -/
def statedLimitations (model : WorldModel) : List String :=
  if contextQualified context model = false ∧ context.limitations.eraseDups = [] then
    ["Company Brain context is insufficient for a control decision."]
  else context.limitations.eraseDups

/-- The decision context of a world-model context. -/
def worldDecisionContext (model : WorldModel) : Except ProductContractError DecisionContext :=
  decisionContextFromWorldModel context (contextVersion floatRepr sha256 context)
    (contextQualified context model) (statedLimitations context model)

end

/-- `PRGuardianWorldModelAdapter.context_for`; `clock` is the time of the query. -/
def worldContextFor (model : WorldModel) (s : Store) (clock : Int) (provider repository : String)
    (changedServices : List String) (principal : BrainPrincipal) :
    Except ContextError PRGuardianCompanyContext := do
  let context ← (model.contextForChange
    ⟨repositoryId provider repository, sortedSet (changedServices.map serviceId), principal, none, clock⟩ s).mapError
      .worldModel
  let decisionContext ← (worldDecisionContext floatRepr sha256 context model).mapError .contract
  let packet ← packetOf floatRepr sha256 decisionContext
  let health ← contextHealthReport decisionContext packet
  return ⟨entityLabels context context.changedServices, entityLabels context context.blastRadius, context.ownerIds,
    contextGraph int context, decisionContext, packet, health⟩

end

end EngineeringIntelligence.PrGuardian.Company
