import EngineeringIntelligence.CompanyBrain.Scope

namespace EngineeringIntelligence.CompanyBrain

open EngineeringIntelligence.Framework

/-! The product contract of a qualified context: evidence references and relationship claims that a
product may cite. -/

/-- `ProductContractError`. -/
structure ProductContractError where
  message : String
  deriving DecidableEq, Repr

/-- `_IDENTIFIER.fullmatch`. -/
def matchesIdentifier (value : String) : Bool :=
  match value.toList with
  | [] => false
  | c :: rest => c.isAlphanum && decide (rest.length ≤ 239) &&
      rest.all fun d => d.isAlphanum || d ∈ [':', '.', '_', '/', '@', '-']

/-- The test of `_identifier`. -/
def isIdentifier (value : String) : Bool := required 240 value && matchesIdentifier value

inductive EvidenceBasis where
  | measured | derived | modeled
  deriving DecidableEq, Repr

def referenceProblem (evidenceId sourceKind locator revision : String) (authorized : Bool) : Option String :=
  (invalid (isIdentifier evidenceId) "evidence_id").or
    ((invalid (required 80 sourceKind) "source_kind").or
      ((invalid (required 500 locator) "locator").or
        ((invalid (required 200 revision) "evidence revision").or
          (if authorized then none else some "unauthorized evidence cannot enter a product finding"))))

/-- An ACL-authorized pointer that a product can cite without copying content. -/
structure EvidenceReference where
  evidenceId : String
  sourceKind : String
  locator : String
  revision : String
  authorized : Bool
  valid : referenceProblem evidenceId sourceKind locator revision authorized = none
  deriving DecidableEq

def EvidenceReference.make (evidenceId sourceKind locator revision : String) (authorized : Bool) :
    Except ProductContractError EvidenceReference :=
  match h : referenceProblem evidenceId sourceKind locator revision authorized with
  | some message => .error ⟨message⟩
  | none => .ok ⟨evidenceId, sourceKind, locator, revision, authorized, h⟩

def bundleProblem (basis : EvidenceBasis) (references : List EvidenceReference) (limitations : List String) :
    Option String :=
  if references ≠ sortedBy (·.evidenceId) references then
    some "evidence references must be sorted by evidence_id"
  else if ¬ (references.map (·.evidenceId)).Nodup then some "evidence references must be unique"
  else if references = [] ∧ limitations = [] then some "missing evidence requires an explicit limitation"
  else if basis = .measured ∧ references = [] then some "measured evidence requires an authorized reference"
  else limitations.findSome? fun limitation => invalid (required 500 limitation) "evidence limitation"

/-- Evidence state is explicit even when a query yielded no usable reference. -/
structure EvidenceBundle where
  basis : EvidenceBasis
  references : List EvidenceReference
  limitations : List String
  valid : bundleProblem basis references limitations = none

def EvidenceBundle.make (basis : EvidenceBasis) (references : List EvidenceReference)
    (limitations : List String) : Except ProductContractError EvidenceBundle :=
  match h : bundleProblem basis references limitations with
  | some message => .error ⟨message⟩
  | none => .ok ⟨basis, references, limitations, h⟩

def claimProblem (sourceId sourceLabel : String) (relationship : RelationshipKind)
    (targetId targetLabel : String) (confidence : ℚ) (freshness : FactFreshness)
    (evidence : List EvidenceReference) : Option String :=
  (invalid (isIdentifier sourceId) "entity_id").or
    ((invalid (isIdentifier targetId) "entity_id").or
      (if sourceId = targetId then some "decision-context relationship endpoints must differ"
      else (invalid (required 300 sourceLabel) "decision-context source_label").or
        ((invalid (required 300 targetLabel) "decision-context target_label").or
          (if relationship = .hasEvidence then
            some "evidence links are not decision-context relationship claims"
          else if ¬ (0 < confidence ∧ confidence ≤ 1) then
            some "decision-context relationship confidence is invalid"
          else if freshness ≠ .fresh then some "decision-context relationship freshness must be fresh"
          else if evidence = [] then some "decision-context relationship requires authorized evidence"
          else if evidence ≠ sortedBy (·.evidenceId) evidence then
            some "decision-context relationship evidence must be sorted"
          else if ¬ (evidence.map (·.evidenceId)).Nodup then
            some "decision-context relationship evidence must be unique"
          else none))))

/-- One source-backed, decision-usable relationship claim. -/
structure DecisionContextRelationship where
  sourceId : String
  sourceLabel : String
  relationship : RelationshipKind
  targetId : String
  targetLabel : String
  confidence : ℚ
  freshness : FactFreshness
  evidence : List EvidenceReference
  valid : claimProblem sourceId sourceLabel relationship targetId targetLabel confidence freshness
    evidence = none
  deriving DecidableEq

def DecisionContextRelationship.make (sourceId sourceLabel : String) (relationship : RelationshipKind)
    (targetId targetLabel : String) (confidence : ℚ) (freshness : FactFreshness)
    (evidence : List EvidenceReference) : Except ProductContractError DecisionContextRelationship :=
  match h : claimProblem sourceId sourceLabel relationship targetId targetLabel confidence freshness
      evidence with
  | some message => .error ⟨message⟩
  | none => .ok ⟨sourceId, sourceLabel, relationship, targetId, targetLabel, confidence, freshness,
      evidence, h⟩

/-- What claims are told apart by. -/
def DecisionContextRelationship.key (r : DecisionContextRelationship) : EdgeKey :=
  ⟨r.sourceId, r.relationship, r.targetId⟩

/-- `_sorted_unique_texts`, as the message it fails with. -/
def sortedUniqueTexts (values : List String) (label : String) (maximum : Nat) : Option String :=
  if values ≠ sortedSet values then some (label ++ " must be sorted and unique")
  else values.findSome? fun value => invalid (required maximum value) label

def decisionProblem (contextVersion : String) (confidence : ℚ)
    (relationships : List DecisionContextRelationship) (limitations conflictIds : List String) :
    Option String :=
  (invalid (required 240 contextVersion) "decision-context context_version").or
    (if ¬ (0 ≤ confidence ∧ confidence ≤ 1) then some "decision-context confidence is invalid"
    else if relationships ≠ sortedBy (·.key.order) relationships then
      some "decision-context relationships must be sorted"
    else if ¬ (relationships.map (·.key)).Nodup then some "decision-context relationships must be unique"
    else (sortedUniqueTexts limitations "decision-context limitations" 500).or
      (sortedUniqueTexts conflictIds "decision-context conflict_ids" 240))

/-- A bounded explanation prepared for one authorized world-model query. -/
structure DecisionContext where
  contextVersion : String
  qualified : Bool
  confidence : ℚ
  relationships : List DecisionContextRelationship
  evidence : EvidenceBundle
  limitations : List String
  conflictIds : List String
  valid : decisionProblem contextVersion confidence relationships limitations conflictIds = none

def DecisionContext.make (contextVersion : String) (qualified : Bool) (confidence : ℚ)
    (relationships : List DecisionContextRelationship) (evidence : EvidenceBundle)
    (limitations conflictIds : List String) : Except ProductContractError DecisionContext :=
  match h : decisionProblem contextVersion confidence relationships limitations conflictIds with
  | some message => .error ⟨message⟩
  | none => .ok ⟨contextVersion, qualified, confidence, relationships, evidence, limitations,
      conflictIds, h⟩

def EvidenceQualification.reference (item : EvidenceQualification) :
    Except ProductContractError EvidenceReference :=
  EvidenceReference.make item.evidenceId item.sourceKind item.citation item.revision true

/-- `_relationship_from_qualification`; `labels` has the entities by their ids. -/
def relationshipFromQualification (labels : EntityDict) (qualification : RelationshipQualification) :
    Except ProductContractError (Option DecisionContextRelationship) :=
  let relationship := qualification.relationship
  if qualification.usable = false ∨ qualification.conflicts ≠ [] ∨ relationship.kind = .hasEvidence then
    .ok none
  else
    match Table.get labels relationship.sourceId, Table.get labels relationship.targetId with
    | some source, some target => do
      let evidence ← (qualification.evidence.filter (·.freshness = .fresh)).mapM (·.reference)
      if evidence = [] then return none
      let claim ← DecisionContextRelationship.make relationship.sourceId source.label relationship.kind
        relationship.targetId target.label qualification.confidence qualification.freshness
        (sortedBy (·.evidenceId) evidence)
      return some claim
    | _, _ => .ok none

/-- `_evidence_bundle`. -/
def evidenceBundle (context : QualifiedWorldModelContext) (limitations : List String) :
    Except ProductContractError EvidenceBundle := do
  let references ← context.evidence.mapM (·.reference)
  if references ≠ [] then
    EvidenceBundle.make .measured (sortedBy (·.evidenceId) references) limitations
  else
    EvidenceBundle.make .derived []
      (if limitations ≠ [] then limitations else ["No qualified Company Brain evidence was available."])

/-- `decision_context_from_world_model`. -/
def decisionContextFromWorldModel (context : QualifiedWorldModelContext) (contextVersion : String)
    (qualified : Bool) (limitations : List String) : Except ProductContractError DecisionContext := do
  let labels : EntityDict := dictOf (context.entities.map (·.entity))
  let claims ← context.relationships.mapM (relationshipFromQualification labels)
  let normalizedLimitations := sortedSet limitations
  let evidence ← evidenceBundle context normalizedLimitations
  DecisionContext.make contextVersion qualified context.confidence
    (sortedBy (·.key.order) (claims.filterMap id)) evidence normalizedLimitations
    (sortedBy id (context.conflicts.map (·.conflictId)))

/-! ### Packets

The bounded working subset of a decision context, as the receipts of an evidence read bind it. -/

/-- `ContextPacketError`. -/
structure ContextPacketError where
  message : String
  deriving DecidableEq, Repr

inductive ContextPacketSection where
  | relationships | evidence | limitations | conflicts
  deriving DecidableEq, Repr

inductive ContextPacketOmissionReason where
  | relationshipLimit | evidenceLimit | itemLimit | byteLimit
  deriving DecidableEq, Repr

/-- The limits of a consumer's working context. -/
structure ContextPacketBudget where
  maximumRelationships : Nat
  maximumEvidence : Nat
  maximumLimitations : Nat
  maximumConflicts : Nat
  maximumRenderedBytes : Nat
  relationships : 1 ≤ maximumRelationships ∧ maximumRelationships ≤ 100
  evidence : 1 ≤ maximumEvidence ∧ maximumEvidence ≤ 200
  limitations : 1 ≤ maximumLimitations ∧ maximumLimitations ≤ 100
  conflicts : 1 ≤ maximumConflicts ∧ maximumConflicts ≤ 100
  renderedBytes : 1024 ≤ maximumRenderedBytes ∧ maximumRenderedBytes ≤ 65536
  deriving DecidableEq

theorem default_relationships : 1 ≤ 20 ∧ 20 ≤ 100 := by decide

theorem default_evidence : 1 ≤ 40 ∧ 40 ≤ 200 := by decide

theorem default_rows : 1 ≤ 12 ∧ 12 ≤ 100 := by decide

/-- One counted omission. -/
structure ContextPacketOmission where
  packetSection : ContextPacketSection
  reason : ContextPacketOmissionReason
  count : Nat
  positive : 1 ≤ count
  deriving DecidableEq

/-- A bounded subset of one authorized decision context, with the digest of its canonical text. -/
structure ContextPacket where
  contextVersion : String
  qualified : Bool
  confidence : ℚ
  relationships : List DecisionContextRelationship
  evidence : List EvidenceReference
  limitations : List String
  conflictIds : List String
  omissions : List ContextPacketOmission
  budget : ContextPacketBudget
  digest : String
  deriving DecidableEq

/-- Whether the packet kept every section of the decision context. -/
def ContextPacket.complete (packet : ContextPacket) : Bool := packet.omissions.isEmpty

end EngineeringIntelligence.CompanyBrain
