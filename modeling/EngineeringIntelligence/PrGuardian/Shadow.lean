import EngineeringIntelligence.PrGuardian.Contracts

namespace EngineeringIntelligence.PrGuardian

open EngineeringIntelligence.Framework

/-! The record that crosses from the untrusted evaluation job to the trusted publisher. -/

structure ShadowEnforcement where
  wouldBlock : Bool
  reason : String
  rule : Option String
  waivedBy : Option String
  deriving DecidableEq, Repr

structure ArchitectureViolation where
  ruleId : String
  path : String
  marker : String
  rationale : String
  severity : Int
  deriving DecidableEq, Repr

structure ArchitectureSkip where
  path : String
  reason : String
  deriving DecidableEq, Repr

structure ArchitectureReview where
  violations : List ArchitectureViolation
  inScope : Int
  reviewed : Int
  skipped : List ArchitectureSkip
  summary : String
  deriving DecidableEq, Repr

structure ShadowSubject where
  repository : String
  prNumber : Int
  headSha : String
  action : String
  deriving DecidableEq, Repr

structure ShadowRiskFactor where
  name : String
  points : Int
  evidence : String
  deriving DecidableEq, Repr

structure ShadowAssessment where
  score : Int
  band : String
  factors : List ShadowRiskFactor
  deriving DecidableEq, Repr

structure SimulatedPolicy where
  wouldRequireExtendedTests : Bool
  wouldRequireAdditionalApproval : Bool
  wouldBlock : Bool
  deriving DecidableEq, Repr

structure ShadowWorkflow where
  id : String
  auditChainVerified : Bool
  deriving DecidableEq, Repr

structure ShadowObservation where
  mode : ProductMode
  enforcement : ShadowEnforcement
  architecture : ArchitectureReview
  observedAt : String
  subject : ShadowSubject
  assessment : ShadowAssessment
  changedServices : List String
  simulatedPolicy : SimulatedPolicy
  workflow : ShadowWorkflow
  deriving DecidableEq, Repr

def schemaVersion : Int := 1

def observationKind : String := "pr-guardian-shadow-observation"

def bands : List String := ["low", "moderate", "high", "critical"]

/-! Field readers; the error is the text of their `ValueError`. -/

/-- `_exact_keys`. -/
def exactKeys (value : List (String × Json)) (expected : List String) (name : String) :
    Except String Unit :=
  if (value.all fun f => expected.contains f.1) &&
      expected.all fun k => value.any fun f => f.1 = k then .ok ()
  else .error (name ++ " has unexpected or missing fields")

/-- `_mapping`. -/
def mapping (value : Json) (name : String) : Except String (List (String × Json)) :=
  match value with
  | .obj fields => .ok fields
  | _ => .error (name ++ " must be an object")

/-- `_string`. -/
def string (value : Json) (name : String) (maximum : Nat) : Except String String :=
  match value with
  | .str s => if s = "" ∨ maximum < s.length then .error (name ++ " is invalid") else .ok s
  | _ => .error (name ++ " is invalid")

/-- `_optional_string`. -/
def optionalString (value : Json) (name : String) (maximum : Nat) :
    Except String (Option String) :=
  match value with
  | .null => .ok none
  | value => (string value name maximum).map some

/-- `_integer`; a bool is no integer here. -/
def integer (value : Json) (name : String) (minimum maximum : Int) : Except String Int :=
  match value with
  | .int n => if minimum ≤ n ∧ n ≤ maximum then .ok n else .error (name ++ " is invalid")
  | _ => .error (name ++ " is invalid")

/-- `_boolean`. -/
def boolean (value : Json) (name : String) : Except String Bool :=
  match value with
  | .bool b => .ok b
  | _ => .error (name ++ " is invalid")

/-- A list of records, each read under the name that carries its index. -/
def records {α : Type} (read : String → Json → Except String α) (name : String) :
    Nat → List Json → Except String (List α)
  | _, [] => .ok []
  | index, item :: items => do
    let first ← read (name ++ "[" ++ toString index ++ "]") item
    let rest ← records read name (index + 1) items
    .ok (first :: rest)

/-- A JSON list of at most `maximum` records. -/
def recordList {α : Type} (read : String → Json → Except String α) (name : String)
    (maximum : Nat) (value : Json) : Except String (List α) :=
  match value with
  | .arr items =>
    if maximum < items.length then .error (name ++ " is invalid") else records read name 0 items
  | _ => .error (name ++ " is invalid")

/-! Validation, section by section. -/

/-- `_shadow_mode`. -/
def shadowMode (value : Json) : Except String ProductMode := do
  let text ← string value "mode" 20
  match ProductMode.ofValue text with
  | some m => .ok m
  | none => .error "mode is invalid"

def validateEnforcement (value : Json) (mode : ProductMode) : Except String ShadowEnforcement := do
  let raw ← mapping value "enforcement"
  exactKeys raw ["would_block", "reason", "rule", "waived_by"] "enforcement"
  let wouldBlock ← boolean (Json.get raw "would_block") "enforcement.would_block"
  let reason ← string (Json.get raw "reason") "enforcement.reason" 120
  let rule ← optionalString (Json.get raw "rule") "enforcement.rule" 120
  let waivedBy ← optionalString (Json.get raw "waived_by") "enforcement.waived_by" 200
  if wouldBlock = true ∧ rule = none then
    .error "enforcement.rule is required when enforcement.would_block is true"
  else if wouldBlock = true ∧ mode ≠ .enforce then
    .error "enforcement.would_block is allowed only in enforce mode"
  else .ok ⟨wouldBlock, reason, rule, waivedBy⟩

def validateArchitectureViolation (name : String) (item : Json) :
    Except String ArchitectureViolation := do
  let raw ← mapping item name
  exactKeys raw ["rule_id", "path", "marker", "rationale", "severity"] name
  let ruleId ← string (Json.get raw "rule_id") (name ++ ".rule_id") 120
  let path ← string (Json.get raw "path") (name ++ ".path") 400
  let marker ← string (Json.get raw "marker") (name ++ ".marker") 400
  let rationale ← string (Json.get raw "rationale") (name ++ ".rationale") 500
  let severity ← integer (Json.get raw "severity") (name ++ ".severity") 1 5
  .ok ⟨ruleId, path, marker, rationale, severity⟩

def validateArchitectureSkip (name : String) (item : Json) : Except String ArchitectureSkip := do
  let raw ← mapping item name
  exactKeys raw ["path", "reason"] name
  let path ← string (Json.get raw "path") (name ++ ".path") 400
  let reason ← string (Json.get raw "reason") (name ++ ".reason") 200
  .ok ⟨path, reason⟩

/-- `{**defaults, **fields}`. -/
def withDefaults (defaults fields : List (String × Json)) : List (String × Json) :=
  defaults.map (fun d => (d.1, (fields.lookup d.1).getD d.2)) ++
    fields.filter (fun f => defaults.all fun d => d.1 ≠ f.1)

def coverageDefaults : List (String × Json) :=
  [("in_scope", .int 0), ("reviewed", .int 0), ("skipped", .arr [])]

def validateArchitecture (value : Json) : Except String ArchitectureReview := do
  let given ← mapping value "architecture"
  let raw := withDefaults coverageDefaults given
  exactKeys raw ["violations", "in_scope", "reviewed", "skipped", "summary"] "architecture"
  let violations ← recordList validateArchitectureViolation "architecture.violations" 64
    (Json.get raw "violations")
  let skipped ← recordList validateArchitectureSkip "architecture.skipped" 64
    (Json.get raw "skipped")
  let reviewed ← integer (Json.get raw "reviewed") "architecture.reviewed" 0 10000
  let inScope ← integer (Json.get raw "in_scope") "architecture.in_scope" 0 10000
  if inScope < reviewed then
    .error "architecture.reviewed cannot exceed architecture.in_scope"
  else if violations ≠ [] ∧ reviewed = 0 then
    .error "architecture.violations requires at least one reviewed file"
  else do
    let summary ← string (Json.get raw "summary") "architecture.summary" 500
    .ok ⟨violations, inScope, reviewed, skipped, summary⟩

def validateObservationSubject (value : Json) : Except String ShadowSubject := do
  let raw ← mapping value "subject"
  exactKeys raw ["repository", "pr_number", "head_sha", "action"] "subject"
  let repository ← string (Json.get raw "repository") "subject.repository" 200
  if isRepositoryName repository then
    let headSha ← string (Json.get raw "head_sha") "subject.head_sha" 64
    if isSha headSha then
      let prNumber ← integer (Json.get raw "pr_number") "subject.pr_number" 1 1000000000
      let action ← string (Json.get raw "action") "subject.action" 64
      .ok ⟨repository, prNumber, asciiLower headSha, action⟩
    else .error "subject.head_sha is invalid"
  else .error "subject.repository is invalid"

def validateRiskFactor (name : String) (item : Json) : Except String ShadowRiskFactor := do
  let raw ← mapping item name
  exactKeys raw ["name", "points", "evidence"] name
  let factor ← string (Json.get raw "name") (name ++ ".name") 120
  let points ← integer (Json.get raw "points") (name ++ ".points") 0 100
  let evidence ← string (Json.get raw "evidence") (name ++ ".evidence") 500
  .ok ⟨factor, points, evidence⟩

def validateAssessment (value : Json) : Except String ShadowAssessment := do
  let raw ← mapping value "assessment"
  exactKeys raw ["score", "band", "factors"] "assessment"
  let band ← string (Json.get raw "band") "assessment.band" 20
  if band ∈ bands then
    let score ← integer (Json.get raw "score") "assessment.score" 0 100
    let factors ← recordList validateRiskFactor "assessment.factors" 32 (Json.get raw "factors")
    .ok ⟨score, band, factors⟩
  else .error "assessment.band is invalid"

def validateChangedServices (value : Json) : Except String (List String) := do
  match value with
  | .arr items =>
    if 64 < items.length then .error "changed_services is invalid"
    else
      let services ← items.mapM (fun item => string item "changed_services item" 120)
      if services.Pairwise (· < ·) then .ok services
      else .error "changed_services must be sorted and unique"
  | _ => .error "changed_services is invalid"

def validateSimulatedPolicy (value : Json) : Except String SimulatedPolicy := do
  let raw ← mapping value "simulated_policy"
  exactKeys raw ["would_require_extended_tests", "would_require_additional_approval",
    "would_block"] "simulated_policy"
  let tests ← boolean (Json.get raw "would_require_extended_tests")
    "simulated_policy.would_require_extended_tests"
  let approval ← boolean (Json.get raw "would_require_additional_approval")
    "simulated_policy.would_require_additional_approval"
  let block ← boolean (Json.get raw "would_block") "simulated_policy.would_block"
  .ok ⟨tests, approval, block⟩

def validateWorkflow (value : Json) : Except String ShadowWorkflow := do
  let raw ← mapping value "workflow"
  exactKeys raw ["id", "audit_chain_verified"] "workflow"
  let id ← string (Json.get raw "id") "workflow.id" 240
  let verified ← boolean (Json.get raw "audit_chain_verified") "workflow.audit_chain_verified"
  .ok ⟨id, verified⟩

/-- The sections an older record may leave out. -/
def envelopeDefaults : List (String × Json) :=
  [("enforcement", .obj [("would_block", .bool false), ("reason", .str "mode-not-enforcing"),
      ("rule", .null), ("waived_by", .null)]),
    ("architecture", .obj [("violations", .arr []), ("in_scope", .int 0), ("reviewed", .int 0),
      ("skipped", .arr []),
      ("summary", .str "Architecture Guard did not run for this evaluation.")])]

/-- `value == SCHEMA_VERSION`: Python's `True` and `1.0` are equal to 1 as well. -/
def equalsSchemaVersion : Json → Bool
  | .int n => n = schemaVersion
  | .bool b => b
  | .float r => r = "1.0"
  | _ => false

def equalsText (text : String) : Json → Bool
  | .str s => s = text
  | _ => false

def observationFields : List String := ["schema_version", "kind", "mode", "enforcement",
  "architecture", "observed_at", "subject", "assessment", "changed_services", "simulated_policy",
  "workflow"]

/-- `_observation_envelope`. -/
def observationEnvelope (value : List (String × Json)) : Except String (List (String × Json)) := do
  let envelope := withDefaults envelopeDefaults value
  exactKeys envelope observationFields "shadow observation"
  if equalsSchemaVersion (Json.get envelope "schema_version") &&
      equalsText observationKind (Json.get envelope "kind") then .ok envelope
  else .error "unsupported shadow observation schema"

/-- Validate and normalize one untrusted workflow-transfer observation. -/
def validateObservation (value : List (String × Json)) : Except String ShadowObservation := do
  let envelope ← observationEnvelope value
  let mode ← shadowMode (Json.get envelope "mode")
  let enforcement ← validateEnforcement (Json.get envelope "enforcement") mode
  let architecture ← validateArchitecture (Json.get envelope "architecture")
  let observedAt ← string (Json.get envelope "observed_at") "observed_at" 80
  let subject ← validateObservationSubject (Json.get envelope "subject")
  let assessment ← validateAssessment (Json.get envelope "assessment")
  let changedServices ← validateChangedServices (Json.get envelope "changed_services")
  let simulatedPolicy ← validateSimulatedPolicy (Json.get envelope "simulated_policy")
  let workflow ← validateWorkflow (Json.get envelope "workflow")
  .ok ⟨mode, enforcement, architecture, observedAt, subject, assessment, changedServices,
    simulatedPolicy, workflow⟩

/-! The normalized observation as the dict it is. -/

def ShadowEnforcement.asDict (e : ShadowEnforcement) : Json :=
  .obj [("would_block", .bool e.wouldBlock), ("reason", .str e.reason),
    ("rule", Json.optStr e.rule), ("waived_by", Json.optStr e.waivedBy)]

def ArchitectureViolation.asDict (v : ArchitectureViolation) : Json :=
  .obj [("rule_id", .str v.ruleId), ("path", .str v.path), ("marker", .str v.marker),
    ("rationale", .str v.rationale), ("severity", .int v.severity)]

def ArchitectureSkip.asDict (s : ArchitectureSkip) : Json :=
  .obj [("path", .str s.path), ("reason", .str s.reason)]

def ArchitectureReview.asDict (r : ArchitectureReview) : Json :=
  .obj [("violations", .arr (r.violations.map ArchitectureViolation.asDict)),
    ("in_scope", .int r.inScope), ("reviewed", .int r.reviewed),
    ("skipped", .arr (r.skipped.map ArchitectureSkip.asDict)), ("summary", .str r.summary)]

def ShadowSubject.asDict (s : ShadowSubject) : Json :=
  .obj [("repository", .str s.repository), ("pr_number", .int s.prNumber),
    ("head_sha", .str s.headSha), ("action", .str s.action)]

def ShadowRiskFactor.asDict (f : ShadowRiskFactor) : Json :=
  .obj [("name", .str f.name), ("points", .int f.points), ("evidence", .str f.evidence)]

def ShadowAssessment.asDict (a : ShadowAssessment) : Json :=
  .obj [("score", .int a.score), ("band", .str a.band),
    ("factors", .arr (a.factors.map ShadowRiskFactor.asDict))]

def SimulatedPolicy.asDict (p : SimulatedPolicy) : Json :=
  .obj [("would_require_extended_tests", .bool p.wouldRequireExtendedTests),
    ("would_require_additional_approval", .bool p.wouldRequireAdditionalApproval),
    ("would_block", .bool p.wouldBlock)]

def ShadowWorkflow.asDict (w : ShadowWorkflow) : Json :=
  .obj [("id", .str w.id), ("audit_chain_verified", .bool w.auditChainVerified)]

def ShadowObservation.asDict (o : ShadowObservation) : List (String × Json) :=
  [("schema_version", .int schemaVersion), ("kind", .str observationKind),
    ("mode", .str o.mode.value), ("enforcement", o.enforcement.asDict),
    ("architecture", o.architecture.asDict), ("observed_at", .str o.observedAt),
    ("subject", o.subject.asDict), ("assessment", o.assessment.asDict),
    ("changed_services", .arr (o.changedServices.map .str)),
    ("simulated_policy", o.simulatedPolicy.asDict), ("workflow", o.workflow.asDict)]

end EngineeringIntelligence.PrGuardian
