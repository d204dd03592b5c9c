import EngineeringIntelligence.Framework.PyJson
import EngineeringIntelligence.Validation.EvidenceRecords

namespace EngineeringIntelligence.Validation

open EngineeringIntelligence.Framework

/-! Production readiness, as it is read from an evidence registry. -/

inductive ReadinessArea where
  | integrations | identity | reliability | security | observability | data | l3
  deriving DecidableEq, Repr

def ReadinessArea.value : ReadinessArea → String
  | integrations => "integrations"
  | identity => "identity"
  | reliability => "reliability"
  | security => "security"
  | observability => "observability"
  | data => "data"
  | l3 => "l3-certification"

def readinessAreas : List (String × ReadinessArea) :=
  [("real-source-integration", .integrations), ("entra-production-auth", .identity),
    ("private-network-path", .security), ("ha-state-backend", .data), ("backup-restore-drill", .data),
    ("audit-export", .security), ("security-adversarial-suite", .security), ("control-plane-slo", .observability),
    ("production-like-soak", .reliability), ("rollback-drill", .reliability), ("kill-switch-drill", .reliability),
    ("independent-verification", .l3)]

structure ReadinessEvidence where
  key : String
  area : ReadinessArea
  passed : Bool
  evidenceRef : String

/-! ### Reading the registry -/

/-- `_record_key`. -/
def recordKey (fields : List (String × Json)) : Option String :=
  match Json.get fields "readiness_key" with
  | .str key => if key ∈ requiredKeys then some key else none
  | _ => none

/-- `_record_passed`. -/
def recordPassed (fields : List (String × Json)) : Bool :=
  match Json.get fields "result" with
  | .str result => isPass result
  | _ => false

/-- `_record_reference`: the first artifact that is not blank. -/
def recordReference (fields : List (String × Json)) : String :=
  match Json.get fields "artifacts" with
  | .arr items => (((texts items).map strip).find? (· ≠ "")).getD ""
  | _ => ""

/-- `readiness_evidence_from_record`. -/
def readinessEvidenceFromRecord (fields : List (String × Json)) : Option ReadinessEvidence :=
  (recordKey fields).bind fun key => (readinessAreas.lookup key).map fun area =>
    { key, area, passed := recordPassed fields, evidenceRef := recordReference fields }

/-- A file of the registry: what is wrong with its text, or the value in it. -/
structure RegistryFile where
  name : String
  content : Except String Json

/-- The records of a file. -/
def RegistryFile.records (file : RegistryFile) : List Json :=
  match file.content with
  | .error _ => []
  | .ok (.arr items) => items
  | .ok value => [value]

structure ReadinessEvidenceLoad where
  evidence : List ReadinessEvidence
  filesRead : Nat
  ignored : List String

/-- What a value of the registry says of readiness, or why it is ignored. -/
def readRecord : Json → Except String ReadinessEvidence
  | .obj fields =>
    match readinessEvidenceFromRecord fields with
    | none => .error "carries no readiness_key naming a required item"
    | some item => .ok item
  | _ => .error "not a JSON object"

/-- `load_readiness_evidence`; `none` is a directory that does not exist. -/
def loadReadinessEvidence (directory : Option (List RegistryFile)) : ReadinessEvidenceLoad :=
  let files := sortedBy (·.name) (directory.getD [])
  { evidence := (files.flatMap (·.records)).filterMap fun record => (readRecord record).toOption
    filesRead := files.length
    ignored := files.flatMap fun file =>
      match file.content with
      | .error x => [file.name ++ ": unreadable (" ++ x ++ ")"]
      | .ok _ => (file.records.zipIdx).filterMap fun (record, index) =>
        match readRecord record with
        | .error reason => some (file.name ++ "[" ++ toString index ++ "]: " ++ reason)
        | .ok _ => none }

/-! ### The gate -/

/-- What the gate reads of a `CertificationReport`. -/
structure CertificationReport where
  l3Eligible : Bool
  evidenceDigest : String

/-- What the gate reads of a `SoakReport`. -/
structure SoakReport where
  continuousHours : PyFloat
  evidenceRefs : List String
  qualifies : Bool

/-- The other inputs of the gate; `minimumText` is the minimum as the format `g` writes it. -/
structure GateInputs where
  l3Report : Option CertificationReport
  soakHours : PyFloat
  soakReport : Option SoakReport
  minimumSoakHours : PyFloat
  minimumText : String
  observedMetrics : List (String × PyFloat)

structure ProductionReadinessReport where
  ready : Bool
  score : PyFloat
  passed : List String
  missing : List String
  evidenceRefs : List String

/-- What the latest evidence of a key cites, if it passes with an artifact. -/
def cited (evidence : List ReadinessEvidence) (key : String) : Option String :=
  match (evidence.filter (·.key = key)).getLast? with
  | none => none
  | some item => if item.passed && strip item.evidenceRef ≠ "" then some item.evidenceRef else none

/-- What the other inputs add to what passed, what is missing and what is cited. -/
def GateInputs.findings (inputs : GateInputs) : List String × List String × List String :=
  let hours := inputs.soakReport.elim inputs.soakHours (·.continuousHours)
  let metric (name : String) : PyFloat := (inputs.observedMetrics.lookup name).getD (.finite 0)
  let soakRefs := inputs.soakReport.elim [] (·.evidenceRefs)
  let unqualified := inputs.soakReport.elim [] fun report =>
    if report.qualifies then [] else ["auditable-soak-not-qualified"]
  let soak := if hours.lt inputs.minimumSoakHours then ([], ["soak-hours<" ++ inputs.minimumText])
    else (["soak-duration"], [])
  let l3 := match inputs.l3Report with
    | some report => if report.l3Eligible then (["l3-certification-evidence"], [], [report.evidenceDigest])
      else ([], ["l3-certification-evidence"], [])
    | none => ([], ["l3-certification-evidence"], [])
  let success := if (metric "control_plane_success_rate").lt (.finite (99 / 100)) then
    ([], ["control-plane-success-rate>=0.99"]) else (["control-plane-success-rate"], [])
  let audit := if (metric "audit_write_success_rate").lt (.finite 1) then
    ([], ["audit-write-success-rate=1.0"]) else (["audit-write-success-rate"], [])
  (soak.1 ++ l3.1 ++ success.1 ++ audit.1, unqualified ++ soak.2 ++ l3.2.1 ++ success.2 ++ audit.2, soakRefs ++ l3.2.2)

/-- `evaluate_production_readiness`; `score` is the rounded share of what passed. -/
def evaluateProductionReadiness (score : Nat → Nat → PyFloat) (evidence : List ReadinessEvidence)
    (inputs : GateInputs) : ProductionReadinessReport :=
  let findings := inputs.findings
  let passed := requiredKeys.filter (fun key => (cited evidence key).isSome) ++ findings.1
  let missing := requiredKeys.filter (fun key => (cited evidence key).isNone) ++ findings.2.1
  let refs := requiredKeys.filterMap (cited evidence) ++ findings.2.2
  let total := passed.length + missing.length
  { ready := missing.isEmpty
    score := if total = 0 then .finite 0 else score passed.length total
    passed := sortedSet passed
    missing := sortedSet missing
    evidenceRefs := sortedSet refs }

end EngineeringIntelligence.Validation
