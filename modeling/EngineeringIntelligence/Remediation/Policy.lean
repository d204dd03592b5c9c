import EngineeringIntelligence.Framework.Json
import EngineeringIntelligence.Framework.Text
import EngineeringIntelligence.Framework.Timestamp
import EngineeringIntelligence.Remediation.Catalog

namespace EngineeringIntelligence.Remediation

open EngineeringIntelligence.Framework

structure ServiceAutonomy where
  service : String
  environment : String
  level : AutonomyLevel
  certifiedRunbooks : List String := []
  maxBlastRadius : Int := 0
  killSwitch : Bool := false
  deriving DecidableEq, Repr

structure ActionRequest where
  service : String
  environment : String
  runbookId : String
  blastRadius : Int
  approvalToken : Option String := none
  errorBudgetRemaining : PyFloat := .finite 1
  deriving DecidableEq, Repr

inductive PolicyReason where
  | authorized
  | killSwitch
  | outsideScope
  | runbookEnvironment
  | blastRadius
  | autonomyLevel
  | runbookCertification
  | humanApproval
  | errorBudget
  | certificationAbsent
  | evaluationTimeUnreadable
  | certificationExpiryUnreadable
  | certificationExpired
  | scopeMissing
  | scopeMismatch
  | inputsHashMissing
  | auditUnavailable
  | verificationUnavailable
  deriving DecidableEq, Repr

def PolicyReason.value : PolicyReason → String
  | authorized => "authorized by OPA remediation policy"
  | killSwitch => "service kill switch is enabled"
  | outsideScope => "request is outside service/environment policy scope"
  | runbookEnvironment => "runbook is not permitted in this environment"
  | blastRadius => "blast radius exceeds certified limit"
  | autonomyLevel => "service autonomy level is below runbook requirement"
  | runbookCertification => "runbook is not certified for this service"
  | humanApproval => "verified human approval is required"
  | errorBudget => "error budget exhausted; autonomous mutation disabled"
  | certificationAbsent => "l4-certification: no certification record for this L4 scope"
  | evaluationTimeUnreadable => "l4-certification: request carries no readable evaluation time"
  | certificationExpiryUnreadable =>
    "l4-certification: certification expires_on is not a readable timestamp"
  | certificationExpired => "l4-certification: certification has expired"
  | scopeMissing => "l4-certification: request carries no scope hash"
  | scopeMismatch => "l4-certification: record scope_hash does not match the requested scope"
  | inputsHashMissing => "l4-certification: certification carries no material-inputs hash"
  | auditUnavailable => "audit control unavailable"
  | verificationUnavailable => "verification control unavailable"

structure PolicyControlState where
  auditAvailable : Bool := true
  verificationDefined : Bool := true
  deriving DecidableEq, Repr

/-- The L4 certification a request presents, as the policy boundary sees it. -/
structure CertificationClaim where
  scopeHash : String
  inputsHash : String
  expiresOn : String
  deriving DecidableEq, Repr

/-- The level a request declares, which need not be a string, and the certification it
presents. -/
structure AutonomyContext where
  autonomyLevel : Json
  scopeHash : String := ""
  now : String := ""
  certification : Option CertificationClaim := none
  policyLevel : Int := 0

structure PolicyDecision where
  allowed : Bool
  reason : String
  deriving DecidableEq, Repr

structure EvaluatedPolicyDecision where
  allowed : Bool
  reason : String
  policyRevision : String
  deriving DecidableEq, Repr

def asPolicyDecision (d : EvaluatedPolicyDecision) : PolicyDecision :=
  ⟨d.allowed, d.reason ++ " [policy=" ++ d.policyRevision ++ "]"⟩

/-- `parse_instant`: a naive timestamp is read as UTC. -/
def parseInstant (value : String) : Option Int := (fromisoformat value).map PyDateTime.instant

/-- The only downgrade a caller may declare. -/
def supervisedDowngrade : String := "L3"

namespace AutonomyContext

def declared (a : AutonomyContext) : String :=
  match a.autonomyLevel with
  | .str s => asciiUpper (strip s)
  | _ => ""

def isL4 (a : AutonomyContext) : Bool :=
  if a.declared = "L4" then true
  else if a.declared = supervisedDowngrade then false
  else 4 ≤ a.policyLevel

def effectiveLevel (a : AutonomyContext) : Int :=
  if a.declared = supervisedDowngrade ∧ 4 ≤ a.policyLevel then 3 else a.policyLevel

/-- `for_policy`; `now` is the clock as `isoformat` prints it. -/
def forPolicy (p : ServiceAutonomy) (now : String) : AutonomyContext :=
  { autonomyLevel := .str ("L" ++ toString p.level.value), now := now,
    policyLevel := p.level.value }

end AutonomyContext

/-- The first refusal of a chain of checks. -/
def firstRefusal (checks : List (Option PolicyReason)) : Option PolicyReason :=
  checks.findSome? (fun c => c)

def refuse (condition : Bool) (reason : PolicyReason) : Option PolicyReason :=
  if condition then some reason else none

theorem firstRefusal_eq_none {checks : List (Option PolicyReason)} :
    firstRefusal checks = none ↔ ∀ c ∈ checks, c = none := by
  simp [firstRefusal]

@[simp] theorem refuse_eq_none {condition : Bool} {reason : PolicyReason} :
    refuse condition reason = none ↔ condition = false := by
  cases condition <;> simp [refuse]

def certificationDenial (a : AutonomyContext) : Option PolicyReason :=
  if !a.isL4 then none
  else
    match a.certification with
    | none => some .certificationAbsent
    | some claim =>
      match parseInstant a.now with
      | none => some .evaluationTimeUnreadable
      | some now =>
        match parseInstant claim.expiresOn with
        | none => some .certificationExpiryUnreadable
        | some expires => firstRefusal [refuse (expires ≤ now) .certificationExpired,
            refuse (strip a.scopeHash = "") .scopeMissing,
            refuse (claim.scopeHash ≠ a.scopeHash) .scopeMismatch,
            refuse (strip claim.inputsHash = "") .inputsHashMissing]

def localDecision : Option PolicyReason → EvaluatedPolicyDecision
  | some reason => ⟨false, reason.value, "local-reference"⟩
  | none => ⟨true, PolicyReason.authorized.value, "local-reference"⟩

theorem localDecision_allowed (checks : List (Option PolicyReason)) :
    (localDecision (firstRefusal checks)).allowed = true ↔ ∀ c ∈ checks, c = none := by
  rw [← firstRefusal_eq_none]
  cases firstRefusal checks <;> simp [localDecision]

theorem localDecision_revision (refusal : Option PolicyReason) :
    (localDecision refusal).policyRevision = "local-reference" := by
  cases refusal <;> rfl

/-- `LocalReferenceEvaluator.evaluate`; `now` is the clock that a missing context is
stamped with. -/
def evaluate (runbook : Runbook) (policy : ServiceAutonomy) (request : ActionRequest)
    (approvalVerified : Bool) (control : PolicyControlState) (autonomy : Option AutonomyContext)
    (now : String) : EvaluatedPolicyDecision :=
  -- a supplied context cannot lower the level below the reviewed one
  let context := { autonomy.getD (.forPolicy policy now) with policyLevel := policy.level.value }
  localDecision (firstRefusal [
    refuse policy.killSwitch .killSwitch,
    refuse (request.service ≠ policy.service || request.environment ≠ policy.environment)
      .outsideScope,
    refuse (!runbook.environments.contains request.environment) .runbookEnvironment,
    refuse (runbook.maxBlastRadius < request.blastRadius ||
      policy.maxBlastRadius < request.blastRadius) .blastRadius,
    refuse (policy.level.value < runbook.requiredLevel.value) .autonomyLevel,
    refuse (!policy.certifiedRunbooks.contains runbook.id) .runbookCertification,
    refuse (context.effectiveLevel = 3 && !approvalVerified) .humanApproval,
    refuse (4 ≤ policy.level.value && request.errorBudgetRemaining.nonpos) .errorBudget,
    certificationDenial context,
    refuse (!control.auditAvailable) .auditUnavailable,
    refuse (!control.verificationDefined) .verificationUnavailable])

end EngineeringIntelligence.Remediation
