import EngineeringIntelligence.Remediation.Certification
import EngineeringIntelligence.Remediation.ConcurrencyLock

namespace EngineeringIntelligence.Remediation

open EngineeringIntelligence.Framework

/-- `EIP_AUTONOMY_KILL_SWITCH` reads `true`, ignoring case and surrounding whitespace. -/
def autonomyKillSwitchEngaged (environ : String → Option String) : Bool :=
  asciiLower (strip ((environ "EIP_AUTONOMY_KILL_SWITCH").getD "false")) = "true"

/-- `control_plane_mode`; the error is its `ControlPlaneConfigurationError`. -/
def controlPlaneMode (environ : String → Option String) : Except String String :=
  let mode := asciiLower (strip ((environ "EIP_CONTROL_PLANE_MODE").getD "reference"))
  if ["disabled", "reference", "temporal"].contains mode then .ok mode
  else .error "EIP_CONTROL_PLANE_MODE must be one of: disabled, reference, temporal"

def opaEvaluatorRequired (environ : String → Option String) : Except String Bool :=
  match controlPlaneMode environ with
  | .error m => .error m
  | .ok mode => .ok (if mode ≠ "reference" then true
      else asciiLower (strip ((environ "EIP_REQUIRE_OPA").getD "false")) = "true")

/-- The level a caller claims. Anything that is neither a level nor an integer is known by
its `repr` and by what `int` makes of it, with fractional floats taken out. -/
inductive DeclaredLevel where
  | absent
  | level (l : AutonomyLevel)
  | int (n : Int)
  | other (repr : String) (asInt : Option Int)

def claimedLevelValue : DeclaredLevel → Int
  | .level l => l.value
  | .int n => n
  | _ => 0

/-- `_effective_level`: the level a request runs at, and why its claim is refused. -/
def effectiveLevel (declared : DeclaredLevel) (policy : ServiceAutonomy) :
    AutonomyLevel × Option String :=
  let granted := policy.level
  let grants := "L" ++ toString granted.value
  let notALevel (repr : String) := "autonomy-level: declared autonomy level " ++ repr ++
    " is not an autonomy level; the reviewed service policy grants " ++ grants
  let resolve (claimed : AutonomyLevel) : AutonomyLevel × Option String :=
    if claimed = granted then (granted, none)
    else if granted.value < claimed.value then
      (granted, some ("autonomy-level: declared L" ++ toString claimed.value ++
        " exceeds the reviewed service policy level " ++ grants))
    else if claimed = .approveAndExecute ∧ granted = .boundedAutonomous then (claimed, none)
    else (granted, some ("autonomy-level: declared L" ++ toString claimed.value ++
      " is not a permitted downgrade from the reviewed service policy level " ++ grants))
  match declared with
  | .absent => (granted, none)
  | .level l => resolve l
  | .int n => ((AutonomyLevel.ofValue n).map resolve).getD (granted, some (notALevel (toString n)))
  | .other repr asInt =>
    ((asInt.bind AutonomyLevel.ofValue).map resolve).getD (granted, some (notALevel repr))

/-- An exception an adapter raised. -/
structure PyException where
  typeName : String
  message : String

def PyException.describe (e : PyException) : String := e.typeName ++ ": " ++ e.message

inductive AdapterCall where
  | preflight
  | execute (runbookId : String)
  | verify (signal : String)
  | rollback (rollbackId : String)
  deriving DecidableEq, Repr

def AdapterCall.isExecute : AdapterCall → Bool
  | execute _ => true
  | _ => false

/-- A call the control loop made, with the leases held at that moment. -/
structure LoggedCall where
  call : AdapterCall
  leases : List LockLease
  deriving DecidableEq, Repr

/-- What a preflight hook may return. -/
inductive PreflightAnswer where
  | verdict (allowed : Bool) (reason : String)
  | flag (allowed : Bool)

/-- An adapter of any behaviour: every answer may depend on the calls made so far. -/
structure ActionAdapter where
  preflight : Option (List AdapterCall → Runbook → ActionRequest → Except PyException PreflightAnswer)
  execute : List AdapterCall → String → ActionRequest → Except PyException String
  verify : List AdapterCall → String → ActionRequest → Except PyException Bool
  rollback : List AdapterCall → String → ActionRequest → Except PyException String

inductive ExecutionStatus where
  | blocked
  | denied
  | deferred
  | succeeded
  | rolledBack
  | escalate
  deriving DecidableEq, Repr

structure ExecutionResult where
  status : ExecutionStatus
  policy : PolicyDecision
  executionRef : Option String := none
  verified : Bool := false
  rollbackRef : Option String := none
  error : Option String := none
  deriving DecidableEq, Repr

structure CanaryStrategy where
  canaryVerifySignal : String := "deployment.canary_ready"
  fullVerifySignal : String := "deployment.ready_replicas"
  deriving DecidableEq, Repr

inductive CanaryStatus where
  | aborted
  | failed
  | succeeded
  deriving DecidableEq, Repr

structure CanaryExecutionResult where
  status : CanaryStatus
  error : Option String := none

section
variable (adapter : ActionAdapter) (runbook : Runbook) (request : ActionRequest)
  (leases : List LockLease)

def callsOf (log : List LoggedCall) : List AdapterCall := log.map (·.call)

/-- `_preflight`, with the log of its call. -/
def preflight (log : List LoggedCall) : (Bool × String) × List LoggedCall :=
  match adapter.preflight with
  | none => ((true, "adapter has no preflight hook; policy/catalog controls only"), log)
  | some checker =>
    (match checker (callsOf log) runbook request with
      | .error exc => (false, "precondition evaluation failed: " ++ exc.describe)
      | .ok (.verdict allowed reason) => (allowed, reason)
      | .ok (.flag true) => (true, "runbook preconditions satisfied")
      | .ok (.flag false) => (false, "runbook preconditions failed"),
     log ++ [⟨.preflight, leases⟩])

/-- The rollback a runbook names, if it names one. -/
def rollbackStep (log : List LoggedCall) :
    Option (Except PyException String) × List LoggedCall :=
  match runbook.rollbackId.filter (· ≠ "") with
  | none => (none, log)
  | some rollbackId => (some (adapter.rollback (callsOf log) rollbackId request),
      log ++ [⟨.rollback rollbackId, leases⟩])

/-- `ProgressiveCanaryExecutor.execute_progressive`: canary first, then the fleet. -/
def executeProgressive (strategy : CanaryStrategy) (log : List LoggedCall) :
    CanaryExecutionResult × List LoggedCall :=
  let canaryId := runbook.id ++ ".canary"
  let log₁ := log ++ [⟨.execute canaryId, leases⟩]
  match adapter.execute (callsOf log) canaryId request with
  | .error exc => (⟨.aborted, some ("canary deployment failed: " ++ exc.message)⟩, log₁)
  | .ok _ =>
    let log₂ := log₁ ++ [⟨.verify strategy.canaryVerifySignal, leases⟩]
    match adapter.verify (callsOf log₁) strategy.canaryVerifySignal request with
    | .ok true =>
      let log₃ := log₂ ++ [⟨.execute runbook.id, leases⟩]
      match adapter.execute (callsOf log₂) runbook.id request with
      | .error exc => (⟨.failed, some ("fleet promotion failed: " ++ exc.message)⟩, log₃)
      | .ok _ =>
        let log₄ := log₃ ++ [⟨.verify strategy.fullVerifySignal, leases⟩]
        match adapter.verify (callsOf log₃) strategy.fullVerifySignal request with
        | .ok true => (⟨.succeeded, none⟩, log₄)
        | _ => (⟨.failed, some "fleet health verification failed after promotion"⟩,
            (rollbackStep adapter runbook request leases log₄).2)
    | _ => (⟨.aborted, some "canary health verification failed; rollout safely aborted"⟩,
        (rollbackStep adapter runbook request leases log₂).2)

/-- The errors of verification and rollback, joined. -/
def joinErrors (errors : List (Option String)) : Option String :=
  match (errors.filterMap id).filter (· ≠ "") with
  | [] => none
  | es => some ("; ".intercalate es)

/-- `_run_execution_and_verify`. -/
def runExecutionAndVerify (decision : PolicyDecision) (canaryStrategy : Option CanaryStrategy)
    (log : List LoggedCall) : ExecutionResult × List LoggedCall :=
  match canaryStrategy with
  | some strategy =>
    let (canary, log') := executeProgressive adapter runbook request leases strategy log
    match canary.status with
    | .succeeded =>
      (⟨.succeeded, decision, some "canary-fleet-promoted", true, none, none⟩, log')
    | .aborted => (⟨.rolledBack, decision, some "canary-aborted", false, none, canary.error⟩, log')
    | .failed => (⟨.escalate, decision, some "canary-failed", false, none, canary.error⟩, log')
  | none =>
    let log₁ := log ++ [⟨.execute runbook.id, leases⟩]
    match adapter.execute (callsOf log) runbook.id request with
    | .error exc =>
      (⟨.escalate, decision, none, false, none, some ("execution failed: " ++ exc.describe)⟩, log₁)
    | .ok executionRef =>
      let log₂ := log₁ ++ [⟨.verify runbook.verifySignal, leases⟩]
      let verification := adapter.verify (callsOf log₁) runbook.verifySignal request
      match verification with
      | .ok true => (⟨.succeeded, decision, some executionRef, true, none, none⟩, log₂)
      | _ =>
        let verificationError := match verification with
          | .error exc => some ("verification failed: " ++ exc.describe)
          | .ok _ => none
        let (rolledBack, log₃) := rollbackStep adapter runbook request leases log₂
        let rollbackRef := rolledBack.bind (·.toOption)
        let rollbackError := match rolledBack with
          | some (.error exc) => some ("rollback failed: " ++ exc.describe)
          | _ => none
        (⟨if (rollbackRef.filter (· ≠ "")).isSome then .rolledBack else .escalate, decision,
          some executionRef, false, rollbackRef, joinErrors [verificationError, rollbackError]⟩, log₃)

end

/-- An aware `datetime`, as far as the loop looks at it. -/
structure Moment where
  instant : Int
  isoformat : String

/-- The arguments of `execute_control_loop`. `evaluatorGiven` says whether the caller
passed the reference evaluator, `leaseId` is the identifier drawn for a lease. -/
structure ControlLoopCall where
  catalog : RunbookCatalog
  policy : ServiceAutonomy
  request : ActionRequest
  adapter : ActionAdapter
  evaluatorGiven : Bool := false
  approvalVerified : Bool := false
  control : Option PolicyControlState := none
  certification : Option L4CertificationRecord := none
  autonomyLevel : DeclaredLevel := .absent
  now : Moment
  environ : String → Option String := fun _ => none
  lockManager : Option LockTable := none
  leaseId : String := ""
  impactedServices : List String := []
  canaryStrategy : Option CanaryStrategy := none

/-- What a run of the control loop leaves behind. An error is a raised exception. -/
structure LoopRun where
  result : Except String ExecutionResult
  log : List LoggedCall
  lockManager : Option LockTable

/-- What the gates in front of the adapter have established. -/
structure Admission where
  runbook : Runbook
  level : AutonomyLevel
  decision : PolicyDecision

section
variable (sha256 : String → String) (c : ControlLoopCall)

def ControlLoopCall.level : AutonomyLevel := (effectiveLevel c.autonomyLevel c.policy).1

/-- The scope hash of a request; one without a certifiable scope matches nothing. -/
def requestScopeHash (runbook : Runbook) : String :=
  match certificationScopeFor c.policy c.request runbook with
  | .ok scope => scope.scopeHash sha256
  | .error _ => ""

def autonomyContext (runbook : Runbook) : AutonomyContext :=
  { autonomyLevel := .str ("L" ++ toString c.level.value)
    scopeHash := requestScopeHash sha256 c runbook
    now := c.now.isoformat
    policyLevel := c.policy.level.value
    certification := c.certification.map (fun r => ⟨r.scopeHash, r.inputsHash, r.expiresOn⟩) }

/-- `_certification_refusal`. -/
def loopCertificationRefusal (runbook : Runbook) (policyBundleVersion : String) : Option String :=
  match certificationScopeFor c.policy c.request runbook with
  | .error m => some ("l4-certification: " ++ m)
  | .ok scope => certificationRefusal c.certification (scope.scopeHash sha256)
      (materialInputsHashFor sha256 scope runbook policyBundleVersion) c.now.instant

/-- The evaluator's answer for this call. -/
def loopEvaluation (runbook : Runbook) : EvaluatedPolicyDecision :=
  evaluate runbook c.policy c.request c.approvalVerified (c.control.getD {})
    (some (autonomyContext sha256 c runbook)) ""

def opaRequiredReason : String := "OPA policy evaluator is required but not configured"

def blockedResult (reason error : String) : ExecutionResult :=
  { status := .blocked, policy := ⟨false, reason⟩, error := some error }

/-- The gates of `execute_control_loop` up to the adapter's preflight: an early return, or
what was established. -/
def passGates : Except (Except String ExecutionResult) Admission :=
  match c.catalog.get c.request.runbookId with
  | none => .error (.error ("unknown runbook: " ++ c.request.runbookId))
  | some runbook =>
    -- neither a downgrade nor an over-declaration escapes the switch
    if AutonomyLevel.approveAndExecute.value ≤
        max c.policy.level.value (claimedLevelValue c.autonomyLevel) &&
        autonomyKillSwitchEngaged c.environ then
      .error (.ok (blockedResult "kill-switch"
        "EIP_AUTONOMY_KILL_SWITCH is engaged; no L3 or L4 execution runs"))
    else
      match (effectiveLevel c.autonomyLevel c.policy).2 with
      | some refusal => .error (.ok (blockedResult refusal refusal))
      | none =>
        match (if c.evaluatorGiven then .ok false else opaEvaluatorRequired c.environ) with
        | .error m => .error (.error m)
        | .ok true => .error (.ok { status := .denied
                                    policy := ⟨false, opaRequiredReason⟩ })
        | .ok false =>
          match (if c.level = .boundedAutonomous then
              certificationDenial (autonomyContext sha256 c runbook) else none) with
          | some denial => .error (.ok (blockedResult denial.value denial.value))
          | none =>
            let evaluated := loopEvaluation sha256 c runbook
            if !evaluated.allowed then
              .error (.ok { status := .denied, policy := asPolicyDecision evaluated })
            else
              match (if c.level = .boundedAutonomous then
                  loopCertificationRefusal sha256 c runbook evaluated.policyRevision else none) with
              | some refusal => .error (.ok (blockedResult refusal refusal))
              | none => .ok ⟨runbook, c.level, asPolicyDecision evaluated⟩

/-- `_acquire_concurrency_lease`. -/
def acquireConcurrencyLease : Option LockTable × Except String (Option LockLease) :=
  match c.lockManager with
  | none => (none, .ok none)
  | some table =>
    match table.acquire c.policy.service c.impactedServices c.now.instant c.leaseId with
    | (table', .error refusal) => (some table', .error refusal.reason)
    | (table', .ok lease) => (some table', .ok (some lease))

def heldLeases (manager : Option LockTable) : List LockLease :=
  (manager.map (·.leases)).getD []

/-- `execute_control_loop`. -/
def executeControlLoop : LoopRun :=
  match passGates sha256 c with
  | .error result => ⟨result, [], c.lockManager⟩
  | .ok admission =>
    let (checked, log) := preflight c.adapter admission.runbook c.request
      (heldLeases c.lockManager) []
    if !checked.1 then
      ⟨.ok { status := .denied, policy := ⟨false, checked.2⟩, error := some checked.2 }, log,
        c.lockManager⟩
    else
      match acquireConcurrencyLease c with
      | (manager, .error reason) =>
        ⟨.ok { status := .deferred, policy := admission.decision, error := some reason }, log,
          manager⟩
      | (manager, .ok lease) =>
        let (result, log') := runExecutionAndVerify c.adapter admission.runbook c.request
          (heldLeases manager) admission.decision c.canaryStrategy log
        -- the lease is released whatever the execution did
        ⟨.ok result, log', manager.map (fun t => (lease.map t.release).getD t)⟩

end

end EngineeringIntelligence.Remediation
