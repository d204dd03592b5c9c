import EngineeringIntelligence.ControlPlane.Remediation
import EngineeringIntelligence.Framework.Text
import EngineeringIntelligence.Orchestration.LifecycleBridge
import EngineeringIntelligence.Remediation.Executor

namespace EngineeringIntelligence.Orchestration

open EngineeringIntelligence.Framework EngineeringIntelligence.State
open EngineeringIntelligence.ControlPlane (RemediationWorkflowPlan)
open EngineeringIntelligence.Remediation (ExecutionResult ExecutionStatus)

/-! The activities behind `eip.remediation.v1` that write lifecycle events, and the data they
exchange with the workflow. An activity is a script of calls on the bridge. -/

/-! ### Contracts -/

/-- `^[A-Za-z0-9][A-Za-z0-9._:-]{0,127}$` matched in full. -/
def isRequestIdentifier (s : String) : Bool :=
  match s.toList with
  | [] => false
  | c :: cs => c.isAlphanum && cs.length ≤ 127 &&
      cs.all (fun d => d.isAlphanum || "._:-".toList.contains d)

structure RemediationRequest where
  requestId : String
  incidentId : String
  service : String
  environment : String
  correlationId : String
  tenantId : String := "default"
  blastRadius : Int := 1
  approvalTimeoutSeconds : Int := 3600
  deriving DecidableEq, Repr

namespace RemediationRequest

def identifiers (r : RemediationRequest) : List (String × String) :=
  [("request_id", r.requestId), ("incident_id", r.incidentId), ("service", r.service),
    ("environment", r.environment), ("correlation_id", r.correlationId), ("tenant_id", r.tenantId)]

def checks (r : RemediationRequest) : List (Bool × String) :=
  r.identifiers.map (fun p =>
    (isRequestIdentifier p.2, p.1 ++ " must be a bounded opaque identifier")) ++
  [(decide (0 ≤ r.blastRadius), "blast_radius must not be negative"),
    (decide (0 < r.approvalTimeoutSeconds), "approval_timeout_seconds must be positive")]

/-- `validate`: the `ValueError` of the first failing check. -/
def validate (r : RemediationRequest) : Option String :=
  (r.checks.find? (fun c => !c.1)).map Prod.snd

/-- `workflow_id` of a valid request. -/
def workflowId (r : RemediationRequest) : String := "remediation:" ++ r.requestId

end RemediationRequest

structure EvidenceBundle where
  workflowId : String
  workflowVersion : Int
  evidence : List Json := []
  evidenceIds : List String := []
  auditEventHash : Json := .str ""

structure RemediationPlanResult where
  workflowId : String
  planned : Bool
  reason : String
  runbookId : Option String := none
  planHash : Option String := none
  /-- a float, as `repr` prints it -/
  confidence : String := "0.0"
  evidenceIds : List String := []
  workflowVersion : Int := 0

structure ActionOutcome where
  status : String
  reason : String
  executionRef : Option String := none
  verified : Bool := false
  rollbackRef : Option String := none
  error : Option String := none
  fromStatus : String := "received"
  workflowVersion : Int := 0

inductive TerminalStatus where
  | succeeded
  | rolledBack
  | escalated
  | denied
  | failed
  deriving DecidableEq, Repr

namespace TerminalStatus

def value : TerminalStatus → String
  | succeeded => "succeeded"
  | rolledBack => "rolled_back"
  | escalated => "escalated"
  | denied => "denied"
  | failed => "failed"

/-- `_TERMINAL_WORKFLOW_STATUS`. -/
def workflowStatus : TerminalStatus → WorkflowStatus
  | succeeded => .succeeded
  | rolledBack => .rolledBack
  | escalated => .escalated
  | denied => .failed
  | failed => .failed

end TerminalStatus

def terminalStatusForAction (outcome : ActionOutcome) : TerminalStatus :=
  if outcome.status = "succeeded" then .succeeded
  else if outcome.status = "rolled_back" then .rolledBack
  else if outcome.status = "escalate" ∨ outcome.status = "escalated" then .escalated
  else if outcome.status = "denied" then .denied
  else .failed

structure RemediationOutcome where
  workflowId : String
  status : TerminalStatus
  reason : String
  planHash : Option String := none
  approver : String := ""
  executionRef : Option String := none
  rollbackRef : Option String := none
  auditEventHash : Json := .str ""
  mutationAttempted : Bool := false

/-! ### Scripts -/

inductive ActivityError where
  | workflowsDisabled (message : String)
  | configuration (message : String)
  | value (message : String)
  | bridge (error : BridgeError)
  | raised (message : String)
  deriving DecidableEq, Repr

/-- What an activity does to the stores, and what it returns or raises. -/
abbrev ActivityScript (α : Type) :=
  Script LifecycleCall WorkflowLifecycleActivityResult (Except ActivityError α)

/-- A check before anything is written. -/
def checked {α β : Type} (x : Except ActivityError α) (next : α → ActivityScript β) :
    ActivityScript β :=
  match x with
  | .error e => .finish (.error e)
  | .ok a => next a

def remediationWorkflowsFlag : String := "EIP_TEMPORAL_REMEDIATION_WORKFLOWS"

def remediationWorkflowsEnabled (environ : String → Option String) : Bool :=
  lower (strip ((environ remediationWorkflowsFlag).getD "")) = "enabled"

def requireRemediationWorkflows (step : String) (environ : String → Option String) :
    Except ActivityError Unit :=
  if remediationWorkflowsEnabled environ then .ok ()
  else .error (.workflowsDisabled (step ++ " is a consequential remediation activity; set " ++
    remediationWorkflowsFlag ++ "=enabled to register it"))

def requireStepTime (occurredAt : String) : Except ActivityError String :=
  if strip occurredAt = "" then
    .error (.configuration ("a persisting remediation activity requires a caller-supplied, " ++
      "replay-safe occurred_at timestamp"))
  else .ok (strip occurredAt)

def validRequest (request : RemediationRequest) : Except ActivityError Unit :=
  match request.validate with
  | some m => .error (.value m)
  | none => .ok ()

/-- `RemediationPlan`: what the evidence suggests. -/
structure RemediationPlan where
  runbookId : String
  reason : String
  evidenceIds : List String
  confidence : FloatRepr

/-- What the planner reads of a hypothesis of an `IncidentAnalysis`. -/
structure IncidentHypothesis where
  title : String
  evidenceIds : List String
  confidence : FloatRepr

/-- The runbook of a specific failure class, and why it is chosen. -/
def specificRunbook (title : String) : Option (String × String) :=
  if hasInfix title "crashloopbackoff" then
    some ("aks.restart.crashloop",
      "CrashLoopBackOff evidence selects a bounded restart with live pod-state preflight")
  else if hasInfix title "readiness regression" then
    some ("aks.rollback.readiness",
      "post-release readiness regression selects rollback with rollout-history preflight")
  else if hasInfix title "oomkilled" || hasInfix title "memory pressure" then
    some ("aks.restart.oom",
      "OOM evidence selects bounded recovery without silently changing resource policy")
  else none

def deploymentRunbook (title : String) : Option (String × String) :=
  if hasInfix title "deployment" && hasInfix title "incident" then
    some ("aks.rollout.undo", "recent deployment is correlated with incident onset")
  else none

/-- The first hypothesis that selects a runbook. -/
def firstPlan (select : String → Option (String × String)) (hypotheses : List IncidentHypothesis) :
    Option RemediationPlan :=
  hypotheses.findSome? fun h => (select (lower h.title)).map fun choice =>
    ⟨choice.1, choice.2, h.evidenceIds, h.confidence⟩

/-- `plan_from_incident`: specific failure classes come before deployment correlation. -/
def planFromIncident (hypotheses : List IncidentHypothesis) : Option RemediationPlan :=
  (firstPlan specificRunbook hypotheses).or (firstPlan deploymentRunbook hypotheses)

/-- The activities' surroundings: the environment, the actor they write as, what
`evidence_from_mapping`, `analyze_incident` and `plan_from_incident` make of the evidence for
a service, and the evidence that the provider has of an incident. -/
structure ActivitySetup where
  environ : String → Option String
  actor : String := "agent:remediation-workflow"
  plan : String → List Json → Except ActivityError (Option RemediationPlan)

/-- The arguments of `_advance`. -/
structure Advance where
  step : String
  action : String
  fromStatus : Option WorkflowStatus
  expectedVersion : Option Int
  toStatus : WorkflowStatus
  occurredAt : String
  planHash : Option String := none
  attributes : List (String × Json)
  consequential : Bool := false
  proper : PyValue.Proper (.obj attributes)

/-- The event `_advance` builds. -/
def Advance.event (a : Advance) (actor : String) (request : RemediationRequest) :
    WorkflowLifecycleEvent where
  eventId := request.workflowId ++ ":" ++ a.step
  idempotencyKey := request.workflowId ++ ":" ++ a.step
  workflowId := request.workflowId
  tenantId := request.tenantId
  serviceId := request.service
  environment := request.environment
  kind := "remediation"
  correlationId := request.correlationId
  actor := actor
  action := a.action
  fromStatus := a.fromStatus
  toStatus := a.toStatus
  expectedVersion := a.expectedVersion
  planHash := a.planHash
  consequential := a.consequential
  attributes := some a.attributes
  occurredAt := a.occurredAt

/-- `_advance`. The workflow id of an invalid request raises. -/
def advance {α : Type} (actor : String) (request : RemediationRequest) (a : Advance)
    (next : WorkflowLifecycleActivityResult → ActivityScript α) : ActivityScript α :=
  checked (validRequest request) fun _ => .call ⟨a.event actor request, a.proper⟩ next

theorem properItems_str (texts : List String) : PyValue.ProperItems (texts.map .str) := by
  induction texts with
  | nil => trivial
  | cons text texts ih => exact ⟨trivial, ih⟩

section
variable (sha256 : String → String) (setup : ActivitySetup) (request : RemediationRequest)

def collectedAdvance (evidenceIds : List String) (occurredAt : String) : Advance where
  step := "evidence"
  action := "collect-remediation-evidence"
  fromStatus := none
  expectedVersion := none
  toStatus := .received
  occurredAt := occurredAt
  attributes := [("incident_id", .str request.incidentId),
    ("evidence_ids", .arr (evidenceIds.map .str))]
  proper := ⟨by simp, trivial, properItems_str evidenceIds, trivial⟩

/-- `collect_evidence`; `evidence` is what the provider returned, with the ids. -/
def collectEvidence (evidence : Except ActivityError (List (String × Json))) (occurredAt : String) :
    ActivityScript EvidenceBundle :=
  checked (requireRemediationWorkflows "collect_evidence" setup.environ) fun _ =>
  checked (validRequest request) fun _ =>
  checked evidence fun events =>
  checked (requireStepTime occurredAt) fun time =>
  advance setup.actor request (collectedAdvance request (events.map (·.1)) time) fun result =>
  .finish (.ok
    { workflowId := request.workflowId
      workflowVersion := result.workflowVersion
      evidence := events.map (·.2)
      evidenceIds := events.map (·.1)
      auditEventHash := result.auditEventHash })

/-- The plan that is hashed and shown for approval. -/
def workflowPlan (plan : RemediationPlan) : RemediationWorkflowPlan where
  workflowId := request.workflowId
  service := request.service
  environment := request.environment
  runbookId := plan.runbookId
  blastRadius := request.blastRadius
  evidenceIds := plan.evidenceIds
  confidence := plan.confidence.1

def plannedAdvance (plan : RemediationPlan) (version : Int) (occurredAt : String) : Advance where
  step := "planned"
  action := "prepare-remediation"
  fromStatus := some .received
  expectedVersion := some version
  toStatus := .planned
  occurredAt := occurredAt
  planHash := some ((workflowPlan request plan).planHash sha256)
  attributes := (workflowPlan request plan).payload ++ [("reason", .str plan.reason)]
  proper := by
    refine ⟨by simp [RemediationWorkflowPlan.payload], ?_⟩
    change PyValue.Proper _ ∧ PyValue.Proper _ ∧ PyValue.Proper _ ∧ PyValue.Proper _ ∧
      PyValue.Proper _ ∧ PyValue.Proper _ ∧ PyValue.Proper _ ∧ PyValue.ProperFields []
    exact ⟨trivial, trivial, trivial, trivial, properItems_str plan.evidenceIds, plan.confidence.2,
      trivial, trivial⟩

def waitingAdvance (planHash : String) (version : Int) (occurredAt : String) : Advance where
  step := "awaiting-approval"
  action := "await-human-approval"
  fromStatus := some .planned
  expectedVersion := some version
  toStatus := .waitingApproval
  occurredAt := occurredAt
  planHash := some planHash
  attributes := [("plan_hash", .str planHash)]
  proper := ⟨by simp, trivial, trivial⟩

/-- `plan_remediation`. -/
def planRemediation (evidence : Option EvidenceBundle) (occurredAt : String) :
    ActivityScript RemediationPlanResult :=
  checked (requireRemediationWorkflows "plan_remediation" setup.environ) fun _ =>
  checked (validRequest request) fun _ =>
  match evidence with
  | none => .finish (.error (.configuration "plan_remediation requires an evidence bundle"))
  | some bundle =>
    checked (setup.plan request.service bundle.evidence) fun
    | none => .finish (.ok
        { workflowId := request.workflowId
          planned := false
          reason := "no certified runbook matched the incident evidence"
          evidenceIds := bundle.evidenceIds
          workflowVersion := bundle.workflowVersion })
    | some plan =>
      let planHash := (workflowPlan request plan).planHash sha256
      checked (requireStepTime occurredAt) fun time =>
      advance setup.actor request (plannedAdvance sha256 request plan bundle.workflowVersion time)
        fun planned =>
      advance setup.actor request (waitingAdvance planHash planned.workflowVersion time)
        fun waiting =>
      .finish (.ok
        { workflowId := request.workflowId
          planned := true
          reason := plan.reason
          runbookId := some plan.runbookId
          planHash := some planHash
          confidence := plan.confidence.1
          evidenceIds := plan.evidenceIds
          workflowVersion := waiting.workflowVersion })

/-- The status texts of `ExecutionResult`. -/
def executionStatusValue : ExecutionStatus → String
  | .blocked => "blocked"
  | .denied => "denied"
  | .deferred => "deferred"
  | .succeeded => "succeeded"
  | .rolledBack => "rolled_back"
  | .escalate => "escalate"

def executingAdvance (runbookId : String) (planHash : Option String) (version : Int)
    (occurredAt : String) : Advance where
  step := "executing"
  action := "execute-remediation"
  fromStatus := some .waitingApproval
  expectedVersion := some version
  toStatus := .executing
  occurredAt := occurredAt
  planHash := planHash
  attributes := [("runbook_id", .str runbookId), ("blast_radius", .int request.blastRadius)]
  consequential := true
  proper := ⟨by simp, trivial, trivial, trivial⟩

def verifyingAdvance (result : ExecutionResult) (planHash : Option String) (version : Int)
    (occurredAt : String) : Advance where
  step := "verifying"
  action := "verify-remediation"
  fromStatus := some .executing
  expectedVersion := some version
  toStatus := .verifying
  occurredAt := occurredAt
  planHash := planHash
  attributes := [("execution_status", .str (executionStatusValue result.status)),
    ("verified", .bool result.verified), ("rollback_ref", Json.optStr result.rollbackRef)]
  consequential := true
  proper := ⟨by simp, trivial, trivial, proper_optStr _, trivial⟩

/-- `execute_action`; `execution` is what the control loop returned or raised. -/
def executeAction (plan : Option RemediationPlanResult) (approvalVerified : Bool)
    (execution : Except ActivityError ExecutionResult) (occurredAt : String) :
    ActivityScript ActionOutcome :=
  checked (requireRemediationWorkflows "execute_action" setup.environ) fun _ =>
  match plan with
  | none => .finish (.ok
      { status := "denied"
        reason := "there is no planned runbook to execute"
        fromStatus := WorkflowStatus.waitingApproval.value
        workflowVersion := 0 })
  | some plan =>
    match plan.runbookId.filter (· ≠ "") with
    | none => .finish (.ok
        { status := "denied"
          reason := "there is no planned runbook to execute"
          fromStatus := WorkflowStatus.waitingApproval.value
          workflowVersion := plan.workflowVersion })
    | some runbookId =>
      if !approvalVerified then .finish (.ok
        { status := "denied"
          reason := "verified human approval is required before any mutation"
          fromStatus := WorkflowStatus.waitingApproval.value
          workflowVersion := plan.workflowVersion })
      else
        checked (requireStepTime occurredAt) fun time =>
        advance setup.actor request
          (executingAdvance request runbookId plan.planHash plan.workflowVersion time)
          fun executing =>
        checked execution fun result =>
        advance setup.actor request
          (verifyingAdvance result plan.planHash executing.workflowVersion time) fun verifying =>
        .finish (.ok
          { status := executionStatusValue result.status
            reason := result.policy.reason
            executionRef := result.executionRef
            verified := result.verified
            rollbackRef := result.rollbackRef
            error := result.error
            fromStatus := WorkflowStatus.verifying.value
            workflowVersion := verifying.workflowVersion })

/-- `WorkflowStatus(text)`. -/
def workflowStatusOf (text : String) : Except ActivityError WorkflowStatus :=
  match WorkflowStatus.ofValue text with
  | none => .error (.value ("'" ++ text ++ "' is not a valid WorkflowStatus"))
  | some s => .ok s

def outcomeAdvance (fromStatus : WorkflowStatus) (plan : Option RemediationPlanResult)
    (outcome : ActionOutcome) (approver occurredAt : String) : Advance where
  step := "outcome"
  action := "finish-remediation"
  fromStatus := some fromStatus
  expectedVersion := some outcome.workflowVersion
  toStatus := (terminalStatusForAction outcome).workflowStatus
  occurredAt := occurredAt
  planHash := plan.bind (·.planHash)
  attributes := [("status", .str (terminalStatusForAction outcome).value),
    ("reason", .str outcome.reason), ("approver", .str approver),
    ("execution_ref", Json.optStr outcome.executionRef),
    ("rollback_ref", Json.optStr outcome.rollbackRef), ("verified", .bool outcome.verified),
    ("error", Json.optStr outcome.error)]
  consequential := true
  proper := ⟨by simp, trivial, trivial, trivial, proper_optStr _, proper_optStr _, trivial,
    proper_optStr _, trivial⟩

/-- `record_outcome`. -/
def recordOutcome (plan : Option RemediationPlanResult) (outcome : ActionOutcome)
    (approver occurredAt : String) : ActivityScript RemediationOutcome :=
  checked (requireRemediationWorkflows "record_outcome" setup.environ) fun _ =>
  checked (workflowStatusOf outcome.fromStatus) fun fromStatus =>
  checked (requireStepTime occurredAt) fun time =>
  advance setup.actor request (outcomeAdvance fromStatus plan outcome approver time) fun result =>
  .finish (.ok
    { workflowId := request.workflowId
      status := terminalStatusForAction outcome
      reason := outcome.reason
      planHash := plan.bind (·.planHash)
      approver := approver
      executionRef := outcome.executionRef
      rollbackRef := outcome.rollbackRef
      auditEventHash := result.auditEventHash
      mutationAttempted := outcome.executionRef.isSome })

end

end EngineeringIntelligence.Orchestration
