import EngineeringIntelligence.Framework.UtcTime
import EngineeringIntelligence.Framework.Run
import EngineeringIntelligence.Orchestration.RemediationActivities

namespace EngineeringIntelligence.Orchestration

open EngineeringIntelligence.Framework EngineeringIntelligence.State

/-! `RemediationWorkflow`: the durable control loop. It advances when it is woken with new
signals, when the activity it has scheduled answers, and when that activity fails. -/

/-! ### Decisions -/

structure RemediationApprovalSignal where
  workflowId : String
  approver : String
  planHash : String
  issuedAt : Int
  signature : String
  deriving DecidableEq, Repr

structure ApprovalSignalDecision where
  accepted : Bool
  reason : String
  deriving DecidableEq, Repr

def evaluateApprovalSignal (expectedWorkflowId : String) (expectedPlanHash : Option String)
    (signal : RemediationApprovalSignal) : ApprovalSignalDecision :=
  if !expectedPlanHash.any isPlanHash then
    ⟨false, "there is no approved plan hash to approve against"⟩
  else if signal.workflowId ≠ expectedWorkflowId then
    ⟨false, "approval names a different workflow"⟩
  else if some signal.planHash ≠ expectedPlanHash then
    ⟨false, "approval plan hash does not match the planned remediation"⟩
  else if strip signal.approver = "" then ⟨false, "approval does not name an approver"⟩
  else if strip signal.signature = "" then ⟨false, "approval carries no signature to verify"⟩
  else ⟨true, "approval is bound to this workflow and plan hash"⟩

structure ApprovalVerification where
  verified : Bool
  reason : String
  approver : String := ""
  deriving DecidableEq, Repr

structure PolicyVerdict where
  allowed : Bool
  reason : String
  policyRevision : String
  deriving DecidableEq, Repr

structure RehearsalVerdict where
  safeToPromote : Bool
  status : String
  notes : List String := []
  deriving DecidableEq, Repr

structure StepDecision where
  proceed : Bool
  terminalStatus : String
  reason : String
  deriving DecidableEq, Repr

def proceedDecision : StepDecision := ⟨true, "", ""⟩

def expiredDecision : StepDecision :=
  ⟨false, "escalate", "no valid human approval was received before the approval deadline"⟩

/-- How `_finish` words a decision to stop. -/
def StepDecision.outcome (decision : StepDecision) (fromStatus : String) (workflowVersion : Int) :
    ActionOutcome where
  status := decision.terminalStatus
  reason := decision.reason
  fromStatus := fromStatus
  workflowVersion := workflowVersion

/-- `text or fallback`. -/
def orElseText (text fallback : String) : String := if text = "" then fallback else text

def isMissing (text : Option String) : Bool := text.all (· = "")

def decideAfterPlan (plan : RemediationPlanResult) : StepDecision :=
  if !plan.planned || isMissing plan.runbookId || isMissing plan.planHash then
    ⟨false, "escalate", orElseText plan.reason "no certified runbook matched the evidence"⟩
  else proceedDecision

def decideAfterApproval (verification : ApprovalVerification) : StepDecision :=
  if !verification.verified then
    ⟨false, "escalate", orElseText verification.reason "human approval could not be verified"⟩
  else proceedDecision

def decideAfterPolicy (verdict : PolicyVerdict) : StepDecision :=
  if !verdict.allowed then
    ⟨false, "denied", orElseText verdict.reason "policy denied the remediation"⟩
  else proceedDecision

def decideAfterRehearsal (rehearsal : RehearsalVerdict) : StepDecision :=
  if !rehearsal.safeToPromote then
    ⟨false, "escalate",
      "digital-twin rehearsal did not verify; production promotion stays blocked"⟩
  else proceedDecision

/-! ### Activities -/

/-- A scheduled activity with its arguments; the request is always the first. -/
inductive ActivityCall where
  | collectEvidence (occurredAt : String)
  | planRemediation (evidence : EvidenceBundle) (occurredAt : String)
  | verifyApproval (plan : RemediationPlanResult) (signal : RemediationApprovalSignal)
  | evaluatePolicy (plan : RemediationPlanResult) (approvalVerified : Bool)
  | rehearseInTwin (plan : RemediationPlanResult) (approvalVerified : Bool)
  | executeAction (plan : RemediationPlanResult) (approvalVerified : Bool) (occurredAt : String)
  | recordOutcome (plan : RemediationPlanResult) (outcome : ActionOutcome) (approver : String)
      (occurredAt : String)

inductive ActivityAnswer where
  | evidence (bundle : EvidenceBundle)
  | plan (result : RemediationPlanResult)
  | verification (result : ApprovalVerification)
  | verdict (result : PolicyVerdict)
  | rehearsal (result : RehearsalVerdict)
  | action (outcome : ActionOutcome)
  | outcome (result : RemediationOutcome)

/-- The activity `verify_approval`, at the time `current`. It writes nothing. -/
def verifyApproval (environ : String → Option String) (hmac : String → String → String)
    (secret : String) (current : Int) (request : RemediationRequest) (plan : RemediationPlanResult)
    (signal : RemediationApprovalSignal) : Except ActivityError ApprovalVerification := do
  let _ ← requireRemediationWorkflows "verify_approval" environ
  match plan.planHash.filter (· ≠ "") with
  | none => .ok ⟨false, "there is no plan hash to approve against", ""⟩
  | some planHash =>
    let _ ← validRequest request
    match ControlPlane.verifyApproval hmac
        ⟨signal.workflowId, signal.approver, signal.planHash, signal.issuedAt, signal.signature⟩
        request.workflowId planHash secret current with
    | .error _ => .error (.raised "comparing strings with non-ASCII characters is not supported")
    | .ok false => .ok ⟨false, "approval is invalid, stale, expired, or bound to another plan", ""⟩
    | .ok true => .ok ⟨true, "approval signature verified", signal.approver⟩

/-! ### The control loop -/

/-- Where `run` is suspended, with the variables it still needs. `stalled` is a workflow task
that raises each time it is replayed. -/
inductive WorkflowPhase where
  | collecting (occurredAt : String)
  | planning (evidence : EvidenceBundle) (occurredAt : String)
  | awaiting (plan : RemediationPlanResult) (deadline : Int)
  | verifying (plan : RemediationPlanResult) (signal : RemediationApprovalSignal)
  | authorizing (plan : RemediationPlanResult) (approver : String)
  | rehearsing (plan : RemediationPlanResult) (approver : String)
  | executing (plan : RemediationPlanResult) (approver : String) (occurredAt : String)
  | recording (plan : RemediationPlanResult) (outcome : ActionOutcome) (approver : String)
      (occurredAt : String)
  | finished (result : RemediationOutcome)
  | failed (error : ActivityError)
  | stalled

/-- The activity `run` is waiting for. -/
def WorkflowPhase.call : WorkflowPhase → Option ActivityCall
  | collecting occurredAt => some (.collectEvidence occurredAt)
  | planning evidence occurredAt => some (.planRemediation evidence occurredAt)
  | awaiting _ _ => none
  | verifying plan signal => some (.verifyApproval plan signal)
  | authorizing plan _ => some (.evaluatePolicy plan true)
  | rehearsing plan _ => some (.rehearseInTwin plan true)
  | executing plan _ occurredAt => some (.executeAction plan true occurredAt)
  | recording plan outcome approver occurredAt => some (.recordOutcome plan outcome approver occurredAt)
  | finished _ => none
  | failed _ => none
  | stalled => none

structure WorkflowState where
  pending : List RemediationApprovalSignal := []
  rejected : List String := []
  phase : WorkflowPhase

/-- What a run does, in the order it does it. -/
inductive WorkflowStep where
  | scheduled (call : ActivityCall)
  | answered (answer : ActivityAnswer)
  | accepted (signal : RemediationApprovalSignal)

inductive WorkflowInput where
  | wake (batch : List RemediationApprovalSignal)
  | answer (answer : ActivityAnswer)
  | failure (error : ActivityError)

/-- The inner loop of `_await_approval`: signals are taken off the queue up to the first one
that is bound to the plan. -/
def takeCandidate (workflowId : String) (planHash : Option String) :
    List RemediationApprovalSignal →
      Option RemediationApprovalSignal × List RemediationApprovalSignal × List String
  | [] => (none, [], [])
  | candidate :: pending =>
    let decision := evaluateApprovalSignal workflowId planHash candidate
    if decision.accepted then (some candidate, pending, [])
    else
      let (found, rest, reasons) := takeCandidate workflowId planHash pending
      (found, rest, decision.reason :: reasons)

namespace WorkflowState

section
variable (request : RemediationRequest) (now : UtcTime)

/-- `run` schedules an activity and is suspended until it answers. -/
def schedule (s : WorkflowState) (phase : WorkflowPhase) : WorkflowState × List WorkflowStep :=
  ({ s with phase := phase }, (phase.call.map .scheduled).toList)

/-- `_record`. -/
def record (s : WorkflowState) (plan : RemediationPlanResult) (outcome : ActionOutcome)
    (approver : String) : WorkflowState × List WorkflowStep :=
  s.schedule (.recording plan outcome approver now.isoformat)

/-- `_finish`. -/
def finish (s : WorkflowState) (plan : RemediationPlanResult) (decision : StepDecision)
    (approver fromStatus : String) (workflowVersion : Int) : WorkflowState × List WorkflowStep :=
  s.record now plan (decision.outcome fromStatus workflowVersion) approver

/-- The end of an approval wait without an approval. -/
def expire (s : WorkflowState) (plan : RemediationPlanResult) : WorkflowState × List WorkflowStep :=
  s.finish now plan expiredDecision "" "waiting_approval" plan.workflowVersion

/-- The wait, woken: the queue is gone through, and from the deadline on the wait is over. An
invalid request has no workflow id to compare with. -/
def examine (s : WorkflowState) (plan : RemediationPlanResult) (deadline : Int) :
    WorkflowState × List WorkflowStep :=
  if !s.pending.isEmpty && request.validate.isSome then ({ s with phase := .stalled }, [])
  else
    let (found, rest, reasons) := takeCandidate request.workflowId plan.planHash s.pending
    let examined : WorkflowState := ⟨rest, s.rejected ++ reasons, .awaiting plan deadline⟩
    match found with
    | some signal =>
      let (s', steps) := examined.schedule (.verifying plan signal)
      (s', .accepted signal :: steps)
    | none => if deadline ≤ now.instant then examined.expire now plan else (examined, [])

/-- `_await_approval`. A deadline that no `datetime` can hold raises. -/
def awaitApproval (s : WorkflowState) (plan : RemediationPlanResult) :
    WorkflowState × List WorkflowStep :=
  let deadline := now.instant + request.approvalTimeoutSeconds * 1000000
  if UtcTime.maxInstant < deadline then ({ s with phase := .stalled }, [])
  else if deadline ≤ now.instant then s.expire now plan
  else s.examine request now plan deadline

/-- What `run` does with an answer; nothing if it does not wait for one of this kind. -/
def proceed (s : WorkflowState) (answer : ActivityAnswer) :
    Option (WorkflowState × List WorkflowStep) :=
  match s.phase, answer with
  | .collecting _, .evidence bundle => some (s.schedule (.planning bundle now.isoformat))
  | .planning evidence _, .plan plan =>
    let decision := decideAfterPlan plan
    if !decision.proceed then
      some (s.finish now plan decision "" "received" evidence.workflowVersion)
    else some (s.awaitApproval request now plan)
  | .verifying plan _, .verification verification =>
    let decision := decideAfterApproval verification
    if !decision.proceed then
      some (s.finish now plan decision "" "waiting_approval" plan.workflowVersion)
    else some (s.schedule (.authorizing plan verification.approver))
  | .authorizing plan approver, .verdict verdict =>
    let decision := decideAfterPolicy verdict
    if !decision.proceed then
      some (s.finish now plan decision approver "waiting_approval" plan.workflowVersion)
    else some (s.schedule (.rehearsing plan approver))
  | .rehearsing plan approver, .rehearsal rehearsal =>
    let decision := decideAfterRehearsal rehearsal
    if !decision.proceed then
      some (s.finish now plan decision approver "waiting_approval" plan.workflowVersion)
    else some (s.schedule (.executing plan approver now.isoformat))
  | .executing plan approver _, .action outcome => some (s.record now plan outcome approver)
  | .recording _ _ _ _, .outcome result => some ({ s with phase := .finished result }, [])
  | _, _ => none

end

/-- One activation. `submit_approval` only queues; the queue is looked at by a wait. -/
def step (request : RemediationRequest) (s : WorkflowState) (input : UtcTime × WorkflowInput) :
    WorkflowState × List WorkflowStep :=
  match input.2 with
  | .wake batch =>
    let queued := { s with pending := s.pending ++ batch }
    match s.phase with
    | .awaiting plan deadline => queued.examine request input.1 plan deadline
    | _ => (queued, [])
  | .answer answer =>
    match s.proceed request input.1 answer with
    | none => (s, [])
    | some (s', steps) => (s', .answered answer :: steps)
  | .failure error => if s.phase.call.isSome then ({ s with phase := .failed error }, []) else (s, [])

def initial (now : UtcTime) : WorkflowState := { phase := .collecting now.isoformat }

end WorkflowState

/-- Everything a run has done. -/
def workflowTrace (request : RemediationRequest) (start : UtcTime)
    (inputs : List (UtcTime × WorkflowInput)) : List WorkflowStep :=
  .scheduled (.collectEvidence start.isoformat) ::
    (history (WorkflowState.step request) (.initial start) inputs).flatMap (·.2)

def workflowAfter (request : RemediationRequest) (start : UtcTime)
    (inputs : List (UtcTime × WorkflowInput)) : WorkflowState :=
  runState (WorkflowState.step request) (.initial start) inputs

end EngineeringIntelligence.Orchestration
