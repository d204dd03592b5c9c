import EngineeringIntelligence.Orchestration.RemediationWorkflow
import EngineeringIntelligence.State.CosmosRefinement

namespace EngineeringIntelligence.Orchestration

open EngineeringIntelligence.Framework EngineeringIntelligence.State
open EngineeringIntelligence.Remediation (ExecutionResult)

/-! A remediation workflow together with the attempts at its activities and the state store
they write to. An activity that got stuck or was given up may still be running when the next
attempt starts, and other workflows use the same store. -/

/-- A `StateStore` as lifecycle events see it. -/
structure LifecycleStore where
  Contents : Type
  empty : Contents
  applyWorkflowEvent : Contents → WorkflowLifecycleEvent →
    Contents × Except StateError WorkflowTransitionResult
  getWorkflow : Contents → String → Except StateError (Option WorkflowRecord)

/-- The two state stores that the factory builds. -/
def sqliteStore (sha256 : String → String) : LifecycleStore where
  Contents := SqliteDb
  empty := .empty
  applyWorkflowEvent := State.applyWorkflowEvent sha256
  getWorkflow := fun db w => db.getWorkflow w

def cosmosStore (sha256 : String → String) : LifecycleStore where
  Contents := Cosmos.CosmosContainer
  empty := .empty
  applyWorkflowEvent := Cosmos.applyWorkflowEvent sha256
  getWorkflow := Cosmos.getWorkflow

/-! ### Attempts -/

/-- What one attempt meets outside the state store: the evidence of the provider, and what
the signature check, the policy evaluator, the digital twin and the control loop make of
their part. -/
structure Encounter where
  evidence : Except ActivityError (List (String × Json)) := .ok []
  verification : Except ActivityError ApprovalVerification := .ok ⟨false, "", ""⟩
  verdict : Except ActivityError PolicyVerdict := .ok ⟨false, "", ""⟩
  rehearsal : Except ActivityError RehearsalVerdict := .ok ⟨false, "", []⟩
  execution : Except ActivityError ExecutionResult := .error (.raised "")

/-- The activities as `build_remediation_activities` sets them up; `analyze` is what
`evidence_from_mapping` and `analyze_incident` make of the evidence for a service. -/
def remediationSetup (environ : String → Option String)
    (analyze : String → List Json → Except ActivityError (List IncidentHypothesis)) :
    ActivitySetup where
  environ := environ
  plan := fun service evidence => (analyze service evidence).map planFromIncident

/-- An attempt at a scheduled activity. -/
def ActivityCall.script (sha256 : String → String) (setup : ActivitySetup)
    (request : RemediationRequest) (met : Encounter) : ActivityCall → ActivityScript ActivityAnswer
  | .collectEvidence occurredAt =>
    (Orchestration.collectEvidence setup request met.evidence occurredAt).map (·.map .evidence)
  | .planRemediation evidence occurredAt =>
    (Orchestration.planRemediation sha256 setup request (some evidence) occurredAt).map
      (·.map .plan)
  | .verifyApproval _ _ => .finish (met.verification.map .verification)
  | .evaluatePolicy _ _ => .finish (met.verdict.map .verdict)
  | .rehearseInTwin _ _ => .finish (met.rehearsal.map .rehearsal)
  | .executeAction plan approvalVerified occurredAt =>
    (Orchestration.executeAction setup request (some plan) approvalVerified met.execution
      occurredAt).map (·.map .action)
  | .recordOutcome plan outcome approver occurredAt =>
    (Orchestration.recordOutcome setup request (some plan) outcome approver occurredAt).map
      (·.map .outcome)

/-- `maximum_attempts` of the retry policy: a mutation is never retried. -/
def ActivityCall.maximumAttempts : ActivityCall → Nat
  | .executeAction _ _ _ => 1
  | _ => 5

/-- An attempt that was started. `scheduledAt` tells which activity it belongs to: how long
the workflow's history was when it was scheduled. -/
structure StartedAttempt where
  scheduledAt : Nat
  call : ActivityCall
  met : Encounter
  script : ActivityScript ActivityAnswer

/-- How a call on the bridge goes: it is lost before it reaches the state store, or the audit
log answers it in the end. -/
inductive BridgeCourse where
  | unsent
  | sent (exported : Except AuditError Json)

/-! ### The system -/

/-- A lifecycle event that reached the state store: the record of the workflow then, and the
answer. -/
structure Submission where
  event : WorkflowLifecycleEvent
  current : Except StateError (Option WorkflowRecord)
  answer : Except StateError WorkflowTransitionResult

structure RemediationRun (store : LifecycleStore) where
  contents : store.Contents
  workflow : WorkflowState
  trace : List WorkflowStep
  /-- attempts at the activity the workflow is waiting for -/
  attempts : Nat := 0
  started : List StartedAttempt := []

inductive RunMove where
  | start (met : Encounter)
  | exchange (i : Nat) (course : BridgeCourse)
  | report (i : Nat) (now : UtcTime)
  | abandon (now : UtcTime) (error : ActivityError)
  | wake (now : UtcTime) (batch : List RemediationApprovalSignal)
  | elsewhere (event : WorkflowLifecycleEvent)

namespace RemediationRun

variable {store : LifecycleStore}

def initial (store : LifecycleStore) (now : UtcTime) : RemediationRun store where
  contents := store.empty
  workflow := .initial now
  trace := [.scheduled (.collectEvidence now.isoformat)]

/-- The workflow is activated. What it schedules then is a new activity. -/
def activate (request : RemediationRequest) (s : RemediationRun store)
    (input : UtcTime × WorkflowInput) : RemediationRun store :=
  let (workflow, steps) := s.workflow.step request input
  { s with
    workflow := workflow
    trace := s.trace ++ steps
    attempts := if steps.isEmpty then s.attempts else 0 }

/-- The script of a started attempt goes on, or ends with an exception. -/
def resume (s : RemediationRun store) (i : Nat) (a : StartedAttempt)
    (script : ActivityScript ActivityAnswer) : RemediationRun store :=
  { s with started := s.started.set i { a with script := script } }

section
variable (sha256 : String → String) (setup : ActivitySetup) (request : RemediationRequest)

/-- The engine starts an attempt at the activity that is waited for. -/
def start (s : RemediationRun store) (met : Encounter) : RemediationRun store :=
  match s.workflow.phase.call with
  | none => s
  | some call =>
    if s.attempts < call.maximumAttempts then
      { s with
        attempts := s.attempts + 1
        started := s.started ++
          [⟨s.trace.length, call, met, call.script sha256 setup request met⟩] }
    else s

/-- A started attempt makes its next call: `persist_workflow_lifecycle`. -/
def exchange (s : RemediationRun store) (i : Nat) (course : BridgeCourse) :
    RemediationRun store × Option Submission :=
  match s.started[i]? with
  | none => (s, none)
  | some a =>
    match a.script, course with
    | .finish _, _ => (s, none)
    | .call _ _, .unsent => (s.resume i a (.finish (.error (.bridge .interrupted))), none)
    | .call c next, .sent exported =>
      let current := store.getWorkflow s.contents c.event.workflowId
      let (contents, answer) := store.applyWorkflowEvent s.contents c.event
      let applied := { s with contents := contents }
      let submission : Submission := ⟨c.event, current, answer⟩
      match answer with
      | .error x => (applied.resume i a (.finish (.error (.bridge (.state x)))), some submission)
      | .ok transition =>
        match conclude c.event transition exported with
        | .error x => (applied.resume i a (.finish (.error (.bridge x))), some submission)
        | .ok result => (applied.resume i a (next result), some submission)

/-- The engine hands what an attempt returned to the workflow, if it still waits for it. -/
def report (s : RemediationRun store) (i : Nat) (now : UtcTime) : RemediationRun store :=
  match s.started[i]? with
  | some ⟨scheduledAt, _, _, .finish (.ok answer)⟩ =>
    if scheduledAt = s.trace.length then s.activate request (now, .answer answer) else s
  | _ => s

def step (s : RemediationRun store) : RunMove → RemediationRun store × Option Submission
  | .start met => (s.start sha256 setup request met, none)
  | .exchange i course => s.exchange i course
  | .report i now => (s.report request i now, none)
  | .abandon now error => (s.activate request (now, .failure error), none)
  | .wake now batch => (s.activate request (now, .wake batch), none)
  | .elsewhere event =>
    ({ s with contents := (store.applyWorkflowEvent s.contents event).1 }, none)

end

end RemediationRun

end EngineeringIntelligence.Orchestration
