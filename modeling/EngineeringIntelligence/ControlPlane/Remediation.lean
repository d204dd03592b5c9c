import EngineeringIntelligence.Framework.Run
import EngineeringIntelligence.State.Store

namespace EngineeringIntelligence.ControlPlane

open EngineeringIntelligence.Framework EngineeringIntelligence.State

/-! The control-plane API that writes workflow records itself, past the lifecycle machine:
`RemediationWorkflows`, and `approve_plan` of `ControlPlaneWorkflows`. -/

/-- A signed statement that a plan may be executed. -/
structure Approval where
  workflowId : String
  approver : String
  planHash : String
  issuedAt : Int
  signature : String
  deriving DecidableEq, Repr

/-- What a call may raise. `audit` is raised after the record was written. -/
inductive ControlError where
  | value (message : String)
  | permission (message : String)
  | type (message : String)
  | store (error : StateError)
  | audit (message : String)
  deriving DecidableEq, Repr

inductive RemediationTerminalStatus where
  | blocked
  | denied
  | succeeded
  | rolledBack
  | escalate
  | failed
  deriving DecidableEq, Repr

def RemediationTerminalStatus.value : RemediationTerminalStatus → String
  | blocked => "blocked"
  | denied => "denied"
  | succeeded => "succeeded"
  | rolledBack => "rolled_back"
  | escalate => "escalate"
  | failed => "failed"

def workflowStatusForTerminal : RemediationTerminalStatus → WorkflowStatus
  | .succeeded => .succeeded
  | .rolledBack => .rolledBack
  | .escalate => .escalated
  | .blocked | .denied | .failed => .failed

structure RemediationWorkflowPlan where
  workflowId : String
  service : String
  environment : String
  runbookId : String
  blastRadius : Int
  evidenceIds : List String
  /-- a float, as `repr` prints it -/
  confidence : String
  deriving DecidableEq, Repr

def RemediationWorkflowPlan.payload (p : RemediationWorkflowPlan) : List (String × Json) :=
  [("service", .str p.service), ("environment", .str p.environment),
    ("runbook_id", .str p.runbookId), ("blast_radius", .int p.blastRadius),
    ("evidence_ids", .arr (p.evidenceIds.map .str)), ("confidence", .float p.confidence)]

/-- `_hash` of the plan's payload. -/
def RemediationWorkflowPlan.planHash (sha256 : String → String) (p : RemediationWorkflowPlan) :
    String :=
  "sha256:" ++ sha256 (Json.obj p.payload).dumps

section
variable (hmac : String → String → String)

/-- What an approval signs. -/
def Approval.signed (a : Approval) : String :=
  a.workflowId ++ "|" ++ a.approver ++ "|" ++ a.planHash ++ "|" ++ toString a.issuedAt

def issueApproval (workflowId approver planHash secret : String) (issuedAt : Int) : Approval :=
  let unsigned : Approval := ⟨workflowId, approver, planHash, issuedAt, ""⟩
  { unsigned with signature := hmac secret unsigned.signed }

/-- `hmac.compare_digest` of a hex digest with a text. -/
def compareDigest (expected text : String) : Except ControlError Bool :=
  if text.toList.all (fun c => c.toNat < 128) then .ok (expected = text)
  else .error (.type "comparing strings with non-ASCII characters is not supported")

/-- `verify_approval` at the time `current`. -/
def verifyApproval (a : Approval) (expectedWorkflowId expectedPlanHash secret : String)
    (current : Int) : Except ControlError Bool :=
  if a.workflowId ≠ expectedWorkflowId ∨ a.planHash ≠ expectedPlanHash then .ok false
  else if 900 < current - a.issuedAt ∨ current + 30 < a.issuedAt then .ok false
  else compareDigest (hmac secret a.signed) a.signature

variable {hmac}

theorem compareDigest_eq_true {expected text : String} :
    compareDigest expected text = .ok true ↔
      expected = text ∧ text.toList.all (fun c => c.toNat < 128) = true := by
  unfold compareDigest
  split
  · next hascii => simp [hascii]
  · next hascii => simp [hascii]

/-- What an approval that verifies is bound to. -/
theorem verifyApproval_eq_true {a : Approval} {workflowId planHash secret : String}
    {current : Int} :
    verifyApproval hmac a workflowId planHash secret current = .ok true ↔
      (a.workflowId = workflowId ∧ a.planHash = planHash) ∧
      (current - a.issuedAt ≤ 900 ∧ a.issuedAt ≤ current + 30) ∧
      hmac secret a.signed = a.signature ∧
      a.signature.toList.all (fun c => c.toNat < 128) = true := by
  unfold verifyApproval
  split
  · next hother =>
    refine ⟨nofun, ?_⟩
    intro h
    exact absurd h.1 (not_and_or.mpr hother)
  · next hbound =>
    rw [not_or, not_not, not_not] at hbound
    split
    · next hstale =>
      refine ⟨nofun, ?_⟩
      intro h
      omega
    · next hfresh =>
      have hwindow : current - a.issuedAt ≤ 900 ∧ a.issuedAt ≤ current + 30 := by omega
      rw [compareDigest_eq_true]
      exact ⟨fun h => ⟨hbound, hwindow, h⟩, fun h => h.2.2⟩

/-- An approval verifies for what it was issued for while it is fresh. -/
theorem verifyApproval_issueApproval {workflowId approver planHash secret : String}
    {issuedAt current : Int} (hage : current - issuedAt ≤ 900) (hskew : issuedAt ≤ current + 30)
    (hdigest : ∀ payload, (hmac secret payload).toList.all (fun c => c.toNat < 128) = true) :
    verifyApproval hmac (issueApproval hmac workflowId approver planHash secret issuedAt)
      workflowId planHash secret current = .ok true :=
  verifyApproval_eq_true.mpr ⟨⟨rfl, rfl⟩, ⟨hage, hskew⟩, rfl, hdigest _⟩

end

/-- The state store and the audit log behind the API. -/
structure ControlState where
  db : SqliteDb
  events : List AuditEvent

namespace ControlState

def initial : ControlState := ⟨.empty, []⟩

/-- Writes a record, then the audit event about what was stored; a failing audit log does not
take the record back. -/
def persist (s : ControlState) (record : WorkflowRecord) (expectedVersion : Option Int)
    (event : WorkflowRecord → AuditEvent) (audit : Except String Unit) :
    ControlState × Except ControlError WorkflowRecord :=
  match s.db.putWorkflow record expectedVersion with
  | (db, .error e) => ({ s with db := db }, .error (.store e))
  | (db, .ok stored) =>
    match audit with
    | .error m => ({ s with db := db }, .error (.audit m))
    | .ok () => (⟨db, s.events ++ [event stored]⟩, .ok stored)

/-- `prepare`; the correlation id and the time stamp are drawn by the call. -/
def prepare (sha256 : String → String) (s : ControlState) (plan : RemediationWorkflowPlan)
    (correlationId updatedAt : String) (audit : Except String Unit) :
    ControlState × Except ControlError WorkflowRecord :=
  s.persist
    { workflowId := plan.workflowId, serviceId := plan.service, environment := plan.environment
      kind := "remediation", status := .waitingApproval, correlationId := correlationId
      planHash := some (plan.planHash sha256), version := 1, updatedAt := updatedAt
      tenantId := "default" }
    none
    (fun stored =>
      { eventId := stored.workflowId ++ ":planned:" ++ toString stored.version
        correlationId := stored.correlationId, actor := "agent:remediation-planner"
        action := "prepare-remediation", resource := stored.workflowId
        payload := plan.payload ++ [("plan_hash", .str (plan.planHash sha256))] })
    audit

section
variable (hmac : String → String → String)

/-- The guards `approve` and `approve_plan` share, around a check of the status that only one
of them makes: the workflow and its plan hash. -/
def approvable (s : ControlState) (workflowId notFound refused : String)
    (statusError : WorkflowStatus → Option String) (approval : Approval) (secret : String)
    (current : Int) : Except ControlError (WorkflowRecord × String) :=
  match s.db.getWorkflow workflowId with
  | .error e => .error (.store e)
  | .ok none => .error (.value notFound)
  | .ok (some workflow) =>
    match workflow.planHash with
    | none => .error (.value notFound)
    | some planHash =>
      match statusError workflow.status with
      | some m => .error (.value m)
      | none =>
        match verifyApproval hmac approval workflow.workflowId planHash secret current with
        | .error e => .error e
        | .ok false => .error (.permission refused)
        | .ok true => .ok (workflow, planHash)

/-- What an accepted approval writes. -/
def execute (s : ControlState) (workflowId step action : String) (workflow : WorkflowRecord)
    (planHash : String) (approval : Approval) (audit : Except String Unit) :
    ControlState × Except ControlError WorkflowRecord :=
  s.persist { workflow with status := .executing } (some workflow.version)
    (fun stored =>
      { eventId := workflowId ++ ":" ++ step ++ ":" ++ toString stored.version
        correlationId := workflow.correlationId, actor := "human:" ++ approval.approver
        action := action, resource := workflowId, payload := [("plan_hash", .str planHash)] })
    audit

/-- `RemediationWorkflows.approve`. -/
def approve (s : ControlState) (workflowId : String) (approval : Approval) (secret : String)
    (current : Int) (audit : Except String Unit) :
    ControlState × Except ControlError WorkflowRecord :=
  match s.approvable hmac workflowId "remediation workflow or plan not found"
      "approval is invalid, stale, expired, or bound to another plan"
      (fun status => if status = .waitingApproval then none
        else some "workflow is not waiting for approval")
      approval secret current with
  | .error e => (s, .error e)
  | .ok (workflow, planHash) =>
    s.execute workflowId "approved" "approve-remediation" workflow planHash approval audit

/-- `ControlPlaneWorkflows.approve_plan`: the status is not looked at. -/
def approvePlan (s : ControlState) (workflowId : String) (approval : Approval) (secret : String)
    (current : Int) (audit : Except String Unit) :
    ControlState × Except ControlError WorkflowRecord :=
  match s.approvable hmac workflowId "workflow or plan not found"
      "approval is invalid, stale, expired, or for a different plan" (fun _ => none)
      approval secret current with
  | .error e => (s, .error e)
  | .ok (workflow, planHash) =>
    s.execute workflowId "approval" "approve-plan" workflow planHash approval audit

end

/-- `RemediationWorkflows.finish`: the status is not looked at. -/
def finish (s : ControlState) (workflowId : String) (status : RemediationTerminalStatus)
    (executionRef rollbackRef : Option String) (audit : Except String Unit) :
    ControlState × Except ControlError WorkflowRecord :=
  match s.db.getWorkflow workflowId with
  | .error e => (s, .error (.store e))
  | .ok none => (s, .error (.value "remediation workflow not found"))
  | .ok (some workflow) =>
    s.persist { workflow with status := workflowStatusForTerminal status } (some workflow.version)
      (fun stored =>
        { eventId := workflowId ++ ":result:" ++ toString stored.version
          correlationId := workflow.correlationId, actor := "agent:remediation-executor"
          action := "finish-remediation", resource := workflowId
          payload := [("status", .str status.value), ("execution_ref", Json.optStr executionRef),
            ("rollback_ref", Json.optStr rollbackRef)] })
      audit

end ControlState

/-- Calls on the API; `audit` is how the audit log answers. -/
inductive ControlOp where
  | prepare (plan : RemediationWorkflowPlan) (correlationId updatedAt : String)
      (audit : Except String Unit)
  | approve (workflowId : String) (approval : Approval) (secret : String) (current : Int)
      (audit : Except String Unit)
  | approvePlan (workflowId : String) (approval : Approval) (secret : String) (current : Int)
      (audit : Except String Unit)
  | finish (workflowId : String) (status : RemediationTerminalStatus)
      (executionRef rollbackRef : Option String) (audit : Except String Unit)

/-- The approval a call presents. -/
def ControlOp.approval : ControlOp → Option Approval
  | .approve _ a _ _ _ => some a
  | .approvePlan _ a _ _ _ => some a
  | _ => none

/-- The record was written, whether or not the audit event was. -/
def persisted {α : Type} : Except ControlError α → Bool
  | .ok _ => true
  | .error (.audit _) => true
  | .error _ => false

section
variable (sha256 : String → String) (hmac : String → String → String)

def ControlState.step (s : ControlState) : ControlOp →
    ControlState × Except ControlError WorkflowRecord
  | .prepare plan correlationId updatedAt audit => s.prepare sha256 plan correlationId updatedAt audit
  | .approve workflowId approval secret current audit =>
    s.approve hmac workflowId approval secret current audit
  | .approvePlan workflowId approval secret current audit =>
    s.approvePlan hmac workflowId approval secret current audit
  | .finish workflowId status executionRef rollbackRef audit =>
    s.finish workflowId status executionRef rollbackRef audit

end

/-- The record a workflow has in a store. -/
def recordIn (db : SqliteDb) (workflowId : String) : Option WorkflowRecord :=
  (db.workflows.lookup workflowId).bind (fun row => payloadToWorkflow row.payload)

def ControlState.record (s : ControlState) (workflowId : String) : Option WorkflowRecord :=
  recordIn s.db workflowId

/-- The persisted status of a workflow. -/
def ControlState.status (s : ControlState) (workflowId : String) : Option WorkflowStatus :=
  (s.record workflowId).map (·.status)

/-! What a call can do to the store. -/

/-- The record a call writes, up to its version, with the guards it has passed. -/
inductive Writes (sha256 : String → String) (hmac : String → String → String) (s : ControlState) :
    ControlOp → WorkflowRecord → Prop
  | prepare {plan correlationId updatedAt audit r} (hid : r.workflowId = plan.workflowId)
      (hstatus : r.status = .waitingApproval) (hplan : r.planHash = some (plan.planHash sha256)) :
      Writes sha256 hmac s (.prepare plan correlationId updatedAt audit) r
  | approve {workflowId approval secret current audit workflow planHash r}
      (hold : s.record workflowId = some workflow) (hwaiting : workflow.status = .waitingApproval)
      (hplan : workflow.planHash = some planHash)
      (hverified : verifyApproval hmac approval workflow.workflowId planHash secret current = .ok true)
      (hid : r.workflowId = workflow.workflowId) (hstatus : r.status = .executing)
      (hkept : r.planHash = workflow.planHash) :
      Writes sha256 hmac s (.approve workflowId approval secret current audit) r
  | approvePlan {workflowId approval secret current audit workflow planHash r}
      (hold : s.record workflowId = some workflow) (hplan : workflow.planHash = some planHash)
      (hverified : verifyApproval hmac approval workflow.workflowId planHash secret current = .ok true)
      (hid : r.workflowId = workflow.workflowId) (hstatus : r.status = .executing)
      (hkept : r.planHash = workflow.planHash) :
      Writes sha256 hmac s (.approvePlan workflowId approval secret current audit) r
  | finish {workflowId status executionRef rollbackRef audit workflow r}
      (hold : s.record workflowId = some workflow) (hid : r.workflowId = workflow.workflowId)
      (hstatus : r.status = workflowStatusForTerminal status)
      (hkept : r.planHash = workflow.planHash) :
      Writes sha256 hmac s (.finish workflowId status executionRef rollbackRef audit) r

/-- A call leaves every record as it is, or writes one. -/
inductive Outcome (sha256 : String → String) (hmac : String → String → String) (s : ControlState)
    (op : ControlOp) (s' : ControlState) (answer : Except ControlError WorkflowRecord) : Prop
  | refused (hanswer : persisted answer = false) (hrecord : s'.record = s.record)
  | written (r : WorkflowRecord) (hanswer : persisted answer = true)
      (hwrites : Writes sha256 hmac s op r)
      (hrecord : ∀ id, s'.record id = if id = r.workflowId then some r else s.record id)

section
variable {db db' : SqliteDb} {record stored : WorkflowRecord} {expectedVersion : Option Int}

theorem recordIn_of_getWorkflow {workflowId : String} {workflow : Option WorkflowRecord}
    (h : db.getWorkflow workflowId = .ok workflow) : recordIn db workflowId = workflow := by
  unfold SqliteDb.getWorkflow at h
  unfold recordIn
  cases hrow : db.workflows.lookup workflowId with
  | none =>
    rw [hrow] at h
    cases h
    rfl
  | some row =>
    simp only [hrow] at h
    cases hpayload : payloadToWorkflow row.payload with
    | none =>
      rw [hpayload] at h
      cases h
    | some r =>
      rw [hpayload] at h
      cases h
      exact hpayload

theorem recordIn_writeWorkflow (db : SqliteDb) (record : WorkflowRecord) (id : String) :
    recordIn (db.writeWorkflow record) id =
      if id = record.workflowId then some record else recordIn db id := by
  unfold recordIn SqliteDb.writeWorkflow
  split
  · next hid =>
    rw [hid, AList.lookup_insert]
    exact payloadToWorkflow_asdict record
  · next hid => rw [AList.lookup_insert_ne hid]

theorem putWorkflow_error {e : StateError}
    (h : db.putWorkflow record expectedVersion = (db', .error e)) : db' = db := by
  unfold SqliteDb.putWorkflow SqliteDb.immediate at h
  dsimp only at h
  cases hexpected : assertExpected ((db.workflows.lookup record.workflowId).map (·.version))
      expectedVersion with
  | error x =>
    simp only [hexpected, Prod.mk.injEq] at h
    exact h.1.symm
  | ok u => simp [hexpected] at h

theorem putWorkflow_ok (h : db.putWorkflow record expectedVersion = (db', .ok stored)) :
    (∃ version, stored = { record with version := version }) ∧ db' = db.writeWorkflow stored := by
  unfold SqliteDb.putWorkflow SqliteDb.immediate at h
  dsimp only at h
  cases hexpected : assertExpected ((db.workflows.lookup record.workflowId).map (·.version))
      expectedVersion with
  | error x => simp [hexpected] at h
  | ok u =>
    simp only [hexpected, Prod.mk.injEq, Except.ok.injEq] at h
    obtain ⟨rfl, rfl⟩ := h
    exact ⟨⟨_, rfl⟩, rfl⟩

end

section
variable {sha256 : String → String} {hmac : String → String → String} {s : ControlState}
  {op : ControlOp}

theorem persist_outcome (record : WorkflowRecord) (expectedVersion : Option Int)
    (event : WorkflowRecord → AuditEvent) (audit : Except String Unit)
    (h : ∀ version, Writes sha256 hmac s op { record with version := version }) :
    Outcome sha256 hmac s op (s.persist record expectedVersion event audit).1
      (s.persist record expectedVersion event audit).2 := by
  unfold ControlState.persist
  cases hput : s.db.putWorkflow record expectedVersion with
  | mk db answer =>
    cases answer with
    | error e =>
      refine .refused rfl ?_
      rw [putWorkflow_error hput]
    | ok stored =>
      obtain ⟨⟨version, rfl⟩, rfl⟩ := putWorkflow_ok hput
      cases audit with
      | error m => exact .written _ rfl (h version) (recordIn_writeWorkflow s.db _)
      | ok u => exact .written _ rfl (h version) (recordIn_writeWorkflow s.db _)

/-- What is known once the guards of an approving call are passed. -/
theorem approvable_ok {workflowId notFound refused secret : String}
    {statusError : WorkflowStatus → Option String} {approval : Approval} {current : Int}
    {workflow : WorkflowRecord} {planHash : String}
    (h : s.approvable hmac workflowId notFound refused statusError approval secret current =
      .ok (workflow, planHash)) :
    s.record workflowId = some workflow ∧ statusError workflow.status = none ∧
      workflow.planHash = some planHash ∧
      verifyApproval hmac approval workflow.workflowId planHash secret current = .ok true := by
  unfold ControlState.approvable at h
  split at h
  · cases h
  · cases h
  next w hget =>
  split at h
  · cases h
  next plan hplan =>
  split at h
  · cases h
  next hstatus =>
  split at h
  · cases h
  · cases h
  next hverified =>
  cases h
  exact ⟨recordIn_of_getWorkflow hget, hstatus, hplan, hverified⟩

/-- A call that a guard refuses is answered with an error of its own. -/
theorem approvable_refused {workflowId notFound refused secret : String}
    {statusError : WorkflowStatus → Option String} {approval : Approval} {current : Int}
    {e : ControlError}
    (h : s.approvable hmac workflowId notFound refused statusError approval secret current =
      .error e) : persisted (.error e : Except ControlError WorkflowRecord) = false := by
  unfold ControlState.approvable at h
  split at h
  · cases h; rfl
  · cases h; rfl
  split at h
  · cases h; rfl
  split at h
  · cases h; rfl
  split at h
  · next hverify =>
    cases h
    unfold verifyApproval compareDigest at hverify
    split at hverify
    · cases hverify
    split at hverify
    · cases hverify
    split at hverify
    · cases hverify
    · cases hverify; rfl
  · cases h; rfl
  · cases h

/-- Every call leaves the records alone or writes one. -/
theorem step_outcome (sha256 : String → String) (hmac : String → String → String)
    (s : ControlState) (op : ControlOp) :
    Outcome sha256 hmac s op (s.step sha256 hmac op).1 (s.step sha256 hmac op).2 := by
  cases op with
  | prepare plan correlationId updatedAt audit =>
    apply persist_outcome
    intro version
    exact .prepare rfl rfl rfl
  | approve workflowId approval secret current audit =>
    simp only [ControlState.step, ControlState.approve]
    split
    · next e he => exact .refused (approvable_refused he) rfl
    · next workflow planHash hok =>
      obtain ⟨hold, hstatus, hplan, hverified⟩ := approvable_ok hok
      have hwaiting : workflow.status = .waitingApproval := by
        by_contra hne
        simp [hne] at hstatus
      apply persist_outcome
      intro version
      exact .approve hold hwaiting hplan hverified rfl rfl rfl
  | approvePlan workflowId approval secret current audit =>
    simp only [ControlState.step, ControlState.approvePlan]
    split
    · next e he => exact .refused (approvable_refused he) rfl
    · next workflow planHash hok =>
      obtain ⟨hold, -, hplan, hverified⟩ := approvable_ok hok
      apply persist_outcome
      intro version
      exact .approvePlan hold hplan hverified rfl rfl rfl
  | finish workflowId status executionRef rollbackRef audit =>
    simp only [ControlState.step, ControlState.finish]
    split
    · exact .refused rfl rfl
    · exact .refused rfl rfl
    · next workflow hget =>
      apply persist_outcome
      intro version
      exact .finish (recordIn_of_getWorkflow hget) rfl rfl rfl

end

end EngineeringIntelligence.ControlPlane
