import EngineeringIntelligence.ControlPlane.WorkflowLaw
import EngineeringIntelligence.Orchestration.RemediationActivities
import EngineeringIntelligence.Product.DurableSelfHealing

namespace EngineeringIntelligence.Product

open EngineeringIntelligence.Framework EngineeringIntelligence.State
open EngineeringIntelligence.Orchestration EngineeringIntelligence.Remediation
open EngineeringIntelligence.ControlPlane

/-! `DurableSelfHealingCoordinator` with any number of `DurableRunner`s: workflow records in one
store, jobs in another, and no transaction over both. -/

structure PreparedRemediation where
  workflow : WorkflowRecord
  plan : RemediationPlan
  blastRadius : Int

/-- The id of the job that a workflow's plan is executed under. -/
def remediationJobId (workflow : WorkflowRecord) : String :=
  workflow.workflowId ++ ":" ++ workflow.planHash.getD "None"

section
variable (coordinator : Coordinator)

/-- The plan that `prepare` writes for an incident. -/
def incidentPlan (plan : RemediationPlan) (incidentId : String) (blastRadius : Int) :
    RemediationWorkflowPlan where
  workflowId := "remediation:" ++ incidentId
  service := coordinator.policy.service
  environment := coordinator.policy.environment
  runbookId := plan.runbookId
  blastRadius := blastRadius
  evidenceIds := plan.evidenceIds
  confidence := plan.confidence.1

/-- The job that `approve_and_enqueue` puts on the queue. -/
def remediationJob (prepared : PreparedRemediation) (errorBudgetRemaining : Json) (notBefore : Rat) :
    NewJob where
  jobId := remediationJobId prepared.workflow
  workflowId := prepared.workflow.workflowId
  kind := jobKind
  payload := [("approval_verified", .bool true), ("blast_radius", .int prepared.blastRadius),
    ("environment", .str coordinator.policy.environment),
    ("error_budget_remaining", errorBudgetRemaining), ("runbook_id", .str prepared.plan.runbookId),
    ("service", .str coordinator.policy.service)]
  notBefore := notBefore

end

/-- How `finish` goes: it raises before it writes, or the audit log answers it in the end. -/
inductive FinishCourse where
  | raised (error : PyException)
  | written (audit : Except String Unit)

/-- What a call of `handle_job` meets: everything but the workflow records. -/
structure JobSurroundings where
  sandboxAdapter : ActionAdapter
  adapter : ActionAdapter
  environ : String → Option String := fun _ => none
  simulatedAt : Moment
  executedAt : Moment
  finishing : FinishCourse

def controlException : ControlError → PyException
  | .value m => ⟨"ValueError", m⟩
  | .permission m => ⟨"PermissionError", m⟩
  | .type m => ⟨"TypeError", m⟩
  | .store e => ⟨e.className, ""⟩
  | .audit m => ⟨"AuditError", m⟩

/-- `finish` on the workflow records. -/
def JobSurroundings.finish (around : JobSurroundings) (control : ControlState) (workflowId : String)
    (status : RemediationTerminalStatus) (executionRef rollbackRef : Option String) :
    ControlState × Except PyException Unit :=
  match around.finishing with
  | .raised x => (control, .error x)
  | .written audit =>
    match control.finish workflowId status executionRef rollbackRef audit with
    | (control', .error e) => (control', .error (controlException e))
    | (control', .ok _) => (control', .ok ())

def JobSurroundings.world (around : JobSurroundings) (control : ControlState) : JobWorld where
  sandboxAdapter := around.sandboxAdapter
  adapter := around.adapter
  environ := around.environ
  simulatedAt := around.simulatedAt
  executedAt := around.executedAt
  finish := fun workflowId status executionRef rollbackRef =>
    (around.finish control workflowId status executionRef rollbackRef).2

structure SelfHealing where
  control : ControlState
  runners : Runners RemediationEffect

inductive SelfHealingOp where
  | prepare (hypotheses : List IncidentHypothesis) (incidentId : String) (blastRadius : Int)
      (correlationId updatedAt : String) (audit : Except String Unit)
  /-- `reachesQueue` is whether the call gets from the approval to the queue. -/
  | approveAndEnqueue (prepared : PreparedRemediation) (approval : Approval)
      (errorBudgetRemaining : Json) (current : Int) (notBefore : Rat) (audit : Except String Unit)
      (reachesQueue : Bool)
  | claim (worker : Nat) (leaseSeconds now : Rat)
  | handle (worker : Nat) (around : JobSurroundings)
  | complete (worker : Nat)
  | failRead (worker : Nat) (now : Rat)
  | failWrite (worker : Nat) (base : Rat)
  | crash (worker : Nat)

section
variable (sha256 repr : String → String) (hmac : String → String → String) (secret : String)
  (coordinator : Coordinator)

/-- The call of `finish` that handling a job comes to, with its arguments. -/
def finishCall (job : Job) (around : JobSurroundings) :
    Option (RemediationTerminalStatus × Option String × Option String) :=
  if job.kind ≠ jobKind then none
  else
    match Json.get job.payload "approval_verified" with
    | .bool true =>
      match jobRequest job with
      | .error _ => none
      | .ok request =>
        match (executeControlLoop sha256 (loopCall coordinator request around.sandboxAdapter
            around.simulatedAt around.environ)).result with
        | .error _ => none
        | .ok dryRun =>
          if !safeToPromote dryRun then none
          else
            match (executeControlLoop sha256 (loopCall coordinator request around.adapter
                around.executedAt around.environ)).result with
            | .error _ => none
            | .ok result =>
              match terminalStatus result.status with
              | .error _ => none
              | .ok status => some (status, result.executionRef, result.rollbackRef)
    | _ => none

/-- What handling a job does to the workflow records. -/
def finished (control : ControlState) (job : Job) (around : JobSurroundings) : ControlState :=
  match finishCall sha256 coordinator job around with
  | none => control
  | some (status, executionRef, rollbackRef) =>
    (around.finish control job.workflowId status executionRef rollbackRef).1

namespace SelfHealing

def initial : SelfHealing := ⟨.initial, .initial⟩

def handler (s : SelfHealing) (job : Job) (around : JobSurroundings) : Handling RemediationEffect :=
  runHandler sha256 repr coordinator job (around.world s.control)

/-- A step of a worker that does not touch the workflow records. -/
def work (s : SelfHealing) (op : RunnerOp JobSurroundings) : SelfHealing :=
  { s with runners := s.runners.next (s.handler sha256 repr coordinator) op }

def next (s : SelfHealing) : SelfHealingOp → SelfHealing
  | .prepare hypotheses incidentId blastRadius correlationId updatedAt audit =>
    match planFromIncident hypotheses with
    | none => s
    | some plan => { s with control := (s.control.step sha256 hmac
        (.prepare (incidentPlan coordinator plan incidentId blastRadius) correlationId updatedAt
          audit)).1 }
  | .approveAndEnqueue prepared approval errorBudgetRemaining current notBefore audit reachesQueue =>
    match s.control.step sha256 hmac
        (.approve prepared.workflow.workflowId approval secret current audit) with
    | (control, .error _) => { s with control := control }
    | (control, .ok _) =>
      let approved := { s with control := control }
      if reachesQueue then
        approved.work sha256 repr coordinator
          (.enqueue (remediationJob coordinator prepared errorBudgetRemaining notBefore))
      else approved
  | .claim w leaseSeconds now => s.work sha256 repr coordinator (.claim w leaseSeconds now)
  | .handle w around =>
    match s.runners.phase w with
    | .claimed job =>
      { s.work sha256 repr coordinator (.handle w around) with
        control := finished sha256 coordinator s.control job around }
    | _ => s
  | .complete w => s.work sha256 repr coordinator (.complete w)
  | .failRead w now => s.work sha256 repr coordinator (.failRead w now)
  | .failWrite w base => s.work sha256 repr coordinator (.failWrite w base)
  | .crash w => s.work sha256 repr coordinator (.crash w)

def step (s : SelfHealing) (op : SelfHealingOp) : SelfHealing × Unit :=
  (s.next sha256 repr hmac secret coordinator op, ())

end SelfHealing

end

/-- A job that a worker will take up or has taken up. -/
def LiveJob (row : Job) : Prop := row.status = .queued ∨ row.status = .leased

/-- A workflow is executing only while it has a live job, and once the job of its plan has
ended, it has ended too. -/
structure Coupled (s : SelfHealing) : Prop where
  executing : ∀ id r, s.control.record id = some r → r.status = .executing →
    ∃ row, s.runners.queue.get row.jobId = some row ∧ row.workflowId = id ∧ LiveJob row
  ended : ∀ id r row, s.control.record id = some r →
    s.runners.queue.get (remediationJobId r) = some row → row.status.Terminal →
      r.status.terminal = true

/-- A plan is not prepared again once it has a job; an approval is given for the plan that is
waiting, and gets to the queue; and a job whose workflow is executing is not given up. -/
def Orderly (sha256 : String → String) (coordinator : Coordinator) (s : SelfHealing) :
    SelfHealingOp → Prop
  | .prepare hypotheses incidentId blastRadius _ _ _ => ∀ plan ∈ planFromIncident hypotheses,
      s.runners.queue.get ("remediation:" ++ incidentId ++ ":" ++
        (incidentPlan coordinator plan incidentId blastRadius).planHash sha256) = none
  | .approveAndEnqueue prepared _ _ _ _ audit reachesQueue => audit = .ok () ∧ reachesQueue = true ∧
      ∀ r ∈ s.control.record prepared.workflow.workflowId, r.status = .waitingApproval →
        r.planHash = prepared.workflow.planHash
  | .failWrite w _ => ∀ job seen message now, s.runners.phase w = .failing job seen message now →
      seen.maxAttempts ≤ seen.attempts → ∀ r ∈ s.control.record job.workflowId,
        r.status = .executing → remediationJobId r ≠ job.jobId
  | _ => True

section
variable {sha256 repr : String → String} {hmac : String → String → String} {secret : String}
  {coordinator : Coordinator} {s : SelfHealing}

theorem finishCall_eq {job : Job} {around : JobSurroundings} {request : ActionRequest}
    {dryRun execution : ExecutionResult} {status : RemediationTerminalStatus} (hkind : ¬ job.kind ≠ jobKind)
    (happroved : Json.get job.payload "approval_verified" = .bool true) (hrequest : jobRequest job = .ok request)
    (hdryRun : (executeControlLoop sha256 (loopCall coordinator request around.sandboxAdapter around.simulatedAt
      around.environ)).result = .ok dryRun) (hsafe : ¬ (!safeToPromote dryRun) = true)
    (hexecution : (executeControlLoop sha256 (loopCall coordinator request around.adapter around.executedAt
      around.environ)).result = .ok execution) (hstatus : terminalStatus execution.status = .ok status) :
    finishCall sha256 coordinator job around = some (status, execution.executionRef, execution.rollbackRef) := by
  unfold finishCall
  simp only [if_neg hkind, happroved, hrequest, hdryRun, if_neg hsafe, hexecution, hstatus]

/-- `handle_job` returns only if `finish` got through. -/
theorem finish_of_returned {job : Job} {around : JobSurroundings} {control : ControlState}
    {result : ExecutionResult}
    (h : (handleJob sha256 repr coordinator job (around.world control)).1 = .ok result) :
    ∃ status executionRef rollbackRef,
      finishCall sha256 coordinator job around = some (status, executionRef, rollbackRef) ∧
      (around.finish control job.workflowId status executionRef rollbackRef).2 = .ok () := by
  unfold handleJob at h
  split at h
  · cases h
  next hkind =>
  split at h
  · next happroved =>
    split at h
    · cases h
    next request hrequest =>
    unfold handleRequest at h
    dsimp only [JobSurroundings.world] at h
    split at h
    · cases h
    next dryRun hdryRun =>
    split at h
    · cases h
    next hsafe =>
    split at h
    · cases h
    next execution hexecution =>
    cases hstatus : terminalStatus execution.status with
    | error x =>
      rw [hstatus] at h
      cases h
    | ok status =>
      refine ⟨status, execution.executionRef, execution.rollbackRef,
        finishCall_eq hkind happroved hrequest hdryRun hsafe hexecution hstatus, ?_⟩
      rw [hstatus] at h
      cases hfinish : (around.finish control job.workflowId status execution.executionRef
          execution.rollbackRef).2 with
      | error x =>
        change ((around.finish control job.workflowId status execution.executionRef
          execution.rollbackRef).2 >>= fun _ => pure execution) = .ok result at h
        rw [hfinish] at h
        cases h
      | ok u => rfl
  · cases h

theorem finish_of_handled {job : Job} {around : JobSurroundings} {control : ControlState}
    (h : (runHandler sha256 repr coordinator job (around.world control)).outcome = .ok ()) :
    ∃ status executionRef rollbackRef,
      finishCall sha256 coordinator job around = some (status, executionRef, rollbackRef) ∧
      (around.finish control job.workflowId status executionRef rollbackRef).2 = .ok () := by
  unfold runHandler at h
  split at h
  · cases hresult : (handleJob sha256 repr coordinator job (around.world control)).1 with
    | error x =>
      simp only [hresult] at h
      cases h
    | ok result => exact finish_of_returned hresult
  · cases h

theorem terminal_of_finish (status : RemediationTerminalStatus) :
    (workflowStatusForTerminal status).terminal = true := by
  cases status <;> rfl

/-- Handling a job leaves the records alone or ends the job's workflow. -/
theorem finished_records (control : ControlState) (job : Job) (around : JobSurroundings) :
    (finished sha256 coordinator control job around).record = control.record ∨
      ∃ r r', control.record job.workflowId = some r ∧ r'.workflowId = r.workflowId ∧
        r'.planHash = r.planHash ∧ r'.status.terminal = true ∧
        ∀ id, (finished sha256 coordinator control job around).record id =
          if id = r'.workflowId then some r' else control.record id := by
  unfold finished
  split
  · exact Or.inl rfl
  next status executionRef rollbackRef hcall =>
  unfold JobSurroundings.finish
  split
  · exact Or.inl rfl
  next audit hcourse =>
  have houtcome := step_outcome sha256 (fun _ _ => "") control
    (.finish job.workflowId status executionRef rollbackRef audit)
  have hcontrol : (match control.finish job.workflowId status executionRef rollbackRef audit with
      | (control', .error e) => (control', Except.error (controlException e))
      | (control', .ok _) => (control', .ok ())).1 =
      (control.step sha256 (fun _ _ => "")
        (.finish job.workflowId status executionRef rollbackRef audit)).1 := by
    split <;> next heq => exact (congrArg Prod.fst heq).symm
  rw [hcontrol]
  cases houtcome with
  | refused hanswer hrecord => exact Or.inl hrecord
  | written r' hanswer hwrites hrecord =>
    cases hwrites with
    | @finish _ _ _ _ _ r _ hold hid hstatus hkept =>
      refine Or.inr ⟨r, r', hold, hid, hkept, ?_, hrecord⟩
      rw [hstatus]
      exact terminal_of_finish status

/-- A job that was handled without an exception has ended its workflow. -/
theorem ended_of_handled {job : Job} {around : JobSurroundings} {control : ControlState}
    (h : (runHandler sha256 repr coordinator job (around.world control)).outcome = .ok ()) :
    ∃ r', (∃ r, control.record job.workflowId = some r ∧ r'.workflowId = r.workflowId) ∧
      r'.status.terminal = true ∧
      (finished sha256 coordinator control job around).record r'.workflowId = some r' := by
  obtain ⟨status, executionRef, rollbackRef, hcall, hfinish⟩ := finish_of_handled h
  have hfinished : finished sha256 coordinator control job around =
      (around.finish control job.workflowId status executionRef rollbackRef).1 := by
    unfold finished
    rw [hcall]
  rw [hfinished]
  unfold JobSurroundings.finish at hfinish ⊢
  split at hfinish
  · cases hfinish
  next audit hcourse =>
  have houtcome := step_outcome sha256 (fun _ _ => "") control
    (.finish job.workflowId status executionRef rollbackRef audit)
  have hstep : control.step sha256 (fun _ _ => "")
      (.finish job.workflowId status executionRef rollbackRef audit) =
      control.finish job.workflowId status executionRef rollbackRef audit := rfl
  rw [hstep] at houtcome
  split at hfinish
  · cases hfinish
  next control' stored heq =>
  rw [heq] at houtcome
  cases houtcome with
  | refused hanswer _ => cases hanswer
  | written r' _ hwrites hrecord =>
    cases hwrites with
    | @finish _ _ _ _ _ r _ hold hid hstatus hkept =>
      refine ⟨r', ⟨r, hold, hid⟩, ?_, ?_⟩
      · rw [hstatus]
        exact terminal_of_finish status
      · rw [hrecord, if_pos rfl]

/-! ### The invariant -/

/-- The hash of a plan has 71 characters, so a job id tells workflow and plan apart. -/
theorem jobId_inj {workflow workflow' hash hash' : String} (h : hash.toList.length = 71)
    (h' : hash'.toList.length = 71)
    (heq : workflow ++ ":" ++ hash = workflow' ++ ":" ++ hash') :
    workflow = workflow' ∧ hash = hash' := by
  have hlist := congrArg String.toList heq
  rw [String.toList_append, String.toList_append, String.toList_append, String.toList_append] at hlist
  obtain ⟨hfront, hback⟩ := List.append_inj' hlist (h.trans h'.symm)
  obtain ⟨hworkflow, -⟩ := List.append_inj' hfront rfl
  exact ⟨String.toList_inj.mp hworkflow, String.toList_inj.mp hback⟩

/-- Where a record stands: it waits and its plan has no job, its plan's job is live and nobody
is about to complete it, or it has ended. -/
def Stands (s : SelfHealing) (r : WorkflowRecord) : Prop :=
  (r.status = .waitingApproval ∧ s.runners.queue.get (remediationJobId r) = none) ∨
  (r.status = .executing ∧
    (∃ row, s.runners.queue.get (remediationJobId r) = some row ∧ LiveJob row) ∧
    ∀ w job, s.runners.phase w = .handled job (.ok ()) → job.jobId ≠ remediationJobId r) ∨
  r.status.terminal = true

structure Linked (s : SelfHealing) : Prop where
  keyed : Keyed s.control
  hashes : ∀ id r, s.control.record id = some r →
    ∃ hash, r.planHash = some hash ∧ hash.toList.length = 71
  rows : ∀ jobId row, s.runners.queue.get jobId = some row →
    ∃ hash, hash.toList.length = 71 ∧ jobId = row.workflowId ++ ":" ++ hash
  held : ∀ w job, (s.runners.phase w).job = some job →
    ∃ row, s.runners.queue.get job.jobId = some row ∧ row.workflowId = job.workflowId
  stands : ∀ id r, s.control.record id = some r → Stands s r

/-- A job under the id of a record's plan is a job of that workflow. -/
theorem Linked.owner (h : Linked s) {id : String} {r : WorkflowRecord} {row : Job}
    (hr : s.control.record id = some r)
    (hrow : s.runners.queue.get (remediationJobId r) = some row) : row.workflowId = id := by
  obtain ⟨hash, hlength, hid⟩ := h.rows _ row hrow
  obtain ⟨hash', hplan, hlength'⟩ := h.hashes id r hr
  unfold remediationJobId at hid
  rw [hplan, Option.getD_some] at hid
  rw [← h.keyed id r hr]
  exact (jobId_inj hlength' hlength hid).1.symm

theorem Linked.held_owner (h : Linked s) {id : String} {r : WorkflowRecord} {w : Nat} {job : Job}
    (hr : s.control.record id = some r) (hjob : (s.runners.phase w).job = some job)
    (hid : job.jobId = remediationJobId r) : job.workflowId = id := by
  obtain ⟨row, hrow, hworkflow⟩ := h.held w job hjob
  rw [hid] at hrow
  rw [← hworkflow]
  exact h.owner hr hrow

theorem coupled_of_linked (h : Linked s) : Coupled s := by
  constructor
  · intro id r hr hexecuting
    rcases h.stands id r hr with ⟨hwaiting, -⟩ | ⟨-, ⟨row, hrow, hlive⟩, -⟩ | hterminal
    · rw [hwaiting] at hexecuting
      cases hexecuting
    · refine ⟨row, ?_, h.owner hr hrow, hlive⟩
      rw [Table.key_of_get hrow]
      exact hrow
    · rw [hexecuting] at hterminal
      cases hterminal
  · intro id r row hr hrow hended
    rcases h.stands id r hr with ⟨-, hnone⟩ | ⟨-, ⟨row', hrow', hlive⟩, -⟩ | hterminal
    · rw [hnone] at hrow
      cases hrow
    · obtain rfl : row' = row := Option.some.inj (hrow'.symm.trans hrow)
      rcases hlive with hlive | hlive <;> rcases hended with hended | hended <;>
        · rw [hlive] at hended
          cases hended
    · exact hterminal

/-! ### Steps keep it -/

theorem linked_initial : Linked .initial where
  keyed := keyed_initial
  hashes := by
    intro id r h
    cases h
  rows := by
    intro jobId row h
    cases h
  held := by
    intro w job h
    cases h
  stands := by
    intro id r h
    cases h

/-- Writing one record under its own id keeps records under their ids. -/
theorem keyed_write {control control' : ControlState} {r : WorkflowRecord} (h : Keyed control)
    (hrecord : ∀ id, control'.record id = if id = r.workflowId then some r else control.record id) :
    Keyed control' := by
  intro id r' hr'
  rw [hrecord] at hr'
  split at hr'
  · next hid =>
    cases hr'
    exact hid.symm
  · exact h id r' hr'

theorem forall_write {control control' : ControlState} {r : WorkflowRecord}
    {P : WorkflowRecord → Prop} (h : ∀ id r, control.record id = some r → P r) (hr : P r)
    (hrecord : ∀ id, control'.record id = if id = r.workflowId then some r else control.record id) :
    ∀ id r', control'.record id = some r' → P r' := by
  intro id r' hr'
  rw [hrecord] at hr'
  split at hr'
  · cases hr'
    exact hr
  · exact h id r' hr'

/-- The rest of the invariant does not look at more of the control plane than its records. -/
theorem Linked.of_records (h : Linked s) {control : ControlState}
    (hrecord : control.record = s.control.record) : Linked { s with control := control } where
  keyed := by
    intro id r hr
    exact h.keyed id r (hrecord ▸ hr)
  hashes := by
    intro id r hr
    exact h.hashes id r (hrecord ▸ hr)
  rows := h.rows
  held := h.held
  stands := by
    intro id r hr
    exact h.stands id r (hrecord ▸ hr)

section
variable {handler : Job → JobSurroundings → Handling RemediationEffect}

/-- A step of a worker that is about to report success was there before, or has just handled
its job. -/
theorem next_handled {t : Runners RemediationEffect} {op : RunnerOp JobSurroundings} {w : Nat}
    {job : Job} (h : (t.next handler op).phase w = .handled job (.ok ())) :
    t.phase w = .handled job (.ok ()) ∨ ∃ around, op = .handle w around ∧
      t.phase w = .claimed job ∧ (handler job around).outcome = .ok () := by
  generalize hnext : t.next handler op = t' at h
  have hchange := hnext ▸ next_change handler t op
  cases hchange with
  | stay hr => exact Or.inl h
  | enqueue j => exact Or.inl h
  | @handle w' around job' hphase =>
    rw [Runners.setPhase_phase] at h
    split at h
    · next hw =>
      subst hw
      injection h with hjob houtcome
      subst hjob
      exact Or.inr ⟨around, rfl, hphase, houtcome⟩
    · exact Or.inl h
  | claim _ _ | complete _ | failRead _ _ | failWrite _ | drop _ =>
    rw [Runners.setPhase_phase] at h
    split at h
    · cases h
    · exact Or.inl h

theorem rowChange_workflowId {t : Runners RemediationEffect} {op : RunnerOp JobSurroundings}
    {row row' : Job} (h : RowChange t row op row') : row'.workflowId = row.workflowId := by
  cases h with
  | same => rfl
  | lease _ _ => rfl
  | complete _ _ => rfl
  | fail _ _ =>
    unfold Job.failed
    split <;> rfl

/-- A live job stays live unless its worker reports success or the attempts are used up. -/
theorem rowChange_live {t : Runners RemediationEffect} {op : RunnerOp JobSurroundings}
    {row row' : Job} (h : RowChange t row op row') (hlive : LiveJob row)
    (hcomplete : ∀ w job, t.phase w = .handled job (.ok ()) → job.jobId ≠ row.jobId)
    (hfail : ∀ w base job seen message now, op = .failWrite w base →
      t.phase w = .failing job seen message now → job.jobId = row.jobId →
        ¬ seen.maxAttempts ≤ seen.attempts) : LiveJob row' := by
  cases h with
  | same => exact hlive
  | lease _ _ => exact Or.inr rfl
  | complete hphase hjob => exact absurd hjob (hcomplete _ _ hphase)
  | fail hphase hjob =>
    left
    rw [failed_status, if_neg (hfail _ _ _ _ _ _ rfl hphase hjob)]

/-- The job a worker holds keeps a row of its workflow. -/
theorem held_next {t : Runners RemediationEffect} {op : RunnerOp JobSurroundings}
    (h : ∀ w job, (t.phase w).job = some job →
      ∃ row, t.queue.get job.jobId = some row ∧ row.workflowId = job.workflowId)
    {w : Nat} {job : Job} (hjob : ((t.next handler op).phase w).job = some job) :
    ∃ row, (t.next handler op).queue.get job.jobId = some row ∧
      row.workflowId = job.workflowId := by
  rcases next_job hjob with hold | ⟨leaseSeconds, now, row, -, -, -, hget⟩
  · obtain ⟨row, hrow, hworkflow⟩ := h w job hold
    obtain ⟨row', hrow', hchange⟩ := next_row handler hrow op
    exact ⟨row', hrow', (rowChange_workflowId hchange).trans hworkflow⟩
  · exact ⟨job, hget, rfl⟩

/-- Every job is still under the id of its workflow and a plan. -/
theorem rows_kept {t : Runners RemediationEffect} {op : RunnerOp JobSurroundings}
    (h : ∀ jobId row, t.queue.get jobId = some row →
      ∃ hash, hash.toList.length = 71 ∧ jobId = row.workflowId ++ ":" ++ hash)
    (hnew : ∀ job, op = .enqueue job →
      ∃ hash : String, hash.toList.length = 71 ∧ job.jobId = job.workflowId ++ ":" ++ hash) :
    ∀ jobId row, (t.next handler op).queue.get jobId = some row →
      ∃ hash, hash.toList.length = 71 ∧ jobId = row.workflowId ++ ":" ++ hash := by
  intro jobId row hrow
  cases hget : t.queue.get jobId with
  | none =>
    obtain ⟨job, hop, rfl⟩ := next_new_row hget hrow
    rw [← Table.key_of_get hrow]
    exact hnew job hop
  | some old =>
    obtain ⟨row', hrow', hchange⟩ := next_row handler hget op
    obtain rfl : row' = row := Option.some.inj (hrow'.symm.trans hrow)
    rw [rowChange_workflowId hchange]
    exact h jobId old hget

end

/-- The steps of a worker other than handling its job. -/
theorem stands_work (h : Linked s) {op : RunnerOp JobSurroundings} {id : String}
    {r : WorkflowRecord} (hr : s.control.record id = some r) (hnew : ∀ job, op ≠ .enqueue job)
    (hhandle : ∀ w around, op ≠ .handle w around)
    (hfail : ∀ w base job seen message now, op = .failWrite w base →
      s.runners.phase w = .failing job seen message now → seen.maxAttempts ≤ seen.attempts →
        r.status = .executing → job.jobId ≠ remediationJobId r) :
    Stands (s.work sha256 repr coordinator op) r := by
  rcases h.stands id r hr with ⟨hwaiting, hnone⟩ | ⟨hexecuting, ⟨row, hrow, hlive⟩, hnobody⟩ |
    hterminal
  · refine Or.inl ⟨hwaiting, ?_⟩
    cases hget : (s.work sha256 repr coordinator op).runners.queue.get (remediationJobId r) with
    | none => rfl
    | some row =>
      obtain ⟨job, hop, -⟩ := next_new_row hnone hget
      exact absurd hop (hnew job)
  · refine Or.inr (Or.inl ⟨hexecuting, ?_, ?_⟩)
    · have hkey := Table.key_of_get hrow
      obtain ⟨row', hrow', hchange⟩ := next_row (s.handler sha256 repr coordinator) hrow op
      refine ⟨row', hrow', rowChange_live hchange hlive ?_ ?_⟩
      · intro w job hphase
        rw [hkey]
        exact hnobody w job hphase
      · intro w base job seen message now hop hphase hjob hspent
        exact hfail w base job seen message now hop hphase hspent hexecuting (hjob.trans hkey)
    · intro w job hphase
      rcases next_handled hphase with hold | ⟨around, hop, -, -⟩
      · exact hnobody w job hold
      · exact absurd hop (hhandle w around)
  · exact Or.inr (Or.inr hterminal)

theorem linked_work (h : Linked s) {op : RunnerOp JobSurroundings} (hnew : ∀ job, op ≠ .enqueue job)
    (hhandle : ∀ w around, op ≠ .handle w around)
    (hfail : ∀ w base job seen message now, op = .failWrite w base →
      s.runners.phase w = .failing job seen message now → seen.maxAttempts ≤ seen.attempts →
        ∀ id r, s.control.record id = some r → r.status = .executing →
          job.jobId ≠ remediationJobId r) :
    Linked (s.work sha256 repr coordinator op) where
  keyed := h.keyed
  hashes := h.hashes
  rows := rows_kept h.rows fun job hop => absurd hop (hnew job)
  held := fun _ _ hjob => held_next h.held hjob
  stands := by
    intro id r hr
    refine stands_work h hr hnew hhandle ?_
    intro w base job seen message now hop hphase hspent hexecuting
    exact hfail w base job seen message now hop hphase hspent id r hr hexecuting

theorem linked_quiet (h : Linked s) {op : RunnerOp JobSurroundings}
    (hnew : ∀ job, op ≠ .enqueue job) (hhandle : ∀ w around, op ≠ .handle w around)
    (hfail : ∀ w base, op ≠ .failWrite w base) :
    Linked (s.work sha256 repr coordinator op) := by
  refine linked_work h hnew hhandle ?_
  intro w base job seen message now hop
  exact absurd hop (hfail w base)

theorem linked_prepare (hdigest : ∀ text, (sha256 text).toList.length = 64) (h : Linked s)
    {plan : RemediationWorkflowPlan} {correlationId updatedAt : String} {audit : Except String Unit}
    (hfresh : s.runners.queue.get (plan.workflowId ++ ":" ++ plan.planHash sha256) = none) :
    Linked { s with control :=
      (s.control.step sha256 hmac (.prepare plan correlationId updatedAt audit)).1 } := by
  cases step_outcome sha256 hmac s.control (.prepare plan correlationId updatedAt audit) with
  | refused _ hrecord => exact h.of_records hrecord
  | written r _ hwrites hrecord =>
    cases hwrites with
    | prepare hid hstatus hplan =>
      have hstands : Stands s r := by
        refine Or.inl ⟨hstatus, ?_⟩
        unfold remediationJobId
        rw [hid, hplan]
        exact hfresh
      have hhash : ∃ hash, r.planHash = some hash ∧ hash.toList.length = 71 := by
        refine ⟨_, hplan, ?_⟩
        unfold RemediationWorkflowPlan.planHash
        rw [String.toList_append, List.length_append, hdigest]
        rfl
      exact
        { keyed := keyed_write h.keyed hrecord
          hashes := forall_write h.hashes hhash hrecord
          rows := h.rows
          held := h.held
          stands := forall_write h.stands hstands hrecord }

/-- An approval that was written is answered when the audit log takes its event. -/
theorem approve_answered {control : ControlState} {workflowId : String} {approval : Approval}
    {current : Int}
    (h : persisted (control.approve hmac workflowId approval secret current (.ok ())).2 = true) :
    ∃ stored, (control.approve hmac workflowId approval secret current (.ok ())).2 = .ok stored := by
  unfold ControlState.approve at h ⊢
  split at h
  · next e he =>
    rw [approvable_refused he] at h
    cases h
  · next workflow planHash hok =>
    unfold ControlState.execute ControlState.persist at h ⊢
    split at h
    · cases h
    · next db stored hput => exact ⟨stored, rfl⟩

/-- Another plan's job on the queue changes nothing for a record. -/
theorem stands_enqueue {r : WorkflowRecord} {job : NewJob} (h : Stands s r)
    (hother : r.status = .waitingApproval → job.jobId ≠ remediationJobId r) :
    Stands (s.work sha256 repr coordinator (.enqueue job)) r := by
  rcases h with ⟨hwaiting, hnone⟩ | ⟨hexecuting, ⟨row, hrow, hlive⟩, hnobody⟩ | hterminal
  · refine Or.inl ⟨hwaiting, ?_⟩
    change (s.runners.queue.enqueue job).get (remediationJobId r) = none
    rw [JobQueue.get_enqueue, if_neg (hother hwaiting).symm]
    exact hnone
  · refine Or.inr (Or.inl ⟨hexecuting, ⟨row, ?_, hlive⟩, hnobody⟩)
    change (s.runners.queue.enqueue job).get (remediationJobId r) = some row
    rw [JobQueue.get_enqueue, hrow]
    split <;> rfl
  · exact Or.inr (Or.inr hterminal)

/-- A workflow and the job of its plan, put on the queue together. -/
theorem linked_enqueue (h : Linked s) {workflow r : WorkflowRecord} {control : ControlState}
    {job : NewJob} (hold : s.control.record workflow.workflowId = some workflow)
    (hwaiting : workflow.status = .waitingApproval) (hid : r.workflowId = workflow.workflowId)
    (hkept : r.planHash = workflow.planHash) (hexecuting : r.status = .executing)
    (hrecord : ∀ id, control.record id = if id = r.workflowId then some r else s.control.record id)
    (hjob : job.jobId = remediationJobId workflow) (hworkflow : job.workflowId = workflow.workflowId) :
    Linked ({ s with control := control }.work sha256 repr coordinator (.enqueue job)) := by
  obtain ⟨hash, hplan, hlength⟩ := h.hashes _ workflow hold
  have hjobId : remediationJobId r = job.jobId := by
    rw [hjob]
    unfold remediationJobId
    rw [hid, hkept]
  have hnone : s.runners.queue.get job.jobId = none := by
    rcases h.stands _ workflow hold with ⟨-, hnone⟩ | ⟨hrunning, -, -⟩ | hterminal
    · rw [hjob]
      exact hnone
    · rw [hwaiting] at hrunning
      cases hrunning
    · rw [hwaiting] at hterminal
      cases hterminal
  have hnew : job.jobId = job.workflowId ++ ":" ++ hash := by
    rw [hjob, hworkflow]
    unfold remediationJobId
    rw [hplan, Option.getD_some]
  refine ⟨keyed_write h.keyed hrecord, forall_write h.hashes ⟨hash, hkept.trans hplan, hlength⟩ hrecord,
    rows_kept h.rows ?_, fun _ _ hheld => held_next h.held hheld, ?_⟩
  · intro job' hop
    cases hop
    exact ⟨hash, hlength, hnew⟩
  · intro id r' hr'
    change control.record id = some r' at hr'
    rw [hrecord] at hr'
    split at hr'
    · cases hr'
      refine Or.inr (Or.inl ⟨hexecuting, ⟨job.row, ?_, Or.inl rfl⟩, ?_⟩)
      · change (s.runners.queue.enqueue job).get (remediationJobId r) = some job.row
        rw [JobQueue.get_enqueue, hjobId, if_pos rfl, hnone]
        rfl
      · intro w job' hphase heq
        have hphase' : s.runners.phase w = .handled job' (.ok ()) := hphase
        have hheld : (s.runners.phase w).job = some job' := by rw [hphase']; rfl
        obtain ⟨row, hrow, -⟩ := h.held w job' hheld
        rw [heq, hjobId, hnone] at hrow
        cases hrow
    · next hother =>
      have hstands : Stands { s with control := control } r' := h.stands id r' hr'
      refine stands_enqueue hstands ?_
      intro _ heq
      obtain ⟨hash', hplan', hlength'⟩ := h.hashes id r' hr'
      unfold remediationJobId at heq
      rw [hnew, hplan', Option.getD_some] at heq
      obtain ⟨hsame, -⟩ := jobId_inj hlength hlength' heq
      apply hother
      rw [← h.keyed id r' hr', ← hsame, hworkflow, hid]

theorem linked_approve (h : Linked s) {prepared : PreparedRemediation} {approval : Approval}
    {errorBudgetRemaining : Json} {current : Int} {notBefore : Rat} {audit : Except String Unit}
    {reachesQueue : Bool}
    (hok : Orderly sha256 coordinator s (.approveAndEnqueue prepared approval errorBudgetRemaining
      current notBefore audit reachesQueue)) :
    Linked (s.next sha256 repr hmac secret coordinator (.approveAndEnqueue prepared approval
      errorBudgetRemaining current notBefore audit reachesQueue)) := by
  obtain ⟨rfl, rfl, hplanned⟩ := hok
  have houtcome := step_outcome sha256 hmac s.control
    (.approve prepared.workflow.workflowId approval secret current (.ok ()))
  have hanswered : persisted (s.control.step sha256 hmac (.approve prepared.workflow.workflowId
      approval secret current (.ok ()))).2 = true → ∃ stored, (s.control.step sha256 hmac
        (.approve prepared.workflow.workflowId approval secret current (.ok ()))).2 = .ok stored :=
    approve_answered
  dsimp only [SelfHealing.next]
  split
  · next control e heq =>
    rw [heq] at houtcome hanswered
    cases houtcome with
    | refused _ hrecord => exact h.of_records hrecord
    | written r hanswer _ _ =>
      obtain ⟨stored, hstored⟩ := hanswered hanswer
      cases hstored
  · next control stored heq =>
    rw [heq] at houtcome
    cases houtcome with
    | refused hanswer _ => cases hanswer
    | written r _ hwrites hrecord =>
      cases hwrites with
      | @approve _ _ _ _ _ workflow _ _ hold hwaiting hplan hverified hid hstatus hkept =>
        have hkey := h.keyed _ workflow hold
        rw [if_pos rfl]
        have hold' : s.control.record workflow.workflowId = some workflow := hkey.symm ▸ hold
        refine linked_enqueue h hold' hwaiting hid hkept hstatus
          hrecord ?_ hkey.symm
        change remediationJobId prepared.workflow = remediationJobId workflow
        unfold remediationJobId
        rw [hkey, hplanned workflow hold hwaiting]

/-- After a job was handled, the workflow it belongs to has ended or nobody is about to report
success. -/
theorem stands_handle (h : Linked s) {w : Nat} {job : Job} {around : JobSurroundings}
    (hphase : s.runners.phase w = .claimed job) {id : String} {r : WorkflowRecord}
    (hr : (finished sha256 coordinator s.control job around).record id = some r)
    (hold : s.control.record id = some r) :
    Stands { s.work sha256 repr coordinator (.handle w around) with
      control := finished sha256 coordinator s.control job around } r := by
  have hqueue : (s.work sha256 repr coordinator (.handle w around)).runners.queue =
      s.runners.queue := by
    simp only [SelfHealing.work, Runners.next, hphase, Runners.setPhase_queue]
  rcases h.stands id r hold with ⟨hwaiting, hnone⟩ | ⟨hexecuting, ⟨row, hrow, hlive⟩, hnobody⟩ |
    hterminal
  · refine Or.inl ⟨hwaiting, ?_⟩
    rw [hqueue]
    exact hnone
  · refine Or.inr (Or.inl ⟨hexecuting, ⟨row, ?_, hlive⟩, ?_⟩)
    · rw [hqueue]
      exact hrow
    · intro w' job' hhandled heq
      rcases next_handled hhandled with hbefore | ⟨around', hop, hclaimed, houtcome⟩
      · exact hnobody w' job' hbefore heq
      · cases hop
        obtain rfl : job = job' := by
          rw [hphase] at hclaimed
          injection hclaimed
        have hjob : (s.runners.phase w).job = some job := by
          rw [hphase]
          rfl
        have howner := h.held_owner hold hjob heq
        obtain ⟨r', ⟨r₀, hr₀, hid⟩, hterminal, hended⟩ := ended_of_handled houtcome
        rw [hid, h.keyed _ r₀ hr₀, howner, hr] at hended
        cases hended
        rw [hexecuting] at hterminal
        cases hterminal
  · exact Or.inr (Or.inr hterminal)

theorem linked_handle (h : Linked s) {w : Nat} {job : Job} {around : JobSurroundings}
    (hphase : s.runners.phase w = .claimed job) :
    Linked { s.work sha256 repr coordinator (.handle w around) with
      control := finished sha256 coordinator s.control job around } := by
  have hrows : ∀ jobId row, (s.work sha256 repr coordinator (.handle w around)).runners.queue.get
      jobId = some row → ∃ hash, hash.toList.length = 71 ∧ jobId = row.workflowId ++ ":" ++ hash :=
    rows_kept h.rows fun job hop => by cases hop
  rcases finished_records s.control job around with
    hsame | ⟨r, r', hold, hid, hkept, hterminal, hrecord⟩
  · refine ⟨(h.of_records hsame).keyed, (h.of_records hsame).hashes, hrows,
      fun _ _ hjob => held_next h.held hjob, ?_⟩
    intro id r hr
    exact stands_handle h hphase hr (hsame ▸ hr)
  · obtain ⟨hash, hplan, hlength⟩ := h.hashes _ r hold
    refine ⟨keyed_write h.keyed hrecord,
      forall_write h.hashes ⟨hash, hkept.trans hplan, hlength⟩ hrecord, hrows,
      fun _ _ hjob => held_next h.held hjob, ?_⟩
    intro id r₁ hr₁
    have hnow := hr₁
    change (finished sha256 coordinator s.control job around).record id = some r₁ at hnow
    rw [hrecord] at hnow
    split at hnow
    · cases hnow
      exact Or.inr (Or.inr hterminal)
    · exact stands_handle h hphase hr₁ hnow

theorem linked_step (hdigest : ∀ text, (sha256 text).toList.length = 64) (op : SelfHealingOp)
    (h : Linked s) (hok : Orderly sha256 coordinator s op) :
    Linked (s.step sha256 repr hmac secret coordinator op).1 := by
  cases op with
  | prepare hypotheses incidentId blastRadius correlationId updatedAt audit =>
    dsimp only [SelfHealing.step, SelfHealing.next]
    split
    · exact h
    · next plan hplan => exact linked_prepare hdigest h (hok plan hplan)
  | approveAndEnqueue prepared approval errorBudgetRemaining current notBefore audit reachesQueue =>
    exact linked_approve h hok
  | handle w around =>
    dsimp only [SelfHealing.step, SelfHealing.next]
    split
    · next job hphase => exact linked_handle h hphase
    · exact h
  | failWrite w base =>
    refine linked_work h nofun (fun _ _ hop => nomatch hop) ?_
    intro w' base' job seen message now hop hphase hspent id r hr hexecuting heq
    cases hop
    have hjob : (s.runners.phase w).job = some job := by
      rw [hphase]
      rfl
    obtain rfl := h.held_owner hr hjob heq
    exact hok job seen message now hphase hspent r hr hexecuting heq.symm
  | claim w leaseSeconds now => exact linked_quiet h nofun (fun _ _ hop => nomatch hop) nofun
  | complete w => exact linked_quiet h nofun (fun _ _ hop => nomatch hop) nofun
  | failRead w now => exact linked_quiet h nofun (fun _ _ hop => nomatch hop) nofun
  | crash w => exact linked_quiet h nofun (fun _ _ hop => nomatch hop) nofun

/-- In every run in which a plan is not prepared again once it has a job, approvals get to the
queue, and no job of an executing workflow is given up, records and jobs agree throughout. -/
theorem executing_has_live_job (hdigest : ∀ text, (sha256 text).toList.length = 64)
    {ops : List SelfHealingOp} (hok : Admissible (SelfHealing.step sha256 repr hmac secret coordinator)
      (Orderly sha256 coordinator) .initial ops) (done : List SelfHealingOp) (hdone : done <+: ops) :
    Coupled (runState (SelfHealing.step sha256 repr hmac secret coordinator) .initial done) := by
  obtain ⟨rest, rfl⟩ := hdone
  have hprefix := ((admissible_append _ _ _ _ _).mp hok).1
  exact coupled_of_linked (run_guarded _ (fun _ op h hop => linked_step hdigest op h hop)
    linked_initial hprefix)

end

/-! ### A crash loop -/

instance (row : Job) : Decidable (LiveJob row) := instDecidableOr

/-- The coordinator of a service whose crash loops are restarted after approval. -/
def crashLoopCoordinator : Coordinator where
  catalog := (RunbookCatalog.empty.register
    { id := "aks.restart.crashloop"
      description := "Restart a bounded deployment after CrashLoopBackOff evidence"
      environments := ["stage", "prod"], maxBlastRadius := 3, reversible := true
      requiredLevel := .approveAndExecute, verifySignal := "deployment.ready_replicas"
      preconditions := ["deployment.exists", "pods.crashloop_present"]
      postconditions := ["deployment.ready_replicas", "pods.crashloop_absent"] }).toOption.getD .empty
  policy :=
    { service := "checkout", environment := "prod", level := .approveAndExecute
      certifiedRunbooks := ["aks.restart.crashloop"], maxBlastRadius := 5 }

def crashLoopHypothesis : IncidentHypothesis where
  title := "CrashLoopBackOff is preventing workload recovery"
  evidenceIds := ["alert-1"]
  confidence := ⟨"0.86", by decide +kernel⟩

/-- The plan `crashLoopHypothesis` leads to. -/
def crashLoopPlan : RemediationPlan where
  runbookId := "aks.restart.crashloop"
  reason := "CrashLoopBackOff evidence selects a bounded restart with live pod-state preflight"
  evidenceIds := ["alert-1"]
  confidence := ⟨"0.86", by decide +kernel⟩

def crashLoopPlanHash : String :=
  "sha256:5cfe18740ffcebee60666f8170753862f75803944dca57cd93537a012665650a"

/-- SHA-256 on the canonical text of the plan. -/
def crashLoopSha256 (text : String) : String :=
  if text = (Json.obj (incidentPlan crashLoopCoordinator crashLoopPlan "INC-7" 1).payload).dumps then
    "5cfe18740ffcebee60666f8170753862f75803944dca57cd93537a012665650a"
  else "0000000000000000000000000000000000000000000000000000000000000000"

def crashLoopApproval : Approval where
  workflowId := "remediation:INC-7"
  approver := "sre-oncall"
  planHash := crashLoopPlanHash
  issuedAt := 1000
  signature := "8d2ae3824b9942fa8d52d0de7b8a7e72957efa5051757559d0626b3ed222bfe6"

/-- HMAC-SHA-256 on what `crashLoopApproval` signs. -/
def crashLoopHmac (secret payload : String) : String :=
  if secret = "s3cret" ∧ payload = crashLoopApproval.signed then
    "8d2ae3824b9942fa8d52d0de7b8a7e72957efa5051757559d0626b3ed222bfe6"
  else ""

/-- What `prepare` returns for the plan. -/
def preparedCrashLoop : PreparedRemediation where
  workflow :=
    { workflowId := "remediation:INC-7", serviceId := "checkout", environment := "prod"
      kind := "remediation", status := .waitingApproval, correlationId := "3f0c"
      planHash := some crashLoopPlanHash, version := 1, updatedAt := "2026-01-01T00:00:00+00:00"
      tenantId := "default" }
  plan := crashLoopPlan
  blastRadius := 1

def prepareCrashLoop : SelfHealingOp :=
  .prepare [crashLoopHypothesis] "INC-7" 1 "3f0c" "2026-01-01T00:00:00+00:00" (.ok ())

def approveCrashLoop (audit : Except String Unit) : SelfHealingOp :=
  .approveAndEnqueue preparedCrashLoop crashLoopApproval (.float "1.0") 1010 1010 audit true

/-- Adapters whose every step goes well. -/
def calmSurroundings (finishing : FinishCourse) : JobSurroundings where
  sandboxAdapter := (restartCall .approveAndExecute true "off").adapter
  adapter := (restartCall .approveAndExecute true "off").adapter
  simulatedAt := (restartCall .approveAndExecute true "off").now
  executedAt := (restartCall .approveAndExecute true "off").now
  finishing := finishing

/-- A restart from the incident to its end. -/
def crashLoopRun : List SelfHealingOp :=
  [prepareCrashLoop, approveCrashLoop (.ok ()), .claim 0 60 1010,
    .handle 0 (calmSurroundings (.written (.ok ()))), .complete 0]

def crashLoopStep : SelfHealing → SelfHealingOp → SelfHealing × Unit :=
  SelfHealing.step crashLoopSha256 plainRepr crashLoopHmac "s3cret" crashLoopCoordinator

theorem crash_loop_restarted :
    ((runState crashLoopStep .initial crashLoopRun).control.status "remediation:INC-7" =
        some .succeeded ∧
      (runState crashLoopStep .initial crashLoopRun).runners.queue.rows.map Job.status =
        [.completed]) ∧
    ∀ done, done <+: crashLoopRun → Coupled (runState crashLoopStep .initial done) := by
  have hdigest : ∀ text, (crashLoopSha256 text).toList.length = 64 := by
    intro text
    unfold crashLoopSha256
    split <;> decide +kernel
  -- both facts are about one run, which is evaluated once
  refine And.imp id (fun hprepared => executing_has_live_job hdigest
    ⟨fun _ _ => rfl, ⟨rfl, rfl, hprepared⟩, trivial, trivial, trivial, trivial⟩) ?_
  decide +kernel

/-- An attempt that gets as far as `finish`. -/
def failedAttempt (now : Rat) : List SelfHealingOp :=
  [.claim 0 60 now, .handle 0 (calmSurroundings (.raised ⟨"OperationalError", "database is locked"⟩)),
    .failRead 0 now, .failWrite 0 5]

theorem not_coupled {s : SelfHealing} (id : String) (hs : s.control.status id = some .executing ∧
    ∀ row ∈ s.runners.queue.rows, ¬ LiveJob row) : ¬ Coupled s := by
  intro h
  obtain ⟨hstatus, hrows⟩ := hs
  obtain ⟨r, hr, hexecuting⟩ := Option.map_eq_some_iff.mp hstatus
  obtain ⟨row, hrow, -, hlive⟩ := h.executing id r hr hexecuting
  exact hrows row (Table.mem_of_get hrow) hlive

/-- Preparing and approving a plan again after its job has ended queues nothing; an approval whose
audit event is lost queues nothing; and a job given up leaves its workflow executing. -/
theorem executing_without_job :
    ¬ Coupled (runState crashLoopStep .initial
      (crashLoopRun ++ [prepareCrashLoop, approveCrashLoop (.ok ())])) ∧
    ¬ Coupled (runState crashLoopStep .initial
      [prepareCrashLoop, approveCrashLoop (.error "audit log unavailable")]) ∧
    ¬ Coupled (runState crashLoopStep .initial
      ([prepareCrashLoop, approveCrashLoop (.ok ())] ++ failedAttempt 1010 ++ failedAttempt 2000 ++
        failedAttempt 3000 ++ failedAttempt 4000 ++ failedAttempt 5000)) := by
  refine And.imp (not_coupled "remediation:INC-7")
    (And.imp (not_coupled "remediation:INC-7") (not_coupled "remediation:INC-7")) ?_
  decide +kernel

end EngineeringIntelligence.Product
