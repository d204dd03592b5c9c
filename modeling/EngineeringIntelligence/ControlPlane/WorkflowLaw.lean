import EngineeringIntelligence.ControlPlane.Remediation

namespace EngineeringIntelligence.ControlPlane

open EngineeringIntelligence.Framework EngineeringIntelligence.State

/-! The statuses a workflow goes through under the control-plane API, and the approvals that
take it there. -/

/-- The control plane, with the approvals it accepted so far. -/
structure Ledger where
  state : ControlState
  accepted : List Approval

namespace Ledger

def initial : Ledger := ⟨.initial, []⟩

/-- An approval is accepted when the record it approves is written. -/
def step (sha256 : String → String) (hmac : String → String → String) (l : Ledger)
    (op : ControlOp) : Ledger × Except ControlError WorkflowRecord :=
  let (state, answer) := l.state.step sha256 hmac op
  (⟨state, l.accepted ++ if persisted answer then op.approval.toList else []⟩, answer)

end Ledger

section
variable (sha256 : String → String) (hmac : String → String → String)

/-- The control plane after some calls on an empty store. -/
def afterCalls (ops : List ControlOp) : Ledger := runState (Ledger.step sha256 hmac) .initial ops

/-- A status is kept, or moves as a table says. -/
def Along (table : Option WorkflowStatus → WorkflowStatus → Prop)
    (old new : Option WorkflowStatus) : Prop :=
  new = old ∨ ∃ status, new = some status ∧ table old status

/-- Every status change of a run is in the lifecycle's table. -/
def FollowsTable (ops : List ControlOp) : Prop :=
  ∀ pre op post, ops = pre ++ op :: post → ∀ id,
    Along (fun old new => new ∈ allowedTransitions old)
      ((afterCalls sha256 hmac pre).state.status id)
      ((afterCalls sha256 hmac (pre ++ [op])).state.status id)

end

/-- The lifecycle's table, and the two shortcuts of the control-plane API: a workflow is
created waiting for approval, and an execution ends without a step for its verification. -/
def Moves (old : Option WorkflowStatus) (new : WorkflowStatus) : Prop :=
  new ∈ allowedTransitions old ∨ (old = none ∧ new = .waitingApproval) ∨
    (old = some .executing ∧ new = .succeeded)

instance (old : Option WorkflowStatus) (new : WorkflowStatus) : Decidable (Moves old new) :=
  inferInstanceAs (Decidable (_ ∨ _ ∨ _))

/-- A workflow is prepared once, a plan is approved while it waits for that, and a result is
reported on an execution. -/
def InOrder (l : Ledger) : ControlOp → Prop
  | .prepare plan _ _ _ => l.state.status plan.workflowId = none
  | .approve .. => True
  | .approvePlan workflowId _ _ _ _ => ∀ status ∈ l.state.status workflowId, status = .waitingApproval
  | .finish workflowId _ _ _ _ => ∀ status ∈ l.state.status workflowId, status = .executing

instance (l : Ledger) : (op : ControlOp) → Decidable (InOrder l op)
  | .prepare plan _ _ _ => inferInstanceAs (Decidable (l.state.status plan.workflowId = none))
  | .approve .. => isTrue trivial
  | .approvePlan workflowId _ _ _ _ =>
    inferInstanceAs (Decidable (∀ status ∈ l.state.status workflowId, status = .waitingApproval))
  | .finish workflowId _ _ _ _ =>
    inferInstanceAs (Decidable (∀ status ∈ l.state.status workflowId, status = .executing))

/-- How workflows develop in a run from an empty store. -/
structure WorkflowLaw (sha256 : String → String) (hmac : String → String → String)
    (ops : List ControlOp) : Prop where
  moves : ∀ pre op post, ops = pre ++ op :: post → ∀ id,
    Along Moves ((afterCalls sha256 hmac pre).state.status id)
      ((afterCalls sha256 hmac (pre ++ [op])).state.status id)
  /-- a terminal workflow is never reopened -/
  terminal : ∀ pre post, ops = pre ++ post → ∀ id status, status.terminal = true →
    (afterCalls sha256 hmac pre).state.status id = some status →
    (afterCalls sha256 hmac ops).state.status id = some status
  /-- an executing workflow never returns to waiting for approval -/
  executing : ∀ pre post, ops = pre ++ post → ∀ id,
    (afterCalls sha256 hmac pre).state.status id = some .executing →
    (afterCalls sha256 hmac ops).state.status id ≠ some .waitingApproval
  /-- a terminal workflow had an approval accepted for the plan it has -/
  approved : ∀ pre post, ops = pre ++ post → ∀ id r,
    (afterCalls sha256 hmac pre).state.record id = some r → r.status.terminal = true →
    ∃ a ∈ (afterCalls sha256 hmac pre).accepted, a.workflowId = id ∧ r.planHash = some a.planHash

section
variable {sha256 : String → String} {hmac : String → String → String} {l : Ledger}
  {op : ControlOp}

/-- Every record is stored under its own id. -/
def Keyed (s : ControlState) : Prop := ∀ id r, s.record id = some r → r.workflowId = id

theorem keyed_step (h : Keyed l.state) : Keyed (l.step sha256 hmac op).1.state := by
  intro id r hr
  have hr : (l.state.step sha256 hmac op).1.record id = some r := hr
  cases step_outcome sha256 hmac l.state op with
  | refused hanswer hrecord =>
    rw [hrecord] at hr
    exact h id r hr
  | written r' hanswer hwrites hrecord =>
    rw [hrecord] at hr
    split at hr
    · next hid =>
      cases hr
      exact hid.symm
    · exact h id r hr

theorem status_of_record {s : ControlState} {id : String} {r : WorkflowRecord}
    (h : s.record id = some r) : s.status id = some r.status := by
  rw [ControlState.status, h]
  rfl

/-- An ordered call moves the record it writes along. -/
theorem writes_moves {r : WorkflowRecord} (hkeyed : Keyed l.state) (hok : InOrder l op)
    (h : Writes sha256 hmac l.state op r) : Moves (l.state.status r.workflowId) r.status := by
  cases h with
  | prepare hid hstatus hplan =>
    have hnone : l.state.status _ = none := hok
    rw [hid, hnone, hstatus]
    decide
  | approve hold hwaiting hplan hverified hid hstatus hkept =>
    rw [hid, hkeyed _ _ hold, status_of_record hold, hwaiting, hstatus]
    decide
  | approvePlan hold hplan hverified hid hstatus hkept =>
    have hwaiting := hok _ (status_of_record hold)
    rw [hid, hkeyed _ _ hold, status_of_record hold, hwaiting, hstatus]
    decide
  | @finish _ status _ _ _ _ _ hold hid hstatus hkept =>
    have hexecuting := hok _ (status_of_record hold)
    rw [hid, hkeyed _ _ hold, status_of_record hold, hexecuting, hstatus]
    cases status <;> decide

theorem step_moves (hkeyed : Keyed l.state) (hok : InOrder l op) (id : String) :
    Along Moves (l.state.status id) ((l.step sha256 hmac op).1.state.status id) := by
  change Along Moves _ ((l.state.step sha256 hmac op).1.status id)
  cases step_outcome sha256 hmac l.state op with
  | refused hanswer hrecord =>
    left
    rw [ControlState.status, hrecord]
    rfl
  | written r hanswer hwrites hrecord =>
    by_cases hid : id = r.workflowId
    · right
      refine ⟨r.status, ?_, ?_⟩
      · rw [ControlState.status, hrecord, if_pos hid]
        rfl
      · rw [hid]
        exact writes_moves hkeyed hok hwrites
    · left
      rw [ControlState.status, hrecord, if_neg hid]
      rfl

/-- The statuses an approved workflow goes through. -/
def PastApproval (status : WorkflowStatus) : Prop :=
  status = .executing ∨ status = .verifying ∨ status.terminal = true

instance (status : WorkflowStatus) : Decidable (PastApproval status) :=
  inferInstanceAs (Decidable (_ ∨ _ ∨ _))

theorem moves_terminal {old new : WorkflowStatus} (h : old.terminal = true) :
    ¬ Moves (some old) new := by
  revert h
  cases old <;> cases new <;> decide

theorem moves_pastApproval {old new : WorkflowStatus} (h : PastApproval old)
    (hmoves : Moves (some old) new) : PastApproval new := by
  revert h hmoves
  cases old <;> cases new <;> decide

theorem terminal_step {id : String} {status : WorkflowStatus} (hkeyed : Keyed l.state)
    (hok : InOrder l op) (hterminal : status.terminal = true)
    (h : l.state.status id = some status) :
    (l.step sha256 hmac op).1.state.status id = some status := by
  rcases step_moves hkeyed hok id with hsame | ⟨new, -, hmoves⟩
  · rw [hsame, h]
  · rw [h] at hmoves
    exact absurd hmoves (moves_terminal hterminal)

theorem pastApproval_step {id : String} (hkeyed : Keyed l.state) (hok : InOrder l op)
    (h : ∃ status, l.state.status id = some status ∧ PastApproval status) :
    ∃ status, (l.step sha256 hmac op).1.state.status id = some status ∧ PastApproval status := by
  obtain ⟨status, hstatus, hpast⟩ := h
  rcases step_moves hkeyed hok id with hsame | ⟨new, hnew, hmoves⟩
  · exact ⟨status, hsame.trans hstatus, hpast⟩
  · rw [hstatus] at hmoves
    exact ⟨new, hnew, moves_pastApproval hpast hmoves⟩

/-- Past the approval a workflow has an accepted approval for its plan. -/
def Approved (l : Ledger) : Prop :=
  ∀ id r, l.state.record id = some r → PastApproval r.status →
    ∃ a ∈ l.accepted, a.workflowId = id ∧ r.planHash = some a.planHash

/-- What an accepting call has found, and what it writes. -/
theorem writes_approval {s : ControlState} {r : WorkflowRecord} {a : Approval} (hkeyed : Keyed s)
    (h : Writes sha256 hmac s op r) (ha : op.approval = some a) :
    ∃ workflow, s.record a.workflowId = some workflow ∧ workflow.planHash = some a.planHash ∧
      r.workflowId = a.workflowId ∧ r.status = .executing ∧ r.planHash = some a.planHash := by
  cases h with
  | prepare hid hstatus hplan => cases ha
  | finish hold hid hstatus hkept => cases ha
  | @approve _ _ _ _ _ workflow _ _ hold _ hplan hverified hid hstatus hkept =>
    cases ha
    obtain ⟨⟨hworkflow, hhash⟩, -⟩ := verifyApproval_eq_true.mp hverified
    rw [hkeyed _ _ hold] at hworkflow hid
    rw [← hhash] at hplan
    rw [hworkflow]
    exact ⟨workflow, hold, hplan, hid, hstatus, hkept.trans hplan⟩
  | @approvePlan _ _ _ _ _ workflow _ _ hold hplan hverified hid hstatus hkept =>
    cases ha
    obtain ⟨⟨hworkflow, hhash⟩, -⟩ := verifyApproval_eq_true.mp hverified
    rw [hkeyed _ _ hold] at hworkflow hid
    rw [← hhash] at hplan
    rw [hworkflow]
    exact ⟨workflow, hold, hplan, hid, hstatus, hkept.trans hplan⟩

theorem accepted_step (l : Ledger) (op : ControlOp) :
    (l.step sha256 hmac op).1.accepted = l.accepted ++
      if persisted (l.state.step sha256 hmac op).2 then op.approval.toList else [] := rfl

theorem approved_step (hkeyed : Keyed l.state) (hok : InOrder l op) (h : Approved l) :
    Approved (l.step sha256 hmac op).1 := by
  intro id r hr hpast
  have hr : (l.state.step sha256 hmac op).1.record id = some r := hr
  rw [accepted_step]
  have hkeep : (∃ a ∈ l.accepted, a.workflowId = id ∧ r.planHash = some a.planHash) →
      ∃ a ∈ l.accepted ++ (if persisted (l.state.step sha256 hmac op).2 then
        op.approval.toList else []), a.workflowId = id ∧ r.planHash = some a.planHash := by
    intro hold
    obtain ⟨a, ha, hbound⟩ := hold
    exact ⟨a, List.mem_append_left _ ha, hbound⟩
  cases step_outcome sha256 hmac l.state op with
  | refused hanswer hrecord =>
    rw [hrecord] at hr
    exact hkeep (h id r hr hpast)
  | written r' hanswer hwrites hrecord =>
    rw [hrecord] at hr
    split at hr
    case isFalse => exact hkeep (h id r hr hpast)
    next hid =>
    cases hr
    cases ha : op.approval with
    | some a =>
      obtain ⟨-, -, -, hworkflow, -, hhash⟩ := writes_approval hkeyed hwrites ha
      refine ⟨a, List.mem_append_right _ ?_, hworkflow.symm.trans hid.symm, hhash⟩
      rw [hanswer]
      exact List.mem_singleton_self a
    | none =>
      cases hwrites with
      | prepare hid' hstatus hplan =>
        rw [hstatus] at hpast
        exact absurd hpast (by decide)
      | approve => cases ha
      | approvePlan => cases ha
      | finish hold hid' hstatus hkept =>
        have hexecuting := hok _ (status_of_record hold)
        obtain ⟨a, ha, hworkflow, hhash⟩ := h _ _ hold (Or.inl hexecuting)
        refine hkeep ⟨a, ha, ?_, hkept.trans hhash⟩
        rw [hworkflow, hid, hid', hkeyed _ _ hold]

end

section
variable {sha256 : String → String} {hmac : String → String → String}

theorem keyed_initial : Keyed .initial := by
  intro id r hr
  cases hr

theorem keyed_after (ops : List ControlOp) : Keyed (afterCalls sha256 hmac ops).state := by
  exact run_invariant (Ledger.step sha256 hmac) (P := fun l => Keyed l.state)
    (fun l op h => keyed_step h) keyed_initial ops

end

def restartPlan : RemediationWorkflowPlan :=
  { workflowId := "remediation:INC-7", service := "checkout", environment := "prod"
    runbookId := "aks.restart.workload", blastRadius := 1, evidenceIds := ["alert-1"]
    confidence := "0.9" }

/-- SHA-256 on the canonical text of `restartPlan`. -/
def restartSha256 (text : String) : String :=
  if text = (Json.obj restartPlan.payload).dumps then
    "0c94ae2655acc7c20480f24c10a76c82ff24b7bdad1820aedf16351c2a0064a4"
  else ""

def restartApproval : Approval :=
  { workflowId := "remediation:INC-7", approver := "sre-oncall"
    planHash := "sha256:0c94ae2655acc7c20480f24c10a76c82ff24b7bdad1820aedf16351c2a0064a4"
    issuedAt := 1000
    signature := "213e4be30ddb2f5fcf6d393387588d12cf27a2c83da77609d569e5378cd83454" }

/-- HMAC-SHA-256 on what `restartApproval` signs. -/
def restartHmac (secret payload : String) : String :=
  if secret = "s3cret" ∧ payload = restartApproval.signed then
    "213e4be30ddb2f5fcf6d393387588d12cf27a2c83da77609d569e5378cd83454"
  else ""

def prepareRestart : ControlOp :=
  .prepare restartPlan "3f0c" "2026-01-01T00:00:00+00:00" (.ok ())

def restartRun : List ControlOp :=
  [prepareRestart, .approve "remediation:INC-7" restartApproval "s3cret" 1010 (.ok ()),
    .finish "remediation:INC-7" .succeeded (some "restart-1") none (.ok ())]

end EngineeringIntelligence.ControlPlane
