import EngineeringIntelligence.Orchestration.RemediationActivities
import EngineeringIntelligence.Remediation.EvaluatedLoop

namespace EngineeringIntelligence.Orchestration

open EngineeringIntelligence.Framework EngineeringIntelligence.Remediation

/-! `execute_action` with its control loop, and the flag that `record_outcome` writes. -/

/-- What `execute_action` hands to the control loop, and the clock and process environment the
loop reads. -/
structure ActionLoop where
  catalog : RunbookCatalog
  autonomyPolicies : List ServiceAutonomy
  adapter : ActionAdapter
  evaluator : Option PolicyEvaluator
  now : Moment
  environ : String → Option String

section
variable (sha256 : String → String) (loop : ActionLoop) (request : RemediationRequest)

/-- `_autonomy`. -/
def autonomyFor : Except ActivityError ServiceAutonomy :=
  match loop.autonomyPolicies.find? (fun p =>
      p.service = request.service && p.environment = request.environment) with
  | some policy => .ok policy
  | none => .error (.configuration ("no reviewed autonomy policy for " ++ request.service ++ "/" ++
      request.environment))

/-- `_action_request`. -/
def actionRequest (runbookId : String) : ActionRequest where
  service := request.service
  environment := request.environment
  runbookId := runbookId
  blastRadius := request.blastRadius

def actionCall (policy : ServiceAutonomy) (runbookId : String) : ControlLoopCall where
  catalog := loop.catalog
  policy := policy
  request := actionRequest request runbookId
  adapter := loop.adapter
  approvalVerified := true
  now := loop.now
  environ := loop.environ

/-- The control loop of `execute_action`. -/
def actionRun (runbookId : String) : Except ActivityError LoopRun :=
  (autonomyFor loop request).map fun policy =>
    executeControlLoopWith sha256 loop.evaluator (actionCall loop request policy runbookId)

/-- The result of the loop, or what it raised. -/
def actionResult (runbookId : String) : Except ActivityError ExecutionResult :=
  match actionRun sha256 loop request runbookId with
  | .error e => .error e
  | .ok run =>
    match run.result with
    | .error m => .error (.raised m)
    | .ok result => .ok result

/-- The runbook a plan names. -/
def plannedRunbook (plan : Option RemediationPlanResult) : String :=
  (plan.bind (·.runbookId)).getD ""

/-- `execute_action` with the control loop it runs. -/
def executeActionBy (setup : ActivitySetup) (plan : Option RemediationPlanResult)
    (approvalVerified : Bool) (occurredAt : String) : ActivityScript ActionOutcome :=
  executeAction setup request plan approvalVerified
    (actionResult sha256 loop request (plannedRunbook plan)) occurredAt

/-- The calls on the production adapter in a run of `execute_action`. The control loop comes
right after the first event is written. -/
def productionLog {σ χ φ : Type}
    (perform : φ → σ → LifecycleCall → σ × Except χ WorkflowLifecycleActivityResult)
    (setup : ActivitySetup) (plan : Option RemediationPlanResult) (approvalVerified : Bool)
    (occurredAt : String) (fs : Nat → φ) (s : σ) : List LoggedCall :=
  match answeredCalls perform fs s
      (executeActionBy sha256 loop request setup plan approvalVerified occurredAt) with
  | [] => []
  | _ => ((actionRun sha256 loop request (plannedRunbook plan)).map (·.log)).toOption.getD []

/-- The control loop is reached and passed, and the adapter's `execute` raises. -/
def ExecuteRaises (plan : Option RemediationPlanResult) (approvalVerified : Bool) : Prop :=
  plannedRunbook plan ≠ "" ∧ approvalVerified = true ∧
    ∃ policy, autonomyFor loop request = .ok policy ∧
      ExecutionRaises sha256 loop.evaluator (actionCall loop request policy (plannedRunbook plan))

end

section
variable {sha256 : String → String} {loop : ActionLoop} {request : RemediationRequest}
  {setup : ActivitySetup} {plan : Option RemediationPlanResult} {approvalVerified : Bool}
  {occurredAt : String} {σ χ φ : Type}
  {perform : φ → σ → LifecycleCall → σ × Except χ WorkflowLifecycleActivityResult}
  {fs : Nat → φ} {s : σ}

/-- The result of `execute_action`'s loop is that of a call under the reviewed policy. -/
theorem actionResult_ok {runbookId : String} {result : ExecutionResult}
    (h : actionResult sha256 loop request runbookId = .ok result) :
    ∃ policy, autonomyFor loop request = .ok policy ∧
      (executeControlLoopWith sha256 loop.evaluator
        (actionCall loop request policy runbookId)).result = .ok result := by
  unfold actionResult actionRun at h
  cases hpolicy : autonomyFor loop request with
  | error e =>
    rw [hpolicy] at h
    cases h
  | ok policy =>
    refine ⟨policy, rfl, ?_⟩
    rw [hpolicy] at h
    cases hresult : (executeControlLoopWith sha256 loop.evaluator
        (actionCall loop request policy runbookId)).result with
    | error m =>
      simp only [Except.map, hresult] at h
      cases h
    | ok ended =>
      simp only [Except.map, hresult] at h
      rw [Except.ok.inj h]

/-- A script that ends early raises what its check found. -/
theorem checked_returned {α β : Type} {x : Except ActivityError α} {next : α → ActivityScript β}
    {b : β} (h : (attempt perform fs s (checked x next)).2 = .ok (.ok b)) :
    ∃ a, x = .ok a ∧ checked x next = next a := by
  cases x with
  | error e => cases h
  | ok a => exact ⟨a, rfl, rfl⟩

/-- An event that was written was answered. -/
theorem advance_returned {β : Type} {a : Advance}
    {next : WorkflowLifecycleActivityResult → ActivityScript β} {b : β}
    (h : (attempt perform fs s (advance setup.actor request a next)).2 = .ok (.ok b)) :
    ∃ r gs t, (attempt perform gs t (next r)).2 = .ok (.ok b) ∧
      answeredCalls perform fs s (advance setup.actor request a next) ≠ [] := by
  obtain ⟨-, -, hcall⟩ := checked_returned h
  unfold advance at h ⊢
  rw [hcall] at h ⊢
  unfold attempt at h
  unfold answeredCalls
  split at h
  · cases h
  · next t r hperform =>
    exact ⟨r, _, t, h, List.cons_ne_nil _ _⟩

/-- A run of `execute_action` that returns has stopped before the control loop, or reports what
the loop returned. -/
theorem executeAction_returned {execution : Except ActivityError ExecutionResult}
    {outcome : ActionOutcome} (h : (attempt perform fs s
      (executeAction setup request plan approvalVerified execution occurredAt)).2 = .ok (.ok outcome)) :
    ((plannedRunbook plan = "" ∨ approvalVerified = false) ∧ outcome.executionRef = none ∧
      answeredCalls perform fs s
        (executeAction setup request plan approvalVerified execution occurredAt) = []) ∨
    (plannedRunbook plan ≠ "" ∧ approvalVerified = true ∧ ∃ result, execution = .ok result ∧
      outcome.executionRef = result.executionRef ∧ answeredCalls perform fs s
        (executeAction setup request plan approvalVerified execution occurredAt) ≠ []) := by
  unfold executeAction at h ⊢
  obtain ⟨-, -, henabled⟩ := checked_returned h
  rw [henabled] at h ⊢
  cases plan with
  | none =>
    obtain rfl := Except.ok.inj (Except.ok.inj h)
    exact Or.inl ⟨Or.inl rfl, rfl, rfl⟩
  | some plan =>
    dsimp only at h ⊢
    split at h
    · next hrunbook =>
      obtain rfl := Except.ok.inj (Except.ok.inj h)
      refine Or.inl ⟨Or.inl ?_, rfl, rfl⟩
      unfold plannedRunbook
      cases hid : plan.runbookId with
      | none => simp [hid]
      | some id => simpa [hid, Option.filter_eq_none_iff] using hrunbook
    · next runbookId hrunbook =>
      obtain ⟨hid, hne⟩ := Option.filter_eq_some_iff.mp hrunbook
      have hplanned : plannedRunbook (some plan) ≠ "" := by
        unfold plannedRunbook
        simpa [hid] using hne
      cases approvalVerified with
      | false =>
        obtain rfl := Except.ok.inj (Except.ok.inj h)
        exact Or.inl ⟨Or.inr rfl, rfl, rfl⟩
      | true =>
        simp only [Bool.not_true, Bool.false_eq_true, if_false] at h ⊢
        obtain ⟨time, -, htime⟩ := checked_returned h
        rw [htime] at h ⊢
        obtain ⟨executing, gs, t, hloop, hanswered⟩ := advance_returned h
        obtain ⟨result, hexecution, hresult⟩ := checked_returned hloop
        rw [hresult] at hloop
        obtain ⟨verifying, gs', t', hend, -⟩ := advance_returned hloop
        obtain rfl := Except.ok.inj (Except.ok.inj hend)
        exact Or.inr ⟨hplanned, trivial, result, hexecution, rfl, hanswered⟩

/-- The flag that is recorded is whether there is a reference to the execution. -/
theorem recordOutcome_returned {outcome : ActionOutcome} {approver : String}
    {recorded : RemediationOutcome} (h : (attempt perform fs s
      (recordOutcome setup request plan outcome approver occurredAt)).2 = .ok (.ok recorded)) :
    recorded.mutationAttempted = outcome.executionRef.isSome := by
  unfold recordOutcome at h
  obtain ⟨-, -, henabled⟩ := checked_returned h
  rw [henabled] at h
  obtain ⟨fromStatus, -, hstatus⟩ := checked_returned h
  rw [hstatus] at h
  obtain ⟨time, -, htime⟩ := checked_returned h
  rw [htime] at h
  obtain ⟨result, gs, t, hend, -⟩ := advance_returned h
  obtain rfl := Except.ok.inj (Except.ok.inj hend)
  rfl

/-- In every run of `execute_action` whose outcome is recorded, the flag tells whether the
production adapter's `execute` was called if and only if that call did not raise. -/
theorem mutation_flag_iff {outcome : ActionOutcome} {recorded : RemediationOutcome}
    {gs : Nat → φ} {t : σ} {approver recordedAt : String}
    (hrun : (attempt perform fs s (executeActionBy sha256 loop request setup plan approvalVerified
      occurredAt)).2 = .ok (.ok outcome))
    (hrecorded : (attempt perform gs t (recordOutcome setup request plan outcome approver
      recordedAt)).2 = .ok (.ok recorded)) :
    (recorded.mutationAttempted = true ↔ Executed (productionLog sha256 loop request perform setup
      plan approvalVerified occurredAt fs s)) ↔
      ¬ ExecuteRaises sha256 loop request plan approvalVerified := by
  rw [recordOutcome_returned hrecorded]
  unfold executeActionBy at hrun
  unfold productionLog executeActionBy
  rcases executeAction_returned hrun with ⟨hstopped, href, hcalls⟩ |
    ⟨hplanned, hverified, result, hresult, href, hcalls⟩
  · have hraises : ¬ ExecuteRaises sha256 loop request plan approvalVerified := by
      rintro ⟨hplanned, hverified, -⟩
      rcases hstopped with hstopped | hstopped
      · exact hplanned hstopped
      · rw [hstopped] at hverified
        cases hverified
    simp [href, hcalls, hraises, Executed]
  · obtain ⟨policy, hpolicy, hloop⟩ := actionResult_ok hresult
    have hraises : ExecuteRaises sha256 loop request plan approvalVerified ↔
        ExecutionRaises sha256 loop.evaluator
          (actionCall loop request policy (plannedRunbook plan)) := by
      constructor
      · rintro ⟨-, -, policy', hpolicy', hraised⟩
        obtain rfl := Except.ok.inj (hpolicy.symm.trans hpolicy')
        exact hraised
      · intro hraised
        exact ⟨hplanned, hverified, policy, hpolicy, hraised⟩
    have hlog : ((actionRun sha256 loop request (plannedRunbook plan)).map (·.log)).toOption.getD [] =
        (executeControlLoopWith sha256 loop.evaluator
          (actionCall loop request policy (plannedRunbook plan))).log := by
      unfold actionRun
      rw [hpolicy]
      rfl
    rw [href, hraises, hlog]
    split
    · next hnone => exact absurd hnone hcalls
    · exact reported_iff rfl rfl hloop

end

/-! ### A restart that is recorded -/

def flaggedRequest : RemediationRequest where
  requestId := "req-1"
  incidentId := "inc-1"
  service := "checkout"
  environment := "prod"
  correlationId := "corr-1"

/-- A restart of the service, run by an adapter whose `execute` answers as given. -/
def restartLoop (execute : Except PyException String) : ActionLoop where
  catalog := (restartCall .approveAndExecute true "off").catalog
  autonomyPolicies := [(restartCall .approveAndExecute true "off").policy]
  adapter := { (restartCall .approveAndExecute true "off").adapter with execute := fun _ _ _ => execute }
  evaluator := some localReferenceEvaluator
  now := (restartCall .approveAndExecute true "off").now
  environ := fun _ => none

def waitingPlan : RemediationPlanResult where
  workflowId := "remediation:req-1"
  planned := true
  reason := "bounded restart"
  runbookId := some "aks.restart.workload"
  workflowVersion := 1

def flaggedSetup : ActivitySetup where
  environ := fun _ => some "enabled"
  plan := fun _ _ => .ok none

/-- The answer of the bridge to the event that brings the workflow to `status`. -/
def lifecycleAnswer (step status : String) (version : Int) (auditEventHash : String) :
    WorkflowLifecycleActivityResult where
  workflowId := "remediation:req-1"
  workflowVersion := version
  status := status
  eventId := "remediation:req-1:" ++ step
  idempotencyKey := "remediation:req-1:" ++ step
  stateReplayed := false
  auditEventHash := .str auditEventHash

/-- The bridge, by what it answers. -/
def answerAs (answer : WorkflowLifecycleActivityResult) (stores : Unit) (_ : LifecycleCall) :
    Unit × Except BridgeError WorkflowLifecycleActivityResult :=
  (stores, .ok answer)

/-- The answers to the events of `execute_action`, by their audit hashes. -/
def actionAnswers (executing verifying : String) : Nat → WorkflowLifecycleActivityResult
  | 0 => lifecycleAnswer "executing" "executing" 2 executing
  | _ => lifecycleAnswer "verifying" "verifying" 3 verifying

/-- `execute_action` on the waiting workflow. -/
def restartAction (execute : Except PyException String)
    (answers : Nat → WorkflowLifecycleActivityResult) :
    Unit × Except BridgeError (Except ActivityError ActionOutcome) :=
  attempt answerAs answers ()
    (executeActionBy restartScopeSha256 (restartLoop execute) flaggedRequest flaggedSetup
      (some waitingPlan) true "2026-01-01T00:00:00+00:00")

/-- The calls on the adapter in that run. -/
def restartLog (execute : Except PyException String)
    (answers : Nat → WorkflowLifecycleActivityResult) : List LoggedCall :=
  productionLog restartScopeSha256 (restartLoop execute) flaggedRequest answerAs flaggedSetup
    (some waitingPlan) true "2026-01-01T00:00:00+00:00" answers ()

/-- `record_outcome` after it. -/
def restartRecord (outcome : ActionOutcome) (answer : WorkflowLifecycleActivityResult) :
    Unit × Except BridgeError (Except ActivityError RemediationOutcome) :=
  attempt answerAs (fun _ => answer) ()
    (recordOutcome flaggedSetup flaggedRequest (some waitingPlan) outcome "sre-oncall"
      "2026-01-01T00:01:00+00:00")

deriving instance DecidableEq for ActionOutcome

/-- What an activity returned. -/
def returned {α : Type} : Except BridgeError (Except ActivityError α) → Option α
  | .ok (.ok a) => some a
  | _ => none

theorem eq_of_returned {α : Type} {x : Except BridgeError (Except ActivityError α)} {a : α}
    (h : returned x = some a) : x = .ok (.ok a) := by
  unfold returned at h
  split at h
  · rw [Option.some.inj h]
  · cases h

def restarted : ActionOutcome where
  status := "succeeded"
  reason := "authorized by OPA remediation policy [policy=local-reference]"
  executionRef := some "restart-1"
  verified := true
  fromStatus := "verifying"
  workflowVersion := 3

def restartAnswers : Nat → WorkflowLifecycleActivityResult :=
  actionAnswers "b9c99ebc3cc5c3d8a5aa196e123a5656a201244ef05dfca062b7b2ab38d3af4f"
    "482c52bcafb2cc5507bfee556fd8946645941c021b856062d231ec9665f35764"

theorem restart_flagged :
    (restartAction (.ok "restart-1") restartAnswers).2 = .ok (.ok restarted) ∧
    ∃ recorded, (restartRecord restarted (lifecycleAnswer "outcome" "succeeded" 4
        "dc8d42b367202768e72b4e7f7d44c0d9ab4c5a292e5a4981b2f143f5998c776f")).2 = .ok (.ok recorded) ∧
      ((recorded.mutationAttempted = true ↔
          Executed (restartLog (.ok "restart-1") restartAnswers)) ↔
        ¬ ExecuteRaises restartScopeSha256 (restartLoop (.ok "restart-1")) flaggedRequest
          (some waitingPlan) true) := by
  have hrun : (restartAction (.ok "restart-1") restartAnswers).2 = .ok (.ok restarted) := by
    decide
  have hreturned : (returned (restartRecord restarted (lifecycleAnswer "outcome" "succeeded" 4
      "dc8d42b367202768e72b4e7f7d44c0d9ab4c5a292e5a4981b2f143f5998c776f")).2).isSome = true := by
    decide
  obtain ⟨recorded, hrecorded⟩ := Option.isSome_iff_exists.mp hreturned
  exact ⟨hrun, recorded, eq_of_returned hrecorded,
    mutation_flag_iff hrun (eq_of_returned hrecorded)⟩

def timedOut : ActionOutcome where
  status := "escalate"
  reason := "authorized by OPA remediation policy [policy=local-reference]"
  error := some "execution failed: TimeoutError: timed out"
  fromStatus := "verifying"
  workflowVersion := 3

def timedOutAnswers : Nat → WorkflowLifecycleActivityResult :=
  actionAnswers "b9c99ebc3cc5c3d8a5aa196e123a5656a201244ef05dfca062b7b2ab38d3af4f"
    "2061f6e83bcdf1bf20f7252845efe67f1ae04693b515fc18cd63ceec464321cf"

/-- An `execute` that raises part-way leaves no reference, and the record says that nothing was
attempted. -/
theorem raised_execution_unflagged :
    (restartAction (.error ⟨"TimeoutError", "timed out"⟩) timedOutAnswers).2 =
      .ok (.ok timedOut) ∧
    (returned (restartRecord timedOut (lifecycleAnswer "outcome" "escalated" 4
        "bbfbf8f7b11b90b1944af85563cbf58de167cdf6d694e43b5bc6dd1afd80a53a")).2).map
      (·.mutationAttempted) = some false ∧
    Executed (restartLog (.error ⟨"TimeoutError", "timed out"⟩) timedOutAnswers) := by
  refine ⟨by decide, by decide, by decide⟩

end EngineeringIntelligence.Orchestration
