import EngineeringIntelligence.Remediation.ExecutionSafety

namespace EngineeringIntelligence.Remediation

open EngineeringIntelligence.Framework

/-! `execute_control_loop` under an evaluator of the caller's. -/

/-- A `PolicyEvaluator`; the error is the exception it raises. -/
abbrev PolicyEvaluator := Runbook → ServiceAutonomy → ActionRequest → Bool → PolicyControlState →
  AutonomyContext → Except String EvaluatedPolicyDecision

/-- `LocalReferenceEvaluator`. -/
def localReferenceEvaluator : PolicyEvaluator :=
  fun runbook policy request approvalVerified control autonomy =>
    .ok (evaluate runbook policy request approvalVerified control (some autonomy) "")

section
variable (sha256 : String → String) (evaluator : Option PolicyEvaluator) (c : ControlLoopCall)

/-- The gates up to the adapter's preflight. -/
def passGatesWith : Except (Except String ExecutionResult) Admission :=
  match c.catalog.get c.request.runbookId with
  | none => .error (.error ("unknown runbook: " ++ c.request.runbookId))
  | some runbook =>
    if AutonomyLevel.approveAndExecute.value ≤
        max c.policy.level.value (claimedLevelValue c.autonomyLevel) &&
        autonomyKillSwitchEngaged c.environ then
      .error (.ok (blockedResult "kill-switch"
        "EIP_AUTONOMY_KILL_SWITCH is engaged; no L3 or L4 execution runs"))
    else
      match (effectiveLevel c.autonomyLevel c.policy).2 with
      | some refusal => .error (.ok (blockedResult refusal refusal))
      | none =>
        match (if evaluator.isSome then .ok false else opaEvaluatorRequired c.environ) with
        | .error m => .error (.error m)
        | .ok true => .error (.ok { status := .denied
                                    policy := ⟨false, opaRequiredReason⟩ })
        | .ok false =>
          match (if c.level = .boundedAutonomous then
              certificationDenial (autonomyContext sha256 c runbook) else none) with
          | some denial => .error (.ok (blockedResult denial.value denial.value))
          | none =>
            match (evaluator.getD localReferenceEvaluator) runbook c.policy c.request
                c.approvalVerified (c.control.getD {}) (autonomyContext sha256 c runbook) with
            | .error m => .error (.error m)
            | .ok evaluated =>
              if !evaluated.allowed then
                .error (.ok { status := .denied, policy := asPolicyDecision evaluated })
              else
                match (if c.level = .boundedAutonomous then
                    loopCertificationRefusal sha256 c runbook evaluated.policyRevision else none) with
                | some refusal => .error (.ok (blockedResult refusal refusal))
                | none => .ok ⟨runbook, c.level, asPolicyDecision evaluated⟩

/-- The loop from the adapter's preflight on. -/
def runAdmitted (admission : Admission) : LoopRun :=
  let (checked, log) := preflight c.adapter admission.runbook c.request
    (heldLeases c.lockManager) []
  if !checked.1 then
    ⟨.ok { status := .denied, policy := ⟨false, checked.2⟩, error := some checked.2 }, log,
      c.lockManager⟩
  else
    match acquireConcurrencyLease c with
    | (manager, .error reason) =>
      ⟨.ok { status := .deferred, policy := admission.decision, error := some reason }, log,
        manager⟩
    | (manager, .ok lease) =>
      let (result, log') := runExecutionAndVerify c.adapter admission.runbook c.request
        (heldLeases manager) admission.decision c.canaryStrategy log
      ⟨.ok result, log', manager.map (fun t => (lease.map t.release).getD t)⟩

/-- `execute_control_loop` with `evaluator` passed to it. -/
def executeControlLoopWith : LoopRun :=
  match passGatesWith sha256 evaluator c with
  | .error result => ⟨result, [], c.lockManager⟩
  | .ok admission => runAdmitted c admission

/-- The reference evaluator is what is used when none is passed. -/
theorem passGatesWith_reference : passGatesWith sha256
    (if c.evaluatorGiven then some localReferenceEvaluator else none) c = passGates sha256 c := by
  have hsome : (if c.evaluatorGiven then some localReferenceEvaluator else none).isSome =
      c.evaluatorGiven := by
    cases c.evaluatorGiven <;> rfl
  have hused : (if c.evaluatorGiven then some localReferenceEvaluator else none).getD
      localReferenceEvaluator = localReferenceEvaluator := by
    cases c.evaluatorGiven <;> rfl
  unfold passGatesWith passGates
  rw [hsome, hused]
  simp only [localReferenceEvaluator, loopEvaluation]
  rfl

theorem executeControlLoopWith_reference : executeControlLoopWith sha256
    (if c.evaluatorGiven then some localReferenceEvaluator else none) c =
      executeControlLoop sha256 c := by
  unfold executeControlLoopWith
  rw [passGatesWith_reference]
  rfl

variable {sha256 evaluator c}

/-- A gate that returns early reports no execution. -/
theorem passGatesWith_error {result : ExecutionResult}
    (h : passGatesWith sha256 evaluator c = .error (.ok result)) : result.executionRef = none := by
  unfold passGatesWith at h
  split at h
  · simp at h
  split at h
  · obtain rfl := Except.ok.inj (Except.error.inj h)
    rfl
  split at h
  · obtain rfl := Except.ok.inj (Except.error.inj h)
    rfl
  split at h
  · simp at h
  · obtain rfl := Except.ok.inj (Except.error.inj h)
    rfl
  split at h
  · obtain rfl := Except.ok.inj (Except.error.inj h)
    rfl
  split at h
  · simp at h
  split at h
  · obtain rfl := Except.ok.inj (Except.error.inj h)
    rfl
  split at h
  · obtain rfl := Except.ok.inj (Except.error.inj h)
    rfl
  · simp at h

end

/-! ### The execution reference tells of the call -/

/-- The adapter's `execute` was called. -/
def Executed (log : List LoggedCall) : Prop := ∃ x ∈ log, x.call.isExecute = true

instance (log : List LoggedCall) : Decidable (Executed log) :=
  inferInstanceAs (Decidable (∃ x ∈ log, _))

section
variable (adapter : ActionAdapter) (runbook : Runbook) (request : ActionRequest)
  (leases : List LockLease)

theorem not_executed_preflight :
    ¬ Executed (preflight adapter runbook request leases []).2 := by
  unfold preflight
  cases adapter.preflight with
  | none => simp [Executed]
  | some checker => simp [Executed, AdapterCall.isExecute]

theorem executed_rollbackStep {log : List LoggedCall} (h : Executed log) :
    Executed (rollbackStep adapter runbook request leases log).2 := by
  obtain ⟨x, hx, hexecute⟩ := h
  unfold rollbackStep
  split
  · exact ⟨x, hx, hexecute⟩
  · exact ⟨x, List.mem_append_left _ hx, hexecute⟩

theorem executed_append {log : List LoggedCall} (h : Executed log) (rest : List LoggedCall) :
    Executed (log ++ rest) := by
  obtain ⟨x, hx, hexecute⟩ := h
  exact ⟨x, List.mem_append_left _ hx, hexecute⟩

/-- Once the gates and the preflight are passed, `execute` is called, of the canary or of the
fleet. -/
theorem executed_progressive (strategy : CanaryStrategy) (log : List LoggedCall) :
    Executed (executeProgressive adapter runbook request leases strategy log).2 := by
  have hcanary : Executed (log ++ [⟨.execute (runbook.id ++ ".canary"), leases⟩]) :=
    ⟨_, List.mem_append_right _ List.mem_cons_self, rfl⟩
  unfold executeProgressive
  dsimp only
  split
  · exact hcanary
  · split
    · split
      · exact executed_append (executed_append hcanary _) _
      · split
        · exact executed_append (executed_append (executed_append hcanary _) _) _
        · apply executed_rollbackStep
          exact executed_append (executed_append (executed_append hcanary _) _) _
    · apply executed_rollbackStep
      exact executed_append hcanary _

theorem executed_run (decision : PolicyDecision) (canaryStrategy : Option CanaryStrategy)
    (log : List LoggedCall) :
    Executed (runExecutionAndVerify adapter runbook request leases decision canaryStrategy log).2 := by
  unfold runExecutionAndVerify
  cases canaryStrategy with
  | some strategy =>
    have hexecuted := executed_progressive adapter runbook request leases strategy log
    dsimp only
    split <;> exact hexecuted
  | none =>
    have hfleet : Executed (log ++ [⟨.execute runbook.id, leases⟩]) :=
      ⟨_, List.mem_append_right _ List.mem_cons_self, rfl⟩
    dsimp only
    split
    · exact hfleet
    · split
      · exact executed_append hfleet _
      · apply executed_rollbackStep
        exact executed_append hfleet _

/-- A run reports a reference unless its one call of `execute` raised. -/
theorem executionRef_isSome (decision : PolicyDecision) (canaryStrategy : Option CanaryStrategy)
    (log : List LoggedCall) :
    (runExecutionAndVerify adapter runbook request leases decision canaryStrategy
      log).1.executionRef.isSome = true ↔
    (canaryStrategy = none → (adapter.execute (callsOf log) runbook.id request).isOk = true) := by
  unfold runExecutionAndVerify
  cases canaryStrategy with
  | some strategy =>
    dsimp only
    split <;> simp
  | none =>
    cases hexecute : adapter.execute (callsOf log) runbook.id request with
    | error exc => simp [Except.isOk, Except.toBool]
    | ok ref =>
      dsimp only
      split <;> simp [Except.isOk, Except.toBool]

end

section
variable {sha256 : String → String} {evaluator : Option PolicyEvaluator} {c : ControlLoopCall}

/-- The call gets past the gates and the preflight, and then the adapter's `execute` raises. -/
def ExecutionRaises (sha256 : String → String) (evaluator : Option PolicyEvaluator)
    (c : ControlLoopCall) : Prop :=
  ∃ a, passGatesWith sha256 evaluator c = .ok a ∧
    (preflight c.adapter a.runbook c.request [] []).1.1 = true ∧
    (c.adapter.execute (callsOf (preflight c.adapter a.runbook c.request [] []).2)
      a.runbook.id c.request).isOk = false

theorem runAdmitted_refused {a : Admission} (hlock : c.lockManager = none)
    (h : (preflight c.adapter a.runbook c.request [] []).1.1 = false) :
    ((runAdmitted c a).result.map (·.executionRef)) = .ok none ∧ ¬ Executed (runAdmitted c a).log := by
  have hnothing := not_executed_preflight c.adapter a.runbook c.request []
  unfold runAdmitted
  simp only [hlock, heldLeases, Option.map_none, Option.getD_none, h]
  exact ⟨rfl, hnothing⟩

theorem runAdmitted_passed {a : Admission} (hlock : c.lockManager = none)
    (hcanary : c.canaryStrategy = none)
    (h : (preflight c.adapter a.runbook c.request [] []).1.1 = true) :
    let run := runExecutionAndVerify c.adapter a.runbook c.request [] a.decision none
      (preflight c.adapter a.runbook c.request [] []).2
    (runAdmitted c a).result = .ok run.1 ∧ (runAdmitted c a).log = run.2 := by
  unfold runAdmitted acquireConcurrencyLease
  simp only [hlock, hcanary, heldLeases, Option.map_none, Option.getD_none, h, Bool.not_true,
    Bool.false_eq_true, if_false, and_self]

/-- What a loop without locks and canaries reports of its execution is what it did, unless
`execute` raised. -/
theorem reported_iff (hlock : c.lockManager = none) (hcanary : c.canaryStrategy = none)
    {result : ExecutionResult} (h : (executeControlLoopWith sha256 evaluator c).result = .ok result) :
    (result.executionRef.isSome = true ↔ Executed (executeControlLoopWith sha256 evaluator c).log) ↔
      ¬ ExecutionRaises sha256 evaluator c := by
  unfold executeControlLoopWith at h ⊢
  cases hgates : passGatesWith sha256 evaluator c with
  | error refused =>
    have hraises : ¬ ExecutionRaises sha256 evaluator c := by
      rintro ⟨a, ha, -⟩
      rw [hgates] at ha
      cases ha
    rw [hgates] at h
    obtain rfl : refused = .ok result := h
    simp [passGatesWith_error hgates, Executed, hraises]
  | ok a =>
    have hraises : ExecutionRaises sha256 evaluator c ↔
        (preflight c.adapter a.runbook c.request [] []).1.1 = true ∧
          (c.adapter.execute (callsOf (preflight c.adapter a.runbook c.request [] []).2)
            a.runbook.id c.request).isOk = false := by
      constructor
      · rintro ⟨a', ha, hraised⟩
        obtain rfl := Except.ok.inj (hgates.symm.trans ha)
        exact hraised
      · intro hraised
        exact ⟨a, hgates, hraised⟩
    rw [hgates] at h
    dsimp only at h ⊢
    rw [hraises]
    cases hpreflight : (preflight c.adapter a.runbook c.request [] []).1.1 with
    | false =>
      obtain ⟨href, hnothing⟩ := runAdmitted_refused hlock hpreflight
      rw [h] at href
      obtain hnone : result.executionRef = none := Except.ok.inj href
      simp [hnone, hnothing]
    | true =>
      obtain ⟨hresult, hlog⟩ := runAdmitted_passed hlock hcanary hpreflight
      rw [h] at hresult
      obtain rfl := Except.ok.inj hresult
      have hexecuted := executed_run c.adapter a.runbook c.request [] a.decision none
        (preflight c.adapter a.runbook c.request [] []).2
      rw [hlog, executionRef_isSome]
      simp [hexecuted]

end

end EngineeringIntelligence.Remediation
