import EngineeringIntelligence.Remediation.Executor
import EngineeringIntelligence.Remediation.OpaPolicy

namespace EngineeringIntelligence.Remediation

open EngineeringIntelligence.Framework

/-- An accepted claim is the granted level or the one sanctioned downgrade. -/
theorem effectiveLevel_accepted {declared : DeclaredLevel} {policy : ServiceAutonomy}
    (h : (effectiveLevel declared policy).2 = none) :
    (effectiveLevel declared policy).1 = policy.level ∨
      ((effectiveLevel declared policy).1 = .approveAndExecute ∧
        policy.level = .boundedAutonomous) := by
  unfold effectiveLevel at h ⊢
  cases declared with
  | absent => exact Or.inl rfl
  | level l =>
    dsimp only at h ⊢
    split_ifs at h ⊢ with h1 h2 h3
    · exact Or.inl rfl
    · exact Or.inr h3
  | int n =>
    cases hl : AutonomyLevel.ofValue n with
    | none => simp [hl] at h
    | some l =>
      simp only [hl, Option.map_some, Option.getD_some] at h ⊢
      split_ifs at h ⊢ with h1 h2 h3
      · exact Or.inl rfl
      · exact Or.inr h3
  | other repr asInt =>
    cases hl : asInt.bind AutonomyLevel.ofValue with
    | none => simp [hl] at h
    | some l =>
      simp only [hl, Option.map_some, Option.getD_some] at h ⊢
      split_ifs at h ⊢ with h1 h2 h3
      · exact Or.inl rfl
      · exact Or.inr h3

section
variable {sha256 : String → String} {c : ControlLoopCall}

/-- Everything that holds once the gates have let a call through. -/
structure Admitted (sha256 : String → String) (c : ControlLoopCall) (a : Admission) : Prop where
  runbook : c.catalog.get c.request.runbookId = some a.runbook
  switch : AutonomyLevel.approveAndExecute.value ≤ c.policy.level.value →
    autonomyKillSwitchEngaged c.environ = false
  level : (effectiveLevel c.autonomyLevel c.policy).2 = none
  allowed : (loopEvaluation sha256 c a.runbook).allowed = true
  certified : c.level = .boundedAutonomous →
    certificationDenial (autonomyContext sha256 c a.runbook) = none ∧
      loopCertificationRefusal sha256 c a.runbook
        (loopEvaluation sha256 c a.runbook).policyRevision = none

theorem passGates_ok {a : Admission} (h : passGates sha256 c = .ok a) : Admitted sha256 c a := by
  unfold passGates at h
  cases hr : c.catalog.get c.request.runbookId with
  | none => simp [hr] at h
  | some runbook =>
    simp only [hr] at h
    split at h
    · simp at h
    next hswitch =>
    cases hl : (effectiveLevel c.autonomyLevel c.policy).2 with
    | some refusal => simp [hl] at h
    | none =>
      simp only [hl] at h
      split at h
      · simp at h
      · simp at h
      split at h
      · simp at h
      next hdenial =>
      split at h
      · simp at h
      next hallowed =>
      split at h
      · simp at h
      next hrefusal =>
      obtain rfl := Except.ok.inj h
      refine ⟨hr, ?_, hl, by simpa using hallowed, ?_⟩
      · intro hlevel
        simp only [Bool.and_eq_true, decide_eq_true_eq, not_and, Bool.not_eq_true] at hswitch
        apply hswitch
        omega
      · intro hfour
        rw [if_pos hfour] at hdenial hrefusal
        exact ⟨hdenial, hrefusal⟩

end

section
variable (adapter : ActionAdapter) (runbook : Runbook) (request : ActionRequest)
  (leases : List LockLease)

theorem preflight_log : ∀ x ∈ (preflight adapter runbook request leases []).2,
    x.call = .preflight := by
  unfold preflight
  cases adapter.preflight <;> simp

theorem rollbackStep_log (log : List LoggedCall) :
    ∀ x ∈ (rollbackStep adapter runbook request leases log).2, x ∈ log ∨ x.leases = leases := by
  unfold rollbackStep
  intro x hx
  split at hx
  · exact Or.inl hx
  · rcases List.mem_append.mp hx with hx | hx
    · exact Or.inl hx
    · rw [List.mem_singleton.mp hx]
      exact Or.inr rfl

/-- A log extended under the given leases. -/
def ExtendsUnder (log log' : List LoggedCall) : Prop := ∀ x ∈ log', x ∈ log ∨ x.leases = leases

theorem extendsUnder_refl (log : List LoggedCall) : ExtendsUnder leases log log :=
  fun _ hx => Or.inl hx

theorem extendsUnder_snoc {log log' : List LoggedCall} (h : ExtendsUnder leases log log')
    (call : AdapterCall) : ExtendsUnder leases log (log' ++ [⟨call, leases⟩]) := by
  intro x hx
  rcases List.mem_append.mp hx with hx | hx
  · exact h x hx
  · rw [List.mem_singleton.mp hx]
    exact Or.inr rfl

theorem extendsUnder_rollback {log log' : List LoggedCall} (h : ExtendsUnder leases log log') :
    ExtendsUnder leases log (rollbackStep adapter runbook request leases log').2 := by
  intro x hx
  rcases rollbackStep_log adapter runbook request leases log' x hx with hx | hx
  · exact h x hx
  · exact Or.inr hx

theorem executeProgressive_log (strategy : CanaryStrategy) (log : List LoggedCall) :
    ExtendsUnder leases log (executeProgressive adapter runbook request leases strategy log).2 := by
  have h₁ := extendsUnder_snoc leases (extendsUnder_refl leases log)
    (.execute (runbook.id ++ ".canary"))
  have h₂ := extendsUnder_snoc leases h₁ (.verify strategy.canaryVerifySignal)
  have h₃ := extendsUnder_snoc leases h₂ (.execute runbook.id)
  have h₄ := extendsUnder_snoc leases h₃ (.verify strategy.fullVerifySignal)
  unfold executeProgressive
  dsimp only
  split
  · exact h₁
  · split
    · split
      · exact h₃
      · split
        · exact h₄
        · exact extendsUnder_rollback adapter runbook request leases h₄
    · exact extendsUnder_rollback adapter runbook request leases h₂

theorem runExecutionAndVerify_log (decision : PolicyDecision)
    (canaryStrategy : Option CanaryStrategy) (log : List LoggedCall) :
    ExtendsUnder leases log
      (runExecutionAndVerify adapter runbook request leases decision canaryStrategy log).2 := by
  unfold runExecutionAndVerify
  cases canaryStrategy with
  | some strategy =>
    have h := executeProgressive_log adapter runbook request leases strategy log
    dsimp only
    split <;> exact h
  | none =>
    have h₁ := extendsUnder_snoc leases (extendsUnder_refl leases log) (.execute runbook.id)
    have h₂ := extendsUnder_snoc leases h₁ (.verify runbook.verifySignal)
    dsimp only
    split
    · exact h₁
    · split
      · exact h₂
      · exact extendsUnder_rollback adapter runbook request leases h₂

end

section
variable {sha256 : String → String} {c : ControlLoopCall}

/-- At L3 the evaluator has asked for the approval, also on the sanctioned downgrade. -/
theorem approval_of_admitted {a : Admission} (h : Admitted sha256 c a)
    (hlevel : c.level = .approveAndExecute) : c.approvalVerified = true := by
  have hallowed := h.allowed
  rw [loopEvaluation, evaluate_allowed, Bool.and_eq_true, Bool.not_eq_true',
    sharedRefusal_eq_false] at hallowed
  obtain ⟨⟨-, -, -, -, -, -, -, -, happroval, -⟩, hpasses⟩ := hallowed
  rcases effectiveLevel_accepted h.level with hgranted | ⟨-, hfour⟩
  · exact happroval (hgranted.symm.trans hlevel)
  · have hdeclared : pythonReading.declared (autonomyContext sha256 c a.runbook) = "L3" := by
      change asciiUpper (strip ("L" ++ toString c.level.value)) = "L3"
      rw [hlevel]
      decide
    rw [Option.getD_some, TextReading.passes, if_pos hfour, if_pos hdeclared] at hpasses
    exact hpasses

theorem requiredLevel_of_admitted {a : Admission} (h : Admitted sha256 c a) :
    a.runbook.requiredLevel.value ≤ c.policy.level.value := by
  have hallowed := h.allowed
  rw [loopEvaluation, evaluate_allowed, Bool.and_eq_true, Bool.not_eq_true',
    sharedRefusal_eq_false] at hallowed
  exact hallowed.1.2.2.2.2.2.2.1

/-- Below L3 a call is let through by the reviewed policy alone; at L3 and L4 the switch is
off and the approval or the certification is there. -/
theorem authority_of_admitted {a : Admission} (h : Admitted sha256 c a) :
    (c.level.value ≤ 2 ∧ a.runbook.requiredLevel.value ≤ c.level.value) ∨
      (autonomyKillSwitchEngaged c.environ = false ∧
        (c.level = .approveAndExecute ∧ c.approvalVerified = true ∨
          c.level = .boundedAutonomous ∧
            certificationDenial (autonomyContext sha256 c a.runbook) = none ∧
            loopCertificationRefusal sha256 c a.runbook "local-reference" = none)) := by
  have hswitch : AutonomyLevel.approveAndExecute.value ≤ c.level.value →
      autonomyKillSwitchEngaged c.environ = false := by
    intro hlevel
    apply h.switch
    rcases effectiveLevel_accepted h.level with hgranted | ⟨-, hfour⟩
    · have hgranted : c.level = c.policy.level := hgranted
      rwa [hgranted] at hlevel
    · rw [hfour]
      decide
  have hrevision : (loopEvaluation sha256 c a.runbook).policyRevision = "local-reference" :=
    localDecision_revision _
  cases hlevel : c.level with
  | observe | recommend | humanExecute =>
    refine Or.inl ⟨by decide, ?_⟩
    rcases effectiveLevel_accepted h.level with hgranted | ⟨hthree, -⟩
    · have hgranted : c.level = c.policy.level := hgranted
      rw [← hlevel, hgranted]
      exact requiredLevel_of_admitted h
    · have hthree : c.level = .approveAndExecute := hthree
      rw [hlevel] at hthree
      cases hthree
  | approveAndExecute =>
    refine Or.inr ⟨hswitch (by rw [hlevel]), Or.inl ⟨rfl, approval_of_admitted h hlevel⟩⟩
  | boundedAutonomous =>
    obtain ⟨hdenial, hrefusal⟩ := h.certified hlevel
    rw [hrevision] at hrefusal
    exact Or.inr ⟨hswitch (by rw [hlevel]; decide), Or.inr ⟨rfl, hdenial, hrefusal⟩⟩

theorem lease_of_acquired {manager : Option LockTable} {lease : Option LockLease}
    (h : acquireConcurrencyLease c = (manager, .ok lease)) (hm : c.lockManager.isSome = true) :
    ∃ l ∈ heldLeases manager, l.isExpired c.now.instant = false ∧
      ∀ s ∈ c.policy.service :: c.impactedServices, s ∈ l.lockedServices := by
  obtain ⟨table, htable⟩ := Option.isSome_iff_exists.mp hm
  unfold acquireConcurrencyLease at h
  simp only [htable] at h
  split at h
  · simp at h
  · next table' l hacq =>
    simp only [Prod.mk.injEq, Except.ok.injEq] at h
    obtain ⟨rfl, -⟩ := h
    exact ⟨l, LockTable.acquire_ok hacq⟩

/-- Where an execute call in the log comes from. -/
theorem executeControlLoop_execute {x : LoggedCall}
    (hx : x ∈ (executeControlLoop sha256 c).log) (hexec : x.call.isExecute = true) :
    ∃ a manager lease, Admitted sha256 c a ∧
      (preflight c.adapter a.runbook c.request (heldLeases c.lockManager) []).1.1 = true ∧
      acquireConcurrencyLease c = (manager, .ok lease) ∧ x.leases = heldLeases manager := by
  unfold executeControlLoop at hx
  cases hg : passGates sha256 c with
  | error r => simp [hg] at hx
  | ok a =>
    simp only [hg] at hx
    have hpre := preflight_log c.adapter a.runbook c.request (heldLeases c.lockManager)
    split at hx
    · have hcall := hpre x hx
      rw [hcall] at hexec
      cases hexec
    next hchecked =>
    split at hx
    · have hcall := hpre x hx
      rw [hcall] at hexec
      cases hexec
    next manager lease hacq =>
    refine ⟨a, manager, lease, passGates_ok hg, by simpa using hchecked, hacq, ?_⟩
    rcases runExecutionAndVerify_log c.adapter a.runbook c.request (heldLeases manager) a.decision
      c.canaryStrategy _ x hx with hx | hx
    · have hcall := hpre x hx
      rw [hcall] at hexec
      cases hexec
    · exact hx

end

section
variable (adapter : ActionAdapter) (runbook : Runbook) (request : ActionRequest)
  (leases : List LockLease)

/-- How many of the calls in a log are executions. -/
def executions (log : List LoggedCall) : Nat := (callsOf log).countP AdapterCall.isExecute

theorem executions_snoc (log : List LoggedCall) (x : LoggedCall) :
    executions (log ++ [x]) = executions log + if x.call.isExecute then 1 else 0 := by
  simp [executions, callsOf, List.countP_append, List.countP_singleton]

theorem executions_rollback (log : List LoggedCall) :
    executions (rollbackStep adapter runbook request leases log).2 = executions log := by
  unfold rollbackStep
  split
  · rfl
  · exact executions_snoc log _

/-- Without a canary there is one execution. -/
theorem executions_run (decision : PolicyDecision) (log : List LoggedCall) :
    executions (runExecutionAndVerify adapter runbook request leases decision none log).2 =
      executions log + 1 := by
  have h₁ : executions (log ++ [⟨.execute runbook.id, leases⟩]) = executions log + 1 :=
    executions_snoc log _
  have h₂ : executions (log ++ [⟨.execute runbook.id, leases⟩] ++
      [⟨.verify runbook.verifySignal, leases⟩]) = executions log + 1 :=
    (executions_snoc _ _).trans h₁
  unfold runExecutionAndVerify
  dsimp only
  split
  · exact h₁
  · split
    · exact h₂
    · exact (executions_rollback adapter runbook request leases _).trans h₂

theorem executions_preflight :
    executions (preflight adapter runbook request leases []).2 = 0 := by
  unfold preflight
  cases adapter.preflight <;> rfl

end

/-- A control loop without a canary executes at most once. -/
theorem executions_loop (sha256 : String → String) {c : ControlLoopCall}
    (hcanary : c.canaryStrategy = none) :
    executions (executeControlLoop sha256 c).log ≤ 1 := by
  unfold executeControlLoop
  cases passGates sha256 c with
  | error result => exact Nat.zero_le 1
  | ok a =>
    have hpreflight := executions_preflight c.adapter a.runbook c.request
      (heldLeases c.lockManager)
    dsimp only
    split
    · exact hpreflight.le.trans (Nat.zero_le 1)
    · split
      · exact hpreflight.le.trans (Nat.zero_le 1)
      · rw [hcanary]
        have hrun := executions_run c.adapter a.runbook c.request
        simp only [hrun]
        omega

/-- A restart that is registered, granted and certified at `level`, against an adapter whose
every step goes well. -/
def restartCall (level : AutonomyLevel) (approvalVerified : Bool) (killSwitch : String) :
    ControlLoopCall where
  catalog := (RunbookCatalog.empty.register
    { id := "aks.restart.workload", description := "Restart a bounded Kubernetes deployment"
      environments := ["dev", "stage", "prod"], maxBlastRadius := 5, reversible := true
      requiredLevel := level, verifySignal := "deployment.ready_replicas"
      preconditions := ["deployment.exists"]
      postconditions := ["deployment.ready_replicas"] }).toOption.getD .empty
  policy :=
    { service := "checkout", environment := "prod", level := level
      certifiedRunbooks := ["aks.restart.workload"], maxBlastRadius := 5 }
  request :=
    { service := "checkout", environment := "prod", runbookId := "aks.restart.workload"
      blastRadius := 1 }
  adapter :=
    { preflight := some (fun _ _ _ => .ok (.flag true)), execute := fun _ _ _ => .ok "restart-1"
      verify := fun _ _ _ => .ok true, rollback := fun _ _ _ => .ok "rollback-1" }
  approvalVerified := approvalVerified
  now := ⟨(parseInstant "2026-01-01T00:00:00+00:00").getD 0, "2026-01-01T00:00:00+00:00"⟩
  environ := fun name => if name = "EIP_AUTONOMY_KILL_SWITCH" then some killSwitch else none
  lockManager := some ⟨[]⟩
  leaseId := "lease-0123456789ab"
  impactedServices := ["payments"]

/-- SHA-256 on the canonical scope of `restartCall`. -/
def restartScopeSha256 (text : String) : String :=
  if text = (CertificationScope.mk "checkout" "prod" "aks.restart.workload" 5).canonical.dumps then
    "e78af2393757dac71b9d0641a4d329ffbd052b0a5734b70528a83f852eb99eb7"
  else ""

/-- The call of `execute` that `restartCall` leads to. -/
def restartExecution : LoggedCall where
  call := .execute "aks.restart.workload"
  leases := [⟨"lease-0123456789ab", "checkout", ["checkout", "payments"],
    (parseInstant "2026-01-01T00:00:00+00:00").getD 0,
    (parseInstant "2026-01-01T00:05:00+00:00").getD 0⟩]

end EngineeringIntelligence.Remediation
