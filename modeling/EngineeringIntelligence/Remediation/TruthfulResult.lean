import EngineeringIntelligence.Remediation.ExecutionSafety

namespace EngineeringIntelligence.Remediation

open EngineeringIntelligence.Framework

/-- A call of the adapter with what came of it. A verification that raised counts as one
that did not hold. -/
inductive Observation where
  | preflight
  | execute (runbookId : String) (returned : Bool)
  | verify (signal : String) (holds : Bool)
  | rollback (rollbackId : String) (returned : Bool)
  deriving DecidableEq, Repr

def Observation.isExecute : Observation → Bool
  | execute _ _ => true
  | _ => false

section
variable (adapter : ActionAdapter) (request : ActionRequest)

/-- What the adapter does on a call, after the calls made before it. -/
def observe (past : List AdapterCall) : AdapterCall → Observation
  | .preflight => .preflight
  | .execute runbookId => .execute runbookId (adapter.execute past runbookId request).isOk
  | .verify signal => .verify signal
      (match adapter.verify past signal request with
        | .ok holds => holds
        | .error _ => false)
  | .rollback rollbackId => .rollback rollbackId (adapter.rollback past rollbackId request).isOk

def observations (past : List AdapterCall) : List AdapterCall → List Observation
  | [] => []
  | call :: rest => observe adapter request past call :: observations (past ++ [call]) rest

theorem observations_append (past calls rest : List AdapterCall) :
    observations adapter request past (calls ++ rest) =
      observations adapter request past calls ++
        observations adapter request (past ++ calls) rest := by
  induction calls generalizing past with
  | nil => simp [observations]
  | cons call calls ih => simp [observations, ih]

end

/-- What was seen after the last execution. -/
def afterLastExecute : List Observation → List Observation
  | [] => []
  | o :: rest =>
    if rest.any Observation.isExecute then afterLastExecute rest
    else if o.isExecute then rest else o :: rest

/-- A status that says what happened. -/
structure Truthful (runbook : Runbook) (status : ExecutionStatus) (seen : List Observation) :
    Prop where
  succeeded : status = .succeeded →
    (∃ id, (seen.filter Observation.isExecute).getLast? = some (.execute id true)) ∧
      .verify runbook.verifySignal true ∈ afterLastExecute seen
  rolledBack : status = .rolledBack →
    ∃ id ∈ runbook.rollbackId, .rollback id true ∈ afterLastExecute seen
  escalates : (∃ id, .execute id true ∈ seen) → (∃ signal, .verify signal false ∈ seen) →
    (∀ id, .rollback id true ∉ seen) → status = .escalate

/-- The result of a run of the loop is truthful about the calls the run made. A call that
raises reports no status. -/
def ControlLoopCall.TruthfulRun (c : ControlLoopCall) (run : LoopRun) : Prop :=
  ∀ runbook, c.catalog.get c.request.runbookId = some runbook →
    ∀ result, run.result = .ok result →
      Truthful runbook result.status (observations c.adapter c.request [] (callsOf run.log))

/-- What a canary rollout must meet for its outcome to be reported truthfully: the canary
deploys, an unhealthy canary is rolled back, and the fleet is verified by the runbook's own
signal. `past` are the calls made before. -/
structure HonestRollout (adapter : ActionAdapter) (runbook : Runbook) (request : ActionRequest)
    (strategy : CanaryStrategy) (past : List AdapterCall) : Prop where
  deployed : (adapter.execute past (runbook.id ++ ".canary") request).isOk = true
  undone : adapter.verify (past ++ [.execute (runbook.id ++ ".canary")])
      strategy.canaryVerifySignal request ≠ .ok true →
    ∃ id ∈ runbook.rollbackId.filter (· ≠ ""),
      (adapter.rollback (past ++ [.execute (runbook.id ++ ".canary"),
        .verify strategy.canaryVerifySignal]) id request).isOk = true
  ownSignal : adapter.verify (past ++ [.execute (runbook.id ++ ".canary")])
      strategy.canaryVerifySignal request = .ok true →
    (adapter.execute (past ++ [.execute (runbook.id ++ ".canary"),
      .verify strategy.canaryVerifySignal]) runbook.id request).isOk = true →
    adapter.verify (past ++ [.execute (runbook.id ++ ".canary"),
      .verify strategy.canaryVerifySignal, .execute runbook.id])
      strategy.fullVerifySignal request = .ok true →
    strategy.fullVerifySignal = runbook.verifySignal

section
variable (adapter : ActionAdapter) (runbook : Runbook) (request : ActionRequest)
  (leases : List LockLease)

theorem preflight_observed :
    observations adapter request [] (callsOf (preflight adapter runbook request leases []).2) = [] ∨
      observations adapter request [] (callsOf (preflight adapter runbook request leases []).2) =
        [.preflight] := by
  unfold preflight
  cases adapter.preflight <;> simp [callsOf, observations, observe]

/-- Nothing was executed before the rollout, so only its own calls count. -/
theorem truthful_append {past : List Observation} (hpast : past = [] ∨ past = [.preflight])
    {status : ExecutionStatus} {id : String} {returned : Bool} {rest : List Observation} :
    Truthful runbook status (past ++ .execute id returned :: rest) ↔
      Truthful runbook status (.execute id returned :: rest) := by
  rcases hpast with rfl | rfl
  · rfl
  · have hafter : afterLastExecute ([.preflight] ++ .execute id returned :: rest) =
        afterLastExecute (.execute id returned :: rest) := by
      rw [List.singleton_append, afterLastExecute, if_pos (by simp [Observation.isExecute])]
    have hfilter : List.filter Observation.isExecute ([.preflight] ++ .execute id returned :: rest) =
        List.filter Observation.isExecute (.execute id returned :: rest) := by
      simp [Observation.isExecute]
    constructor
    · intro h
      have h₁ := h.succeeded
      have h₂ := h.rolledBack
      have h₃ := h.escalates
      rw [hafter, hfilter] at h₁
      rw [hafter] at h₂
      exact ⟨h₁, h₂, by simpa using h₃⟩
    · intro h
      refine ⟨?_, ?_, by simpa using h.escalates⟩
      · rw [hafter, hfilter]
        exact h.succeeded
      · rw [hafter]
        exact h.rolledBack

variable {log : List LoggedCall}

theorem callsOf_append (log log' : List LoggedCall) :
    callsOf (log ++ log') = callsOf log ++ callsOf log' := by
  simp [callsOf]

theorem callsOf_cons (x : LoggedCall) (log : List LoggedCall) :
    callsOf (x :: log) = x.call :: callsOf log := rfl

theorem callsOf_nil : callsOf [] = [] := rfl

/-- Only preflight has been asked so far. -/
def NothingExecuted (log : List LoggedCall) : Prop :=
  observations adapter request [] (callsOf log) = [] ∨
    observations adapter request [] (callsOf log) = [.preflight]

theorem truthful_rollout (hlog : NothingExecuted adapter request log) {status : ExecutionStatus}
    {id : String} {rest : List AdapterCall} :
    Truthful runbook status
        (observations adapter request [] (callsOf log ++ .execute id :: rest)) ↔
      Truthful runbook status (observations adapter request (callsOf log) (.execute id :: rest)) := by
  rw [observations_append, List.nil_append]
  exact truthful_append runbook hlog

theorem truthful_escalate (seen : List Observation) : Truthful runbook .escalate seen := by
  constructor <;> simp

/-- The direct path reports what happened, whatever the adapter does. -/
theorem direct_truthful (decision : PolicyDecision) (hlog : NothingExecuted adapter request log) :
    Truthful runbook
      (runExecutionAndVerify adapter runbook request leases decision none log).1.status
      (observations adapter request []
        (callsOf (runExecutionAndVerify adapter runbook request leases decision none log).2)) := by
  simp only [runExecutionAndVerify, callsOf_append, callsOf_cons, callsOf_nil]
  cases hx : adapter.execute (callsOf log) runbook.id request with
  | error exc => exact truthful_escalate runbook _
  | ok ref =>
    dsimp only
    split
    · next hv =>
      simp only [callsOf_append, callsOf_cons, callsOf_nil, List.append_assoc, List.cons_append,
        List.nil_append]
      rw [truthful_rollout adapter runbook request hlog]
      constructor <;> simp [observations, observe, hx, hv, afterLastExecute,
        Observation.isExecute, Except.isOk, Except.toBool]
    · unfold rollbackStep
      cases hr : runbook.rollbackId.filter (· ≠ "") with
      | none => exact truthful_escalate runbook _
      | some id =>
        simp only [callsOf_append, callsOf_cons, callsOf_nil, List.append_assoc, List.cons_append,
          List.nil_append]
        rw [truthful_rollout adapter runbook request hlog]
        cases hb : adapter.rollback (callsOf log ++ [.execute runbook.id,
          .verify runbook.verifySignal]) id request with
        | error exc => exact truthful_escalate runbook _
        | ok undo =>
          by_cases hu : undo = ""
          · rw [hu]
            exact truthful_escalate runbook _
          · have hid := (Option.filter_eq_some_iff.mp hr).1
            constructor
            · simp [Except.toOption, hu]
            · intro _
              refine ⟨id, hid, ?_⟩
              simp [observations, observe, hb, afterLastExecute, Observation.isExecute,
                Except.isOk, Except.toBool]
            · simp [observations, observe, hb, Except.isOk, Except.toBool]

/-- The loop's status for the outcome of a canary rollout. -/
def CanaryStatus.reported : CanaryStatus → ExecutionStatus
  | succeeded => .succeeded
  | aborted => .rolledBack
  | failed => .escalate

theorem canary_reported (decision : PolicyDecision) (strategy : CanaryStrategy)
    (log : List LoggedCall) :
    (runExecutionAndVerify adapter runbook request leases decision (some strategy) log).1.status =
        (executeProgressive adapter runbook request leases strategy log).1.status.reported ∧
      (runExecutionAndVerify adapter runbook request leases decision (some strategy) log).2 =
        (executeProgressive adapter runbook request leases strategy log).2 := by
  simp only [runExecutionAndVerify]
  cases h : (executeProgressive adapter runbook request leases strategy log).1.status with
  | succeeded | aborted | failed => exact ⟨rfl, rfl⟩

/-- A canary rollout is reported truthfully exactly when it is an honest one. -/
theorem canary_truthful_iff (strategy : CanaryStrategy)
    (hlog : NothingExecuted adapter request log) :
    Truthful runbook
        (executeProgressive adapter runbook request leases strategy log).1.status.reported
        (observations adapter request []
          (callsOf (executeProgressive adapter runbook request leases strategy log).2)) ↔
      HonestRollout adapter runbook request strategy (callsOf log) := by
  simp only [executeProgressive, callsOf_append, callsOf_cons, callsOf_nil,
    List.append_assoc, List.cons_append, List.nil_append]
  cases hx : adapter.execute (callsOf log) (runbook.id ++ ".canary") request with
  | error exc =>
    -- the canary never deployed, yet the status claims a rollback
    simp only [callsOf_append, callsOf_cons, callsOf_nil]
    rw [truthful_rollout adapter runbook request hlog]
    constructor
    · intro h
      obtain ⟨id, -, hmem⟩ := h.rolledBack rfl
      simp [observations, afterLastExecute, observe, Observation.isExecute] at hmem
    · intro h
      have hdeployed := h.deployed
      simp [hx, Except.isOk, Except.toBool] at hdeployed
  | ok ref =>
    have hdeployed : (adapter.execute (callsOf log) (runbook.id ++ ".canary") request).isOk = true := by
      rw [hx]
      rfl
    dsimp only
    split
    · next hv =>
      cases hf : adapter.execute (callsOf log ++ [.execute (runbook.id ++ ".canary"),
        .verify strategy.canaryVerifySignal]) runbook.id request with
      | error exc =>
        refine ⟨fun _ => ⟨hdeployed, fun h => absurd hv h, ?_⟩, fun _ => truthful_escalate runbook _⟩
        intro _ hfleet
        simp [hf, Except.isOk, Except.toBool] at hfleet
      | ok fleetRef =>
        dsimp only
        split
        · next hw =>
          simp only [callsOf_append, callsOf_cons, callsOf_nil]
          rw [truthful_rollout adapter runbook request hlog]
          constructor
          · intro h
            refine ⟨hdeployed, fun h => absurd hv h, fun _ _ _ => ?_⟩
            obtain ⟨-, hmem⟩ := h.succeeded rfl
            simp [observations, afterLastExecute, observe, Observation.isExecute] at hmem
            exact hmem.1.symm
          · intro h
            have hsignal := h.ownSignal hv (by rw [hf]; rfl) hw
            rw [hsignal] at hw
            constructor <;> simp [CanaryStatus.reported, observations, observe, hx, hv, hf, hw,
              hsignal, afterLastExecute, Observation.isExecute, Except.isOk, Except.toBool]
        · next hw =>
          refine ⟨fun _ => ⟨hdeployed, fun h => absurd hv h, fun _ _ h => absurd h hw⟩,
            fun _ => truthful_escalate runbook _⟩
    · next hv =>
      have hcanary : ∀ h : adapter.verify (callsOf log ++ [.execute (runbook.id ++ ".canary")])
          strategy.canaryVerifySignal request = .ok true, False := hv
      unfold rollbackStep
      cases hr : runbook.rollbackId.filter (· ≠ "") with
      | none =>
        simp only [callsOf_append, callsOf_cons, callsOf_nil]
        rw [truthful_rollout adapter runbook request hlog]
        constructor
        · intro h
          obtain ⟨id, -, hmem⟩ := h.rolledBack rfl
          simp [observations, afterLastExecute, observe, Observation.isExecute] at hmem
        · intro h
          obtain ⟨id, hid, -⟩ := h.undone hcanary
          rw [hr] at hid
          cases hid
      | some id =>
        simp only [callsOf_append, callsOf_cons, callsOf_nil, List.append_assoc, List.cons_append,
          List.nil_append]
        rw [truthful_rollout adapter runbook request hlog]
        constructor
        · intro h
          refine ⟨hdeployed, fun _ => ⟨id, hr, ?_⟩, fun h => (hcanary h).elim⟩
          obtain ⟨id', -, hmem⟩ := h.rolledBack rfl
          simp [observations, afterLastExecute, observe, Observation.isExecute] at hmem
          exact hmem.2
        · intro h
          obtain ⟨id', hid, hback⟩ := h.undone hcanary
          obtain rfl := Option.some.inj (hr.symm.trans hid)
          have hown := (Option.filter_eq_some_iff.mp hr).1
          constructor
          · simp [CanaryStatus.reported]
          · intro _
            refine ⟨id, hown, ?_⟩
            simp [observations, afterLastExecute, observe, Observation.isExecute, hback]
          · simp [observations, observe, hback]

end

section
variable (sha256 : String → String) (c : ControlLoopCall)

/-- The loop gets as far as the adapter: the gates admit the call, its preflight passes and
the lease is granted. `past` are the calls made so far. -/
def ReachesAdapter (a : Admission) (past : List AdapterCall) : Prop :=
  passGates sha256 c = .ok a ∧
    (preflight c.adapter a.runbook c.request (heldLeases c.lockManager) []).1.1 = true ∧
    past = callsOf (preflight c.adapter a.runbook c.request (heldLeases c.lockManager) []).2 ∧
    (acquireConcurrencyLease c).2.isOk = true

theorem truthful_untouched {runbook : Runbook} {status : ExecutionStatus} {seen : List Observation}
    (hseen : seen = [] ∨ seen = [.preflight]) (hs : status ≠ .succeeded)
    (hr : status ≠ .rolledBack) : Truthful runbook status seen := by
  refine ⟨fun h => absurd h hs, fun h => absurd h hr, ?_⟩
  intro hexec
  rcases hseen with rfl | rfl <;> simp at hexec

/-- A gate that returns early has neither executed nor rolled back anything. -/
theorem passGates_error {result : ExecutionResult} (h : passGates sha256 c = .error (.ok result)) :
    result.status = .blocked ∨ result.status = .denied := by
  unfold passGates at h
  split at h
  · simp at h
  split at h
  · obtain rfl := Except.ok.inj (Except.error.inj h)
    exact Or.inl rfl
  split at h
  · obtain rfl := Except.ok.inj (Except.error.inj h)
    exact Or.inl rfl
  split at h
  · simp at h
  · obtain rfl := Except.ok.inj (Except.error.inj h)
    exact Or.inr rfl
  split at h
  · obtain rfl := Except.ok.inj (Except.error.inj h)
    exact Or.inl rfl
  dsimp only at h
  split at h
  · obtain rfl := Except.ok.inj (Except.error.inj h)
    exact Or.inr rfl
  split at h
  · obtain rfl := Except.ok.inj (Except.error.inj h)
    exact Or.inl rfl
  · simp at h

/-- Without a canary strategy, and for every call refused before the adapter, the result is
truthful; with one it is so exactly when the rollout is honest. -/
theorem result_truthful_iff :
    c.TruthfulRun (executeControlLoop sha256 c) ↔
      ∀ strategy ∈ c.canaryStrategy, ∀ a past, ReachesAdapter sha256 c a past →
        HonestRollout c.adapter a.runbook c.request strategy past := by
  cases hg : passGates sha256 c with
  | error refused =>
    have hreach : ∀ a past, ¬ ReachesAdapter sha256 c a past := by
      intro a past h
      have hok := h.1
      rw [hg] at hok
      cases hok
    refine ⟨fun _ _ _ a past h => absurd h (hreach a past), fun _ runbook _ result hresult => ?_⟩
    simp only [executeControlLoop, hg] at hresult ⊢
    subst hresult
    have hstatus := passGates_error sha256 c hg
    apply truthful_untouched (Or.inl rfl) <;> rcases hstatus with h | h <;> simp [h]
  | ok a =>
    have hrunbook := (passGates_ok hg).runbook
    have hobserved : NothingExecuted c.adapter c.request
        (preflight c.adapter a.runbook c.request (heldLeases c.lockManager) []).2 :=
      preflight_observed c.adapter a.runbook c.request (heldLeases c.lockManager)
    cases hp : (preflight c.adapter a.runbook c.request (heldLeases c.lockManager) []).1.1 with
    | false =>
      refine ⟨fun _ _ _ a' past h => ?_, fun _ runbook _ result hresult => ?_⟩
      · obtain rfl := Except.ok.inj (hg.symm.trans h.1)
        have hpass := h.2.1
        rw [hp] at hpass
        cases hpass
      · simp only [executeControlLoop, hg, hp] at hresult ⊢
        obtain rfl := Except.ok.inj hresult
        exact truthful_untouched hobserved (by simp) (by simp)
    | true =>
      cases hl : acquireConcurrencyLease c with
      | mk manager granted =>
        cases granted with
        | error reason =>
          refine ⟨fun _ _ _ a' past h => ?_, fun _ runbook _ result hresult => ?_⟩
          · have hok := h.2.2.2
            rw [hl] at hok
            cases hok
          · simp only [executeControlLoop, hg, hp, hl] at hresult ⊢
            obtain rfl := Except.ok.inj hresult
            exact truthful_untouched hobserved (by simp) (by simp)
        | ok lease =>
          have hreach : ReachesAdapter sha256 c a
              (callsOf (preflight c.adapter a.runbook c.request (heldLeases c.lockManager) []).2) :=
            ⟨hg, hp, rfl, by rw [hl]; rfl⟩
          have htruth : c.TruthfulRun (executeControlLoop sha256 c) ↔
              Truthful a.runbook
                (runExecutionAndVerify c.adapter a.runbook c.request (heldLeases manager) a.decision
                  c.canaryStrategy (preflight c.adapter a.runbook c.request
                    (heldLeases c.lockManager) []).2).1.status
                (observations c.adapter c.request [] (callsOf
                  (runExecutionAndVerify c.adapter a.runbook c.request (heldLeases manager)
                    a.decision c.canaryStrategy (preflight c.adapter a.runbook c.request
                      (heldLeases c.lockManager) []).2).2)) := by
            simp only [ControlLoopCall.TruthfulRun, executeControlLoop, hg, hp, hl, hrunbook]
            simp
          rw [htruth]
          cases hc : c.canaryStrategy with
          | none =>
            refine ⟨fun _ _ h => (by cases h), fun _ => ?_⟩
            exact direct_truthful c.adapter a.runbook c.request (heldLeases manager) a.decision
              hobserved
          | some strategy =>
            obtain ⟨hstatus, hcalls⟩ := canary_reported c.adapter a.runbook c.request
              (heldLeases manager) a.decision strategy
              (preflight c.adapter a.runbook c.request (heldLeases c.lockManager) []).2
            rw [hstatus, hcalls, canary_truthful_iff _ _ _ _ _ hobserved]
            constructor
            · intro h strategy' hstrategy a' past hreach'
              obtain rfl := Option.some.inj hstrategy
              obtain rfl := Except.ok.inj (hg.symm.trans hreach'.1)
              rw [hreach'.2.2.1]
              exact h
            · intro h
              exact h strategy rfl a _ hreach

end

/-- `restartCall` rolled out by a canary whose deployment raises. -/
def canaryRefusedCall : ControlLoopCall :=
  { restartCall .approveAndExecute true "off" with
    canaryStrategy := some {}
    adapter :=
      { preflight := some (fun _ _ _ => .ok (.flag true))
        execute := fun _ _ _ => .error ⟨"RuntimeError", "quota exceeded"⟩
        verify := fun _ _ _ => .ok true
        rollback := fun _ _ _ => .ok "rollback-1" } }

/-- The result says rolled back, and the adapter was never asked to roll anything back. -/
theorem canary_abort_reports_rollback :
    ¬ canaryRefusedCall.TruthfulRun (executeControlLoop restartScopeSha256 canaryRefusedCall) := by
  intro h
  have hrunbook : (canaryRefusedCall.catalog.get canaryRefusedCall.request.runbookId).isSome = true := by
    decide
  obtain ⟨runbook, hrunbook⟩ := Option.isSome_iff_exists.mp hrunbook
  have hstatus : (executeControlLoop restartScopeSha256 canaryRefusedCall).result.map (·.status) =
      .ok .rolledBack := by
    decide
  have hseen : observations canaryRefusedCall.adapter canaryRefusedCall.request []
      (callsOf (executeControlLoop restartScopeSha256 canaryRefusedCall).log) =
        [.preflight, .execute "aks.restart.workload.canary" false] := by
    decide
  cases hresult : (executeControlLoop restartScopeSha256 canaryRefusedCall).result with
  | error m =>
    rw [hresult] at hstatus
    cases hstatus
  | ok result =>
    rw [hresult] at hstatus
    obtain ⟨id, -, hmem⟩ := (h runbook hrunbook result hresult).rolledBack (Except.ok.inj hstatus)
    rw [hseen] at hmem
    simp [afterLastExecute, Observation.isExecute] at hmem

end EngineeringIntelligence.Remediation
