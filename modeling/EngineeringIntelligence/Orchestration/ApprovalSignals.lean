import EngineeringIntelligence.Framework.Joined
import EngineeringIntelligence.Orchestration.ActionGates

namespace EngineeringIntelligence.Orchestration

open EngineeringIntelligence.Framework EngineeringIntelligence.State

/-! What signals can do to a run. Two runs are compared in which the activities answer alike
and the workflow is woken at the same times. -/

/-- How the activities of a run answer. `collect_evidence` refuses an invalid request. -/
structure ActivityOracle (request : RemediationRequest) where
  answer : ActivityCall → Except ActivityError ActivityAnswer
  validated : ∀ time, request.validate ≠ none → ∃ e, answer (.collectEvidence time) = .error e

/-- Signals arrive, or the activity that `run` waits for comes back. -/
inductive Turn where
  | signals (batch : List RemediationApprovalSignal)
  | respond

/-- The turn with only some of its signals. -/
def Turn.keeping (keep : RemediationApprovalSignal → Bool) : Turn → Turn
  | signals batch => signals (batch.filter keep)
  | respond => respond

section
variable {request : RemediationRequest} (oracle : ActivityOracle request)

def takeTurn (s : WorkflowState) (turn : UtcTime × Turn) : WorkflowState × List WorkflowStep :=
  match turn.2 with
  | .signals batch => s.step request (turn.1, .wake batch)
  | .respond =>
    match s.phase.call with
    | none => (s, [])
    | some call =>
      match oracle.answer call with
      | .ok answer => s.step request (turn.1, .answer answer)
      | .error e => s.step request (turn.1, .failure e)

/-- The steps of a run from a state on. -/
def stepsFrom (s : WorkflowState) (turns : List (UtcTime × Turn)) : List WorkflowStep :=
  (history (takeTurn oracle) s turns).flatMap (·.2)

def stateFrom (s : WorkflowState) (turns : List (UtcTime × Turn)) : WorkflowState :=
  runState (takeTurn oracle) s turns

def keepingSignals (keep : RemediationApprovalSignal → Bool) (turns : List (UtcTime × Turn)) :
    List (UtcTime × Turn) :=
  turns.map fun turn => (turn.1, turn.2.keeping keep)

theorem stepsFrom_cons (s : WorkflowState) (turn : UtcTime × Turn) (turns : List (UtcTime × Turn)) :
    stepsFrom oracle s (turn :: turns) =
      (takeTurn oracle s turn).2 ++ stepsFrom oracle (takeTurn oracle s turn).1 turns := by
  simp [stepsFrom]

end

/-- Phases in which a signal can still be looked at. -/
def WorkflowPhase.listening : WorkflowPhase → Bool
  | collecting _ => true
  | planning _ _ => true
  | awaiting _ _ => true
  | _ => false

/-- None of the dropped signals is bound to the plan. -/
def Harmless (request : RemediationRequest) (keep : RemediationApprovalSignal → Bool)
    (plan : RemediationPlanResult) : Prop :=
  ∀ signal, keep signal = false →
    (evaluateApprovalSignal request.workflowId plan.planHash signal).accepted = false

/-- Two states of runs that differ in dropped signals only. -/
structure Alike (request : RemediationRequest) (keep : RemediationApprovalSignal → Bool)
    (s s' : WorkflowState) : Prop where
  phase : s'.phase = s.phase
  pending : s.phase.listening = true → s'.pending = s.pending.filter keep
  planned : ∀ plan deadline, s.phase = .awaiting plan deadline → Harmless request keep plan
  valid : (∀ time, s.phase ≠ .collecting time) → s.phase.listening = true → request.validate = none

section
variable {request : RemediationRequest} {keep : RemediationApprovalSignal → Bool}

theorem takeCandidate_keeping {plan : RemediationPlanResult} (h : Harmless request keep plan)
    (pending : List RemediationApprovalSignal) :
    (takeCandidate request.workflowId plan.planHash (pending.filter keep)).1 =
        (takeCandidate request.workflowId plan.planHash pending).1 ∧
      (takeCandidate request.workflowId plan.planHash (pending.filter keep)).2.1 =
        (takeCandidate request.workflowId plan.planHash pending).2.1.filter keep := by
  induction pending with
  | nil => exact ⟨rfl, rfl⟩
  | cons candidate pending ih =>
    cases hkeep : keep candidate with
    | true =>
      rw [List.filter_cons_of_pos hkeep]
      unfold takeCandidate
      dsimp only
      split
      · exact ⟨rfl, rfl⟩
      · exact ih
    | false =>
      have hrefused := h candidate hkeep
      have hskip : (takeCandidate request.workflowId plan.planHash (candidate :: pending)).1 =
            (takeCandidate request.workflowId plan.planHash pending).1 ∧
          (takeCandidate request.workflowId plan.planHash (candidate :: pending)).2.1 =
            (takeCandidate request.workflowId plan.planHash pending).2.1 := by
        rw [takeCandidate]
        simp [hrefused]
      have hdrop : ¬ keep candidate = true := by simp [hkeep]
      rw [List.filter_cons_of_neg hdrop, hskip.1, hskip.2]
      exact ih

variable {now : UtcTime} {s s' : WorkflowState} {plan : RemediationPlanResult}

theorem alike_of_closed (hphase : s'.phase = s.phase) (hclosed : s.phase.listening = false) :
    Alike request keep s s' := by
  refine ⟨hphase, ?_, ?_, ?_⟩
  · intro hlistening
    rw [hclosed] at hlistening
    cases hlistening
  · intro plan deadline hawaiting
    rw [hawaiting] at hclosed
    cases hclosed
  · intro _ hlistening
    rw [hclosed] at hlistening
    cases hlistening

theorem examine_alike (hpending : s'.pending = s.pending.filter keep)
    (hplan : Harmless request keep plan) (hvalid : request.validate = none) (deadline : Int) :
    (s'.examine request now plan deadline).2 = (s.examine request now plan deadline).2 ∧
      Alike request keep (s.examine request now plan deadline).1
        (s'.examine request now plan deadline).1 := by
  obtain ⟨hfound, hrest⟩ := takeCandidate_keeping hplan s.pending
  unfold WorkflowState.examine
  simp only [hvalid, Option.isSome_none, Bool.and_false, Bool.false_eq_true, if_false]
  rw [hpending, hfound]
  cases (takeCandidate request.workflowId plan.planHash s.pending).1 with
  | some signal => exact ⟨rfl, alike_of_closed rfl rfl⟩
  | none =>
    dsimp only
    split
    · exact ⟨rfl, alike_of_closed rfl rfl⟩
    · refine ⟨rfl, rfl, fun _ => hrest, ?_, fun _ _ => hvalid⟩
      intro plan' deadline' hawaiting
      obtain ⟨rfl, -⟩ : plan = plan' ∧ deadline = deadline' := by simpa using hawaiting
      exact hplan

theorem awaitApproval_alike (hpending : s'.pending = s.pending.filter keep)
    (hplan : Harmless request keep plan) (hvalid : request.validate = none) :
    (s'.awaitApproval request now plan).2 = (s.awaitApproval request now plan).2 ∧
      Alike request keep (s.awaitApproval request now plan).1
        (s'.awaitApproval request now plan).1 := by
  unfold WorkflowState.awaitApproval
  dsimp only
  split
  · exact ⟨rfl, alike_of_closed rfl rfl⟩
  · split
    · exact ⟨rfl, alike_of_closed rfl rfl⟩
    · exact examine_alike hpending hplan hvalid _

/-- Only a plan makes `run` look at the queue. -/
theorem proceed_queue {answer : ActivityAnswer} (hphase : s'.phase = s.phase)
    (hplan : ∀ bundle time plan, ¬ (s.phase = .planning bundle time ∧ answer = .plan plan)) :
    s'.proceed request now answer = (s.proceed request now answer).map
      fun r => ({ s' with phase := r.1.phase }, r.2) := by
  unfold WorkflowState.proceed
  rw [hphase]
  split
  · rfl
  · next hs => exact absurd ⟨hs, rfl⟩ (hplan _ _ _)
  · dsimp only
    split
    · rfl
    · rfl
  · dsimp only
    split
    · rfl
    · rfl
  · dsimp only
    split
    · rfl
    · rfl
  · rfl
  · rfl
  · rfl

/-- After any other answer `run` listens only if it has just got its evidence. -/
theorem proceed_listening {t : WorkflowState} {answer : ActivityAnswer} {steps : List WorkflowStep}
    (hplan : ∀ bundle time plan, ¬ (s.phase = .planning bundle time ∧ answer = .plan plan))
    (h : s.proceed request now answer = some (t, steps)) :
    t.phase.listening = false ∨ ∃ time bundle, s.phase = .collecting time ∧
      t = { s with phase := .planning bundle now.isoformat } := by
  unfold WorkflowState.proceed at h
  split at h
  · next time bundle hs =>
    cases h
    exact Or.inr ⟨time, bundle, hs, rfl⟩
  · next hs => exact absurd ⟨hs, rfl⟩ (hplan _ _ _)
  · left
    dsimp only at h
    split at h <;> cases h <;> rfl
  · left
    dsimp only at h
    split at h <;> cases h <;> rfl
  · left
    dsimp only at h
    split at h <;> cases h <;> rfl
  · cases h
    exact Or.inl rfl
  · cases h
    exact Or.inl rfl
  · cases h

theorem step_answer (answer : ActivityAnswer) :
    s.step request (now, .answer answer) = match s.proceed request now answer with
      | none => (s, [])
      | some (t, steps) => (t, .answered answer :: steps) := rfl

theorem plan_alike (h : Alike request keep s s') {bundle : EvidenceBundle} {time : String}
    (hphase : s.phase = .planning bundle time)
    (hanswer : ∀ plan', .answered (.plan plan') ∈ (s.step request (now, .answer (.plan plan))).2 →
      Harmless request keep plan') :
    (s'.step request (now, .answer (.plan plan))).2 = (s.step request (now, .answer (.plan plan))).2 ∧
      Alike request keep (s.step request (now, .answer (.plan plan))).1
        (s'.step request (now, .answer (.plan plan))).1 := by
  have hphase' : s'.phase = .planning bundle time := h.phase.trans hphase
  have hlistening : s.phase.listening = true := by rw [hphase]; rfl
  have hvalid := h.valid (by rw [hphase]; nofun) hlistening
  cases hgo : (decideAfterPlan plan).proceed with
  | false =>
    have hnext : ∀ t : WorkflowState, t.phase = .planning bundle time →
        t.proceed request now (.plan plan) = some (t.finish now plan (decideAfterPlan plan) ""
          "received" bundle.workflowVersion) := by
      intro t ht
      simp [WorkflowState.proceed, ht, hgo]
    rw [step_answer, step_answer, hnext s hphase, hnext s' hphase']
    exact ⟨rfl, alike_of_closed rfl rfl⟩
  | true =>
    have hnext : ∀ t : WorkflowState, t.phase = .planning bundle time →
        t.proceed request now (.plan plan) = some (t.awaitApproval request now plan) := by
      intro t ht
      simp [WorkflowState.proceed, ht, hgo]
    rw [step_answer, hnext s hphase] at hanswer
    rw [step_answer, step_answer, hnext s hphase, hnext s' hphase']
    have hplan : Harmless request keep plan := hanswer plan (by simp)
    have halike : (s'.awaitApproval request now plan).2 = (s.awaitApproval request now plan).2 ∧
        Alike request keep (s.awaitApproval request now plan).1
          (s'.awaitApproval request now plan).1 :=
      awaitApproval_alike (h.pending hlistening) hplan hvalid
    exact ⟨congrArg (WorkflowStep.answered (.plan plan) :: ·) halike.1, halike.2⟩

theorem answer_alike (h : Alike request keep s s')
    (hcollected : ∀ time, s.phase = .collecting time → request.validate = none)
    {answer : ActivityAnswer}
    (hanswer : ∀ plan, .answered (.plan plan) ∈ (s.step request (now, .answer answer)).2 →
      Harmless request keep plan) :
    (s'.step request (now, .answer answer)).2 = (s.step request (now, .answer answer)).2 ∧
      Alike request keep (s.step request (now, .answer answer)).1
        (s'.step request (now, .answer answer)).1 := by
  by_cases hplanning : ∃ bundle time plan, s.phase = .planning bundle time ∧ answer = .plan plan
  · obtain ⟨bundle, time, plan, hphase, rfl⟩ := hplanning
    exact plan_alike h hphase hanswer
  · have hplan : ∀ bundle time plan, ¬ (s.phase = .planning bundle time ∧ answer = .plan plan) :=
      fun bundle time plan hboth => hplanning ⟨bundle, time, plan, hboth⟩
    rw [step_answer, step_answer, proceed_queue h.phase hplan]
    cases hproceed : s.proceed request now answer with
    | none => exact ⟨rfl, h⟩
    | some result =>
      obtain ⟨t, steps⟩ := result
      refine ⟨rfl, ?_⟩
      rcases proceed_listening hplan hproceed with hclosed | ⟨time, bundle, hcollecting, rfl⟩
      · exact alike_of_closed rfl hclosed
      · refine ⟨rfl, ?_, nofun, fun _ _ => hcollected time hcollecting⟩
        intro _
        exact h.pending (by rw [hcollecting]; rfl)

theorem wake_alike (h : Alike request keep s s') (batch : List RemediationApprovalSignal) :
    (s'.step request (now, .wake (batch.filter keep))).2 = (s.step request (now, .wake batch)).2 ∧
      Alike request keep (s.step request (now, .wake batch)).1
        (s'.step request (now, .wake (batch.filter keep))).1 := by
  by_cases hawaiting : ∃ plan deadline, s.phase = .awaiting plan deadline
  · obtain ⟨plan, deadline, hphase⟩ := hawaiting
    have hphase' : s'.phase = .awaiting plan deadline := h.phase.trans hphase
    have hlistening : s.phase.listening = true := by rw [hphase]; rfl
    have hvalid := h.valid (by rw [hphase]; nofun) hlistening
    have hexamine : ∀ (t : WorkflowState) (new : List RemediationApprovalSignal),
        t.phase = .awaiting plan deadline → t.step request (now, .wake new) =
          { t with pending := t.pending ++ new }.examine request now plan deadline := by
      intro t new ht
      simp only [WorkflowState.step, ht]
    rw [hexamine s batch hphase, hexamine s' (batch.filter keep) hphase']
    apply examine_alike _ (h.planned plan deadline hphase) hvalid
    rw [h.pending hlistening, List.filter_append]
  · have hqueue : ∀ (t : WorkflowState) (new : List RemediationApprovalSignal), t.phase = s.phase →
        t.step request (now, .wake new) = ({ t with pending := t.pending ++ new }, []) := by
      intro t new ht
      unfold WorkflowState.step
      dsimp only
      split
      · next plan deadline hphase => exact absurd ⟨plan, deadline, ht ▸ hphase⟩ hawaiting
      · rfl
    rw [hqueue s batch rfl, hqueue s' (batch.filter keep) h.phase]
    refine ⟨rfl, h.phase, ?_, ?_, h.valid⟩
    · intro hlistening
      rw [h.pending hlistening, List.filter_append]
    · exact h.planned

theorem failure_alike (h : Alike request keep s s') (error : ActivityError) :
    (s'.step request (now, .failure error)).2 = (s.step request (now, .failure error)).2 ∧
      Alike request keep (s.step request (now, .failure error)).1
        (s'.step request (now, .failure error)).1 := by
  unfold WorkflowState.step
  dsimp only
  rw [h.phase]
  split
  · exact ⟨rfl, alike_of_closed rfl rfl⟩
  · exact ⟨rfl, h⟩

variable {oracle : ActivityOracle request}

theorem turn_alike (h : Alike request keep s s') (turn : UtcTime × Turn)
    (hplans : ∀ plan, .answered (.plan plan) ∈ (takeTurn oracle s turn).2 →
      Harmless request keep plan) :
    (takeTurn oracle s' (turn.1, turn.2.keeping keep)).2 = (takeTurn oracle s turn).2 ∧
      Alike request keep (takeTurn oracle s turn).1
        (takeTurn oracle s' (turn.1, turn.2.keeping keep)).1 := by
  obtain ⟨now, turn⟩ := turn
  cases turn with
  | signals batch => exact wake_alike h batch
  | respond =>
    cases hcall : s.phase.call with
    | none =>
      have hcall' : s'.phase.call = none := h.phase ▸ hcall
      simp only [takeTurn, Turn.keeping, hcall, hcall', true_and]
      exact h
    | some call =>
      have hcall' : s'.phase.call = some call := h.phase ▸ hcall
      cases hanswer : oracle.answer call with
      | error e =>
        simp only [takeTurn, Turn.keeping, hcall, hcall', hanswer]
        exact failure_alike h e
      | ok answer =>
        simp only [takeTurn, Turn.keeping, hcall, hcall', hanswer] at hplans ⊢
        apply answer_alike h _ hplans
        -- evidence was collected, so the request is valid
        intro time hcollecting
        by_contra hinvalid
        obtain ⟨e, he⟩ := oracle.validated time hinvalid
        rw [hcollecting] at hcall
        obtain rfl := Option.some.inj hcall
        rw [hanswer] at he
        cases he

/-- Dropping signals that no plan of the run is bound to changes nothing but the queue and
the list of rejections. -/
theorem run_alike (h : Alike request keep s s') (turns : List (UtcTime × Turn))
    (hplans : ∀ plan, .answered (.plan plan) ∈ stepsFrom oracle s turns →
      Harmless request keep plan) :
    stepsFrom oracle s' (keepingSignals keep turns) = stepsFrom oracle s turns ∧
      Alike request keep (stateFrom oracle s turns)
        (stateFrom oracle s' (keepingSignals keep turns)) := by
  induction turns generalizing s s' with
  | nil => exact ⟨rfl, h⟩
  | cons turn turns ih =>
    have hcons : keepingSignals keep (turn :: turns) =
        (turn.1, turn.2.keeping keep) :: keepingSignals keep turns := rfl
    rw [stepsFrom_cons] at hplans
    obtain ⟨hsteps, halike⟩ := turn_alike h turn fun plan hplan =>
      hplans plan (List.mem_append_left _ hplan)
    obtain ⟨hrest, hfinal⟩ := ih halike fun plan hplan =>
      hplans plan (List.mem_append_right _ hplan)
    rw [hcons, stepsFrom_cons, stepsFrom_cons, hsteps, hrest]
    exact ⟨rfl, hfinal⟩

theorem turn_move (turn : UtcTime × Turn) :
    PhaseMove request turn.1 s.phase (takeTurn oracle s turn).1.phase (takeTurn oracle s turn).2 := by
  obtain ⟨now, turn⟩ := turn
  cases turn with
  | signals batch => exact step_move s (.wake batch)
  | respond =>
    unfold takeTurn
    dsimp only
    split
    · exact .stay
    · split
      · next answer hanswer => exact step_move s (.answer answer)
      · next e he => exact step_move s (.failure e)

/-- A phase that is not listening stays so, and no plan comes after it. -/
theorem closed_move {phase after : WorkflowPhase} {steps : List WorkflowStep}
    (hclosed : phase.listening = false) (hmove : PhaseMove request now phase after steps) :
    after.listening = false ∧ ∀ plan, .answered (.plan plan) ∉ steps := by
  cases hmove with
  | stay => exact ⟨hclosed, by simp⟩
  | collected => cases hclosed
  | unplanned hstop => cases hclosed
  | planned hgo hwait => cases hclosed
  | woken hwait => cases hclosed
  | _ => exact ⟨rfl, by simp [WorkflowStep.recorded]⟩

theorem steps_closed (hclosed : s.phase.listening = false) (turns : List (UtcTime × Turn)) :
    ∀ plan, .answered (.plan plan) ∉ stepsFrom oracle s turns := by
  induction turns generalizing s with
  | nil => simp [stepsFrom]
  | cons turn turns ih =>
    intro plan hplan
    obtain ⟨hafter, hnone⟩ := closed_move hclosed (turn_move turn)
    rw [stepsFrom_cons] at hplan
    rcases List.mem_append.mp hplan with hplan | hplan
    · exact hnone plan hplan
    · exact ih hafter plan hplan

theorem runGated_steps {trace : List WorkflowStep} (h : RunGated request trace s.phase)
    (turns : List (UtcTime × Turn)) :
    RunGated request (trace ++ stepsFrom oracle s turns) (stateFrom oracle s turns).phase := by
  induction turns generalizing s trace with
  | nil => simpa [stepsFrom, stateFrom] using h
  | cons turn turns ih =>
    rw [stepsFrom_cons, ← List.append_assoc]
    exact ih (runGated_move h (turn_move turn))

theorem initial_alike (start : UtcTime) :
    Alike request keep (.initial start) (.initial start) := by
  refine ⟨rfl, fun _ => rfl, nofun, ?_⟩
  intro hphase
  exact absurd rfl (hphase start.isoformat)

end

/-- What signals can do to a run. Dropping signals that are not bound to its plan changes
neither its steps nor its phase; once the wait is over no signal changes anything; and a
signal whose verification fails ends the run in an escalation, with no action taken. -/
structure SignalLaw {request : RemediationRequest} (oracle : ActivityOracle request)
    (start : UtcTime) (turns : List (UtcTime × Turn)) (keep : RemediationApprovalSignal → Bool) :
    Prop where
  unbound : stepsFrom oracle (.initial start) (keepingSignals keep turns) =
      stepsFrom oracle (.initial start) turns ∧
    (stateFrom oracle (.initial start) (keepingSignals keep turns)).phase =
      (stateFrom oracle (.initial start) turns).phase
  later : (stateFrom oracle (.initial start) turns).phase.listening = false →
    ∀ (drop : RemediationApprovalSignal → Bool) (more : List (UtcTime × Turn)),
      stepsFrom oracle (stateFrom oracle (.initial start) turns) (keepingSignals drop more) =
          stepsFrom oracle (stateFrom oracle (.initial start) turns) more ∧
        (stateFrom oracle (stateFrom oracle (.initial start) turns) (keepingSignals drop more)).phase =
          (stateFrom oracle (stateFrom oracle (.initial start) turns) more).phase
  refused : EscalatesIfRefused (.scheduled (.collectEvidence start.isoformat) ::
    stepsFrom oracle (.initial start) turns) (stateFrom oracle (.initial start) turns).phase

def undoRequest : RemediationRequest where
  requestId := "req-1"
  incidentId := "inc-1"
  service := "payments"
  environment := "prod"
  correlationId := "corr-1"

def newYear : UtcTime where
  year := 2026
  month := 1
  day := 1
  hour := 0
  minute := 0
  second := 0
  microsecond := 0
  date := by decide
  clock := midnight_clock

def undoPlanHash : String :=
  "sha256:aaaaaaaaaaaaaaaaaaaaaaaaaaaaaaaaaaaaaaaaaaaaaaaaaaaaaaaaaaaaaaaa"

/-- An approval of the plan as its approver signed it. -/
def genuineSignal : RemediationApprovalSignal where
  workflowId := "remediation:req-1"
  approver := "alice"
  planHash := undoPlanHash
  issuedAt := 1000
  signature := "c77ebec3b64f2b68d557ad5614096673b68668ecb91fbbd4ae5035711045a07a"

/-- The same with a made-up signature. -/
def forgedSignal : RemediationApprovalSignal := { genuineSignal with signature := "forged" }

/-- An approval of another plan. -/
def strayedSignal : RemediationApprovalSignal := { genuineSignal with planHash := "sha256:other" }

/-- HMAC-SHA-256 on what `genuineSignal` signs, and some injective digest elsewhere. -/
def undoHmac (_ : String) : String → String :=
  digestAt ("remediation:req-1|alice|" ++ undoPlanHash ++ "|1000") genuineSignal.signature

def undoVerification (plan : RemediationPlanResult) (signal : RemediationApprovalSignal) :
    Except ActivityError ApprovalVerification :=
  verifyApproval (fun _ => some "enabled") undoHmac "s3cret" 1010 undoRequest plan signal

/-- Activities that plan a rollout's undoing, verify its approval and let it succeed. -/
def undoOracle : ActivityOracle undoRequest where
  answer
    | .collectEvidence _ => .ok (.evidence ⟨undoRequest.workflowId, 1, [], [], .str ""⟩)
    | .planRemediation bundle _ => .ok (.plan
        { workflowId := bundle.workflowId, planned := true, reason := "recent deployment"
          runbookId := some "aks.rollout.undo", planHash := some undoPlanHash, workflowVersion := 3 })
    | .verifyApproval plan signal => (undoVerification plan signal).map .verification
    | .evaluatePolicy _ _ => .ok (.verdict ⟨true, "allowed", "rev-1"⟩)
    | .rehearseInTwin _ _ => .ok (.rehearsal ⟨true, "succeeded", []⟩)
    | .executeAction _ _ _ => .ok (.action
        { status := "succeeded", reason := "allowed", executionRef := some "exec-1"
          verified := true, fromStatus := "verifying", workflowVersion := 5 })
    | .recordOutcome plan outcome approver _ => .ok (.outcome
        { workflowId := plan.workflowId, status := terminalStatusForAction outcome
          reason := outcome.reason, planHash := plan.planHash, approver := approver
          executionRef := outcome.executionRef })
  validated _ h := absurd (by decide +kernel) h

/-- A run in which these signals come once the plan is made. -/
def undoTurns (batch : List RemediationApprovalSignal) : List (UtcTime × Turn) :=
  [(newYear, .respond), (newYear, .respond), (newYear, .signals batch), (newYear, .respond),
    (newYear, .respond), (newYear, .respond), (newYear, .respond), (newYear, .respond)]

def WorkflowPhase.result : WorkflowPhase → Option TerminalStatus
  | finished outcome => some outcome.status
  | _ => none

/-- Whether a signal is bound to the plan of these runs. -/
def boundToUndo (signal : RemediationApprovalSignal) : Bool :=
  (evaluateApprovalSignal undoRequest.workflowId (some undoPlanHash) signal).accepted

def WorkflowStep.plansOnly (planHash : Option String) : WorkflowStep → Bool
  | answered (.plan plan) => plan.planHash = planHash
  | _ => true

end EngineeringIntelligence.Orchestration
