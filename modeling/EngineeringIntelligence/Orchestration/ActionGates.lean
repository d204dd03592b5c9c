import EngineeringIntelligence.Orchestration.RemediationWorkflow

namespace EngineeringIntelligence.Orchestration

open EngineeringIntelligence.Framework EngineeringIntelligence.State

/-! The control loop as a transition system between phases, and what stands before an action
in every run of it. -/

/-! ### Transitions -/

section
variable (request : RemediationRequest) (now : UtcTime)

def WorkflowStep.recorded (plan : RemediationPlanResult) (outcome : ActionOutcome)
    (approver : String) : WorkflowStep :=
  .scheduled (.recordOutcome plan outcome approver now.isoformat)

/-- How a look at the queue of signals can end. -/
inductive WaitMove (plan : RemediationPlanResult) : WorkflowPhase → List WorkflowStep → Prop
  | stalled : WaitMove plan .stalled []
  | waiting {deadline : Int} : WaitMove plan (.awaiting plan deadline) []
  | found {signal : RemediationApprovalSignal} :
      (evaluateApprovalSignal request.workflowId plan.planHash signal).accepted = true →
      WaitMove plan (.verifying plan signal)
        [.accepted signal, .scheduled (.verifyApproval plan signal)]
  | expired : WaitMove plan (.recording plan
      (expiredDecision.outcome "waiting_approval" plan.workflowVersion) "" now.isoformat)
      [.recorded now plan (expiredDecision.outcome "waiting_approval" plan.workflowVersion) ""]

/-- What one activation can do: the phases before and after it, and the steps it takes. -/
inductive PhaseMove : WorkflowPhase → WorkflowPhase → List WorkflowStep → Prop
  | stay {phase : WorkflowPhase} : PhaseMove phase phase []
  | fail {phase : WorkflowPhase} {error : ActivityError} : phase.call.isSome = true →
      PhaseMove phase (.failed error) []
  | collected {time : String} {bundle : EvidenceBundle} :
      PhaseMove (.collecting time) (.planning bundle now.isoformat)
        [.answered (.evidence bundle), .scheduled (.planRemediation bundle now.isoformat)]
  | unplanned {bundle : EvidenceBundle} {time : String} {plan : RemediationPlanResult} :
      (decideAfterPlan plan).proceed = false →
      PhaseMove (.planning bundle time) (.recording plan
        ((decideAfterPlan plan).outcome "received" bundle.workflowVersion) "" now.isoformat)
        [.answered (.plan plan),
          .recorded now plan ((decideAfterPlan plan).outcome "received" bundle.workflowVersion) ""]
  | planned {bundle : EvidenceBundle} {time : String} {plan : RemediationPlanResult}
      {after : WorkflowPhase} {steps : List WorkflowStep} : (decideAfterPlan plan).proceed = true →
      WaitMove request now plan after steps →
      PhaseMove (.planning bundle time) after (.answered (.plan plan) :: steps)
  | woken {plan : RemediationPlanResult} {deadline : Int} {after : WorkflowPhase}
      {steps : List WorkflowStep} : WaitMove request now plan after steps →
      PhaseMove (.awaiting plan deadline) after steps
  | unverified {plan : RemediationPlanResult} {signal : RemediationApprovalSignal}
      {verification : ApprovalVerification} : (decideAfterApproval verification).proceed = false →
      PhaseMove (.verifying plan signal) (.recording plan
        ((decideAfterApproval verification).outcome "waiting_approval" plan.workflowVersion) ""
          now.isoformat)
        [.answered (.verification verification), .recorded now plan
          ((decideAfterApproval verification).outcome "waiting_approval" plan.workflowVersion) ""]
  | verified {plan : RemediationPlanResult} {signal : RemediationApprovalSignal}
      {verification : ApprovalVerification} : (decideAfterApproval verification).proceed = true →
      PhaseMove (.verifying plan signal) (.authorizing plan verification.approver)
        [.answered (.verification verification), .scheduled (.evaluatePolicy plan true)]
  | denied {plan : RemediationPlanResult} {approver : String} {verdict : PolicyVerdict} :
      (decideAfterPolicy verdict).proceed = false →
      PhaseMove (.authorizing plan approver) (.recording plan
        ((decideAfterPolicy verdict).outcome "waiting_approval" plan.workflowVersion) approver
          now.isoformat)
        [.answered (.verdict verdict), .recorded now plan
          ((decideAfterPolicy verdict).outcome "waiting_approval" plan.workflowVersion) approver]
  | allowed {plan : RemediationPlanResult} {approver : String} {verdict : PolicyVerdict} :
      (decideAfterPolicy verdict).proceed = true →
      PhaseMove (.authorizing plan approver) (.rehearsing plan approver)
        [.answered (.verdict verdict), .scheduled (.rehearseInTwin plan true)]
  | blocked {plan : RemediationPlanResult} {approver : String} {rehearsal : RehearsalVerdict} :
      (decideAfterRehearsal rehearsal).proceed = false →
      PhaseMove (.rehearsing plan approver) (.recording plan
        ((decideAfterRehearsal rehearsal).outcome "waiting_approval" plan.workflowVersion) approver
          now.isoformat)
        [.answered (.rehearsal rehearsal), .recorded now plan
          ((decideAfterRehearsal rehearsal).outcome "waiting_approval" plan.workflowVersion) approver]
  | rehearsed {plan : RemediationPlanResult} {approver : String} {rehearsal : RehearsalVerdict} :
      (decideAfterRehearsal rehearsal).proceed = true →
      PhaseMove (.rehearsing plan approver) (.executing plan approver now.isoformat)
        [.answered (.rehearsal rehearsal), .scheduled (.executeAction plan true now.isoformat)]
  | acted {plan : RemediationPlanResult} {approver time : String} {outcome : ActionOutcome} :
      PhaseMove (.executing plan approver time) (.recording plan outcome approver now.isoformat)
        [.answered (.action outcome), .recorded now plan outcome approver]
  | concluded {plan : RemediationPlanResult} {outcome : ActionOutcome} {approver time : String}
      {result : RemediationOutcome} :
      PhaseMove (.recording plan outcome approver time) (.finished result)
        [.answered (.outcome result)]

end

section
variable {request : RemediationRequest} {now : UtcTime}

theorem takeCandidate_accepted {workflowId : String} {planHash : Option String}
    {pending rest : List RemediationApprovalSignal} {signal : RemediationApprovalSignal}
    {reasons : List String}
    (h : takeCandidate workflowId planHash pending = (some signal, rest, reasons)) :
    (evaluateApprovalSignal workflowId planHash signal).accepted = true := by
  induction pending generalizing rest reasons with
  | nil => simp [takeCandidate] at h
  | cons candidate pending ih =>
    unfold takeCandidate at h
    dsimp only at h
    split at h
    · next haccepted =>
      obtain ⟨hsignal, -⟩ := Prod.mk.inj h
      rw [← Option.some.inj hsignal]
      exact haccepted
    · obtain ⟨hfound, hrest⟩ := Prod.mk.inj h
      exact ih (Prod.ext hfound rfl)

theorem examine_move (s : WorkflowState) (plan : RemediationPlanResult) (deadline : Int) :
    WaitMove request now plan (s.examine request now plan deadline).1.phase
      (s.examine request now plan deadline).2 := by
  unfold WorkflowState.examine
  split
  · exact .stalled
  · cases hfound : takeCandidate request.workflowId plan.planHash s.pending with
    | mk found queue =>
      obtain ⟨rest, reasons⟩ := queue
      cases found with
      | some signal => exact .found (takeCandidate_accepted hfound)
      | none =>
        dsimp only
        split
        · exact .expired
        · exact .waiting

theorem awaitApproval_move (s : WorkflowState) (plan : RemediationPlanResult) :
    WaitMove request now plan (s.awaitApproval request now plan).1.phase
      (s.awaitApproval request now plan).2 := by
  unfold WorkflowState.awaitApproval
  dsimp only
  split
  · exact .stalled
  · split
    · exact .expired
    · exact examine_move s plan _

theorem proceed_move {s s' : WorkflowState} {answer : ActivityAnswer} {steps : List WorkflowStep}
    (h : s.proceed request now answer = some (s', steps)) :
    PhaseMove request now s.phase s'.phase (.answered answer :: steps) := by
  unfold WorkflowState.proceed at h
  split at h
  · next hphase =>
    cases h
    rw [hphase]
    exact .collected
  · next bundle time plan hphase =>
    rw [hphase]
    dsimp only at h
    split at h
    · next hstop =>
      cases h
      exact .unplanned (by simpa using hstop)
    · next hgo =>
      have hmove : WaitMove request now plan (s.awaitApproval request now plan).1.phase
          (s.awaitApproval request now plan).2 := awaitApproval_move s plan
      rw [Option.some.inj h] at hmove
      exact .planned (by simpa using hgo) hmove
  · next hphase =>
    rw [hphase]
    dsimp only at h
    split at h
    · next hstop =>
      cases h
      exact .unverified (by simpa using hstop)
    · next hgo =>
      cases h
      exact .verified (by simpa using hgo)
  · next hphase =>
    rw [hphase]
    dsimp only at h
    split at h
    · next hstop =>
      cases h
      exact .denied (by simpa using hstop)
    · next hgo =>
      cases h
      exact .allowed (by simpa using hgo)
  · next hphase =>
    rw [hphase]
    dsimp only at h
    split at h
    · next hstop =>
      cases h
      exact .blocked (by simpa using hstop)
    · next hgo =>
      cases h
      exact .rehearsed (by simpa using hgo)
  · next hphase =>
    cases h
    rw [hphase]
    exact .acted
  · next hphase =>
    cases h
    rw [hphase]
    exact .concluded
  · cases h

/-- Every activation is one of the listed moves. -/
theorem step_move (s : WorkflowState) (input : WorkflowInput) :
    PhaseMove request now s.phase (s.step request (now, input)).1.phase
      (s.step request (now, input)).2 := by
  unfold WorkflowState.step
  cases input with
  | wake batch =>
    dsimp only
    split
    · next hphase =>
      rw [hphase]
      exact .woken (examine_move _ _ _)
    · exact .stay
  | answer answer =>
    dsimp only
    cases hproceed : s.proceed request now answer with
    | none => exact .stay
    | some result => exact proceed_move hproceed
  | failure error =>
    dsimp only
    split
    · next hcall => exact .fail hcall
    · exact .stay

/-! ### Gates -/

/-- A plan that can be put up for approval. -/
structure Approvable (plan : RemediationPlanResult) : Prop where
  planned : plan.planned = true
  runbookId : ∃ runbookId, plan.runbookId = some runbookId ∧ runbookId ≠ ""
  planHash : ∃ planHash, plan.planHash = some planHash ∧ planHash ≠ ""

/-- A signal that names the run's workflow and plan. -/
structure Bound (request : RemediationRequest) (plan : RemediationPlanResult)
    (signal : RemediationApprovalSignal) : Prop where
  workflowId : signal.workflowId = request.workflowId
  planHash : some signal.planHash = plan.planHash

theorem not_isMissing {text : Option String} (h : isMissing text = false) :
    ∃ value, text = some value ∧ value ≠ "" := by
  cases text with
  | none => cases h
  | some value => exact ⟨value, rfl, by simpa [isMissing] using h⟩

theorem approvable_of_proceed {plan : RemediationPlanResult}
    (h : (decideAfterPlan plan).proceed = true) : Approvable plan := by
  unfold decideAfterPlan at h
  split at h
  · cases h
  · next hgo =>
    simp only [Bool.or_eq_true, Bool.not_eq_true', not_or, Bool.not_eq_false,
      Bool.not_eq_true] at hgo
    obtain ⟨⟨hplanned, hrunbook⟩, hhash⟩ := hgo
    exact ⟨hplanned, not_isMissing hrunbook, not_isMissing hhash⟩

theorem verified_of_proceed {verification : ApprovalVerification}
    (h : (decideAfterApproval verification).proceed = true) : verification.verified = true := by
  unfold decideAfterApproval at h
  split at h
  · cases h
  · next hgo => simpa using hgo

theorem allowed_of_proceed {verdict : PolicyVerdict} (h : (decideAfterPolicy verdict).proceed = true) :
    verdict.allowed = true := by
  unfold decideAfterPolicy at h
  split at h
  · cases h
  · next hgo => simpa using hgo

theorem safe_of_proceed {rehearsal : RehearsalVerdict}
    (h : (decideAfterRehearsal rehearsal).proceed = true) : rehearsal.safeToPromote = true := by
  unfold decideAfterRehearsal at h
  split at h
  · cases h
  · next hgo => simpa using hgo

theorem bound_of_accepted {plan : RemediationPlanResult} {signal : RemediationApprovalSignal}
    (h : (evaluateApprovalSignal request.workflowId plan.planHash signal).accepted = true) :
    Bound request plan signal := by
  unfold evaluateApprovalSignal at h
  split at h
  · cases h
  · split at h
    · cases h
    · next hworkflow =>
      split at h
      · cases h
      · next hplan => exact ⟨not_not.mp hworkflow, not_not.mp hplan⟩

/-- The steps of a run up to the answer of the planner. -/
def plannedSteps (start : String) (bundle : EvidenceBundle) (time : String)
    (plan : RemediationPlanResult) : List WorkflowStep :=
  [.scheduled (.collectEvidence start), .answered (.evidence bundle),
    .scheduled (.planRemediation bundle time), .answered (.plan plan)]

/-- The steps from there to the verification of a signal. -/
def verifiedSteps (plan : RemediationPlanResult) (signal : RemediationApprovalSignal)
    (verification : ApprovalVerification) : List WorkflowStep :=
  [.accepted signal, .scheduled (.verifyApproval plan signal),
    .answered (.verification verification)]

def policySteps (plan : RemediationPlanResult) (verdict : PolicyVerdict) : List WorkflowStep :=
  [.scheduled (.evaluatePolicy plan true), .answered (.verdict verdict)]

def rehearsalSteps (plan : RemediationPlanResult) (rehearsal : RehearsalVerdict) :
    List WorkflowStep :=
  [.scheduled (.rehearseInTwin plan true), .answered (.rehearsal rehearsal)]

/-- What a run has done so far, by the phase it is in. -/
def TraceAt (request : RemediationRequest) (trace : List WorkflowStep) : WorkflowPhase → Prop
  | .collecting start => trace = [.scheduled (.collectEvidence start)]
  | .planning bundle time => ∃ start, trace = [.scheduled (.collectEvidence start),
      .answered (.evidence bundle), .scheduled (.planRemediation bundle time)]
  | .awaiting plan _ => Approvable plan ∧ ∃ start bundle time,
      trace = plannedSteps start bundle time plan
  | .verifying plan signal => Approvable plan ∧ Bound request plan signal ∧ ∃ start bundle time,
      trace = plannedSteps start bundle time plan ++
        [.accepted signal, .scheduled (.verifyApproval plan signal)]
  | .authorizing plan _ => Approvable plan ∧ ∃ start bundle time signal verification,
      Bound request plan signal ∧ verification.verified = true ∧
      trace = plannedSteps start bundle time plan ++ verifiedSteps plan signal verification ++
        [.scheduled (.evaluatePolicy plan true)]
  | .rehearsing plan _ => Approvable plan ∧ ∃ start bundle time signal verification verdict,
      Bound request plan signal ∧ verification.verified = true ∧ verdict.allowed = true ∧
      trace = plannedSteps start bundle time plan ++ verifiedSteps plan signal verification ++
        policySteps plan verdict ++ [.scheduled (.rehearseInTwin plan true)]
  | _ => True

/-- What stands before an action: evidence, a plan, a signal bound to that plan and to this
workflow, its verification, the policy's consent and a safe rehearsal, in this order and with
nothing between. -/
def GatesPassed (request : RemediationRequest) (before : List WorkflowStep)
    (plan : RemediationPlanResult) (approvalVerified : Bool) : Prop :=
  ∃ start bundle time signal verification verdict rehearsal,
    before = plannedSteps start bundle time plan ++ verifiedSteps plan signal verification ++
      policySteps plan verdict ++ rehearsalSteps plan rehearsal ∧
    Approvable plan ∧ Bound request plan signal ∧ verification.verified = true ∧
    verdict.allowed = true ∧ rehearsal.safeToPromote = true ∧ approvalVerified = true

def Gated (request : RemediationRequest) (trace : List WorkflowStep) : Prop :=
  ∀ before after plan approvalVerified time,
    trace = before ++ .scheduled (.executeAction plan approvalVerified time) :: after →
    GatesPassed request before plan approvalVerified

theorem traceAt_wait {plan : RemediationPlanResult} {after : WorkflowPhase}
    {trace steps : List WorkflowStep} (hplan : Approvable plan)
    (htrace : ∃ start bundle time, trace = plannedSteps start bundle time plan)
    (h : WaitMove request now plan after steps) : TraceAt request (trace ++ steps) after := by
  obtain ⟨start, bundle, time, rfl⟩ := htrace
  cases h with
  | stalled => trivial
  | waiting => exact ⟨hplan, start, bundle, time, rfl⟩
  | found haccepted => exact ⟨hplan, bound_of_accepted haccepted, start, bundle, time, rfl⟩
  | expired => trivial

theorem traceAt_move {phase after : WorkflowPhase} {trace steps : List WorkflowStep}
    (h : TraceAt request trace phase) (hmove : PhaseMove request now phase after steps) :
    TraceAt request (trace ++ steps) after := by
  cases hmove with
  | stay => simpa using h
  | fail hcall => trivial
  | collected =>
    obtain rfl := h
    exact ⟨_, rfl⟩
  | unplanned hstop => trivial
  | planned hgo hwait =>
    obtain ⟨start, rfl⟩ := h
    rw [List.append_cons]
    exact traceAt_wait (approvable_of_proceed hgo) ⟨start, _, _, rfl⟩ hwait
  | woken hwait => exact traceAt_wait h.1 h.2 hwait
  | unverified hstop => trivial
  | verified hgo =>
    obtain ⟨hplan, hbound, start, bundle, time, rfl⟩ := h
    exact ⟨hplan, start, bundle, time, _, _, hbound, verified_of_proceed hgo, by simp [verifiedSteps]⟩
  | denied hstop => trivial
  | allowed hgo =>
    obtain ⟨hplan, start, bundle, time, signal, verification, hbound, hverified, rfl⟩ := h
    exact ⟨hplan, start, bundle, time, signal, verification, _, hbound, hverified,
      allowed_of_proceed hgo, by simp [policySteps]⟩
  | blocked hstop => trivial
  | rehearsed hgo => trivial
  | acted => trivial
  | concluded => trivial

/-- An action is scheduled by one move only. -/
theorem executeAction_of_move {phase after : WorkflowPhase} {steps : List WorkflowStep}
    {plan : RemediationPlanResult} {approvalVerified : Bool} {time : String}
    (hmove : PhaseMove request now phase after steps)
    (h : .scheduled (.executeAction plan approvalVerified time) ∈ steps) :
    ∃ approver rehearsal, phase = .rehearsing plan approver ∧ approvalVerified = true ∧
      rehearsal.safeToPromote = true ∧
      steps = [.answered (.rehearsal rehearsal),
        .scheduled (.executeAction plan approvalVerified time)] := by
  have hwait : ∀ {p}, WaitMove request now p after steps → False := by
    intro p hw
    cases hw <;> simp [WorkflowStep.recorded] at h
  cases hmove with
  | @rehearsed plan' approver rehearsal hgo =>
    simp only [List.mem_cons, List.not_mem_nil, or_false, reduceCtorEq, false_or,
      WorkflowStep.scheduled.injEq, ActivityCall.executeAction.injEq] at h
    obtain ⟨rfl, rfl, rfl⟩ := h
    exact ⟨approver, rehearsal, rfl, rfl, safe_of_proceed hgo, rfl⟩
  | woken hw => exact (hwait hw).elim
  | planned hgo hw =>
    refine absurd h ?_
    cases hw <;> simp [WorkflowStep.recorded]
  | _ => simp [WorkflowStep.recorded] at h

theorem gated_move {phase after : WorkflowPhase} {trace steps : List WorkflowStep}
    (htraced : TraceAt request trace phase) (hgated : Gated request trace)
    (hmove : PhaseMove request now phase after steps) : Gated request (trace ++ steps) := by
  intro before rest plan approvalVerified time heq
  rcases List.append_eq_append_iff.mp heq with ⟨middle, rfl, hsteps⟩ | ⟨middle, rfl, hsteps⟩
  · -- the action is among the new steps
    have hmem : .scheduled (.executeAction plan approvalVerified time) ∈ steps := by
      rw [hsteps]
      simp
    obtain ⟨approver, rehearsal, rfl, rfl, hsafe, hnew⟩ := executeAction_of_move hmove hmem
    obtain ⟨hplan, start, bundle, evidenceTime, signal, verification, verdict, hbound, hverified,
      hallowed, rfl⟩ := htraced
    have hmiddle : middle = [.answered (.rehearsal rehearsal)] := by
      rw [hnew] at hsteps
      cases middle with
      | nil => simp at hsteps
      | cons first middle =>
        cases middle with
        | nil => simp_all
        | cons second middle => simp at hsteps
    exact ⟨start, bundle, evidenceTime, signal, verification, verdict, rehearsal,
      by rw [hmiddle]; simp [rehearsalSteps], hplan, hbound, hverified, hallowed, hsafe, rfl⟩
  · cases middle with
    | nil =>
      -- the action would be the first of the new steps
      have hmem : .scheduled (.executeAction plan approvalVerified time) ∈ steps := by
        rw [List.nil_append] at hsteps
        rw [← hsteps]
        simp
      obtain ⟨approver, rehearsal, -, -, -, hnew⟩ := executeAction_of_move hmove hmem
      rw [hnew] at hsteps
      simp at hsteps
    | cons first middle =>
      obtain ⟨rfl, -⟩ := List.cons.inj hsteps
      exact hgated before middle plan approvalVerified time rfl

/-! ### Refused approvals -/

/-- Phases of a run that is about to end in an escalation, or has ended. -/
def Ending : WorkflowPhase → Prop
  | .recording _ outcome _ _ => outcome.status = "escalate"
  | .finished _ => True
  | .failed _ => True
  | _ => False

/-- A run that takes no action and records nothing but an escalation. -/
structure Escalates (trace : List WorkflowStep) (phase : WorkflowPhase) : Prop where
  ending : Ending phase
  noAction : ∀ plan approvalVerified time,
    .scheduled (.executeAction plan approvalVerified time) ∉ trace
  escalated : ∀ plan outcome approver time,
    .scheduled (.recordOutcome plan outcome approver time) ∈ trace → outcome.status = "escalate"

def EscalatesIfRefused (trace : List WorkflowStep) (phase : WorkflowPhase) : Prop :=
  ∀ verification : ApprovalVerification, .answered (.verification verification) ∈ trace →
    verification.verified = false → Escalates trace phase

theorem escalates_move {phase after : WorkflowPhase} {trace steps : List WorkflowStep}
    (h : Escalates trace phase) (hmove : PhaseMove request now phase after steps) :
    Escalates (trace ++ steps) after := by
  have hending := h.ending
  cases hmove with
  | stay => simpa using h
  | fail hcall => exact ⟨trivial, by simpa using h.noAction, by simpa using h.escalated⟩
  | concluded => exact ⟨trivial, by simpa using h.noAction, by simpa using h.escalated⟩
  | _ => exact hending.elim

theorem escalate_of_refused {verification : ApprovalVerification}
    (h : (decideAfterApproval verification).proceed = false) (fromStatus : String) (version : Int) :
    ((decideAfterApproval verification).outcome fromStatus version).status = "escalate" := by
  unfold decideAfterApproval at h ⊢
  split
  · rfl
  · next hgo =>
    rw [if_neg hgo] at h
    cases h

theorem escalatesIfRefused_move {phase after : WorkflowPhase} {trace steps : List WorkflowStep}
    (htrace : TraceAt request trace phase) (h : EscalatesIfRefused trace phase)
    (hmove : PhaseMove request now phase after steps) : EscalatesIfRefused (trace ++ steps) after := by
  intro verification hmem hrefused
  rcases List.mem_append.mp hmem with hold | hnew
  · exact escalates_move (h verification hold hrefused) hmove
  · cases hmove with
    | @unverified plan signal verification' hstop =>
      obtain ⟨-, -, start, bundle, time, rfl⟩ := htrace
      have hstatus := escalate_of_refused hstop "waiting_approval" plan.workflowVersion
      refine ⟨hstatus, by simp [plannedSteps, WorkflowStep.recorded], ?_⟩
      intro plan' outcome approver time' hrecord
      simp only [plannedSteps, WorkflowStep.recorded, List.mem_append, List.mem_cons,
        List.not_mem_nil, or_false, reduceCtorEq, false_or, WorkflowStep.scheduled.injEq,
        ActivityCall.recordOutcome.injEq] at hrecord
      rw [hrecord.2.1]
      exact hstatus
    | @verified plan signal verification' hgo =>
      have hsame : verification = verification' := by simpa using hnew
      have hverified := verified_of_proceed hgo
      rw [← hsame, hrefused] at hverified
      cases hverified
    | planned hgo hwait => cases hwait <;> simp [WorkflowStep.recorded] at hnew
    | woken hwait => cases hwait <;> simp [WorkflowStep.recorded] at hnew
    | _ => simp [WorkflowStep.recorded] at hnew

/-! ### Runs -/

/-- What is known of every run, whatever the activities answer and whatever signals come. -/
structure RunGated (request : RemediationRequest) (trace : List WorkflowStep)
    (phase : WorkflowPhase) : Prop where
  traceAt : TraceAt request trace phase
  gated : Gated request trace
  refused : EscalatesIfRefused trace phase

theorem runGated_move {phase after : WorkflowPhase} {trace steps : List WorkflowStep}
    (h : RunGated request trace phase) (hmove : PhaseMove request now phase after steps) :
    RunGated request (trace ++ steps) after :=
  ⟨traceAt_move h.traceAt hmove, gated_move h.traceAt h.gated hmove,
    escalatesIfRefused_move h.traceAt h.refused hmove⟩

theorem runGated_start (start : UtcTime) :
    RunGated request [.scheduled (.collectEvidence start.isoformat)]
      (.collecting start.isoformat) := by
  refine ⟨rfl, ?_, by simp [EscalatesIfRefused]⟩
  intro before after plan approvalVerified time heq
  cases before with
  | nil => simp at heq
  | cons first before => simp at heq

theorem run_gated (request : RemediationRequest) (start : UtcTime)
    (inputs : List (UtcTime × WorkflowInput)) :
    RunGated request (workflowTrace request start inputs)
      (workflowAfter request start inputs).phase := by
  let steps (done : List ((UtcTime × WorkflowInput) × List WorkflowStep)) : List WorkflowStep :=
    .scheduled (.collectEvidence start.isoformat) :: done.flatMap (·.2)
  have hstep : ∀ (done : List ((UtcTime × WorkflowInput) × List WorkflowStep)) (s : WorkflowState)
      (input : UtcTime × WorkflowInput), RunGated request (steps done) s.phase →
      RunGated request (steps (done ++ [(input, (s.step request input).2)]))
        (s.step request input).1.phase := by
    intro done s input hinv
    have hmove : PhaseMove request input.1 s.phase (s.step request input).1.phase
        (s.step request input).2 := step_move s input.2
    have hsteps : steps (done ++ [(input, (s.step request input).2)]) =
        steps done ++ (s.step request input).2 := by
      simp [steps]
    rw [hsteps]
    exact runGated_move hinv hmove
  have hrun := run_history_invariant (WorkflowState.step request)
    (P := fun done s => RunGated request (steps done) s.phase) hstep (h := [])
    (s := .initial start) (runGated_start start) inputs
  rw [List.nil_append] at hrun
  exact hrun

end

end EngineeringIntelligence.Orchestration
