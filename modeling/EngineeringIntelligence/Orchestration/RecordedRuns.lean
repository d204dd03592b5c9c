import EngineeringIntelligence.Orchestration.RecordedEvents
import EngineeringIntelligence.State.StoreAgreement

namespace EngineeringIntelligence.Orchestration

open EngineeringIntelligence.Framework EngineeringIntelligence.State

/-! Whatever way a remediation workflow takes and however its attempts overlap, the state
store takes the lifecycle events it is sent. -/

/-! ### State stores -/

/-- A state store that answers as the journal does. -/
structure KeepsJournal (sha256 key : String → String) (unique : Bool) (store : LifecycleStore)
    (Rep : store.Contents → List (WorkflowLifecycleEvent × WorkflowRecord) → Prop) : Prop where
  empty : Rep store.empty []
  applied : ∀ {contents j}, Rep contents j → ∀ e,
    Rep (store.applyWorkflowEvent contents e).1 (journalApply sha256 key unique j e).1 ∧
      (store.applyWorkflowEvent contents e).2 = (journalApply sha256 key unique j e).2
  read : ∀ {contents j}, Rep contents j → ∀ w,
    store.getWorkflow contents w = .ok ((lifecycleRules sha256 key).current j w)

theorem sqliteStore_keepsJournal (sha256 : String → String) :
    KeepsJournal sha256 id true (sqliteStore sha256) (State.Represents sha256) :=
  ⟨represents_empty, fun h e => applyWorkflowEvent_refines h e, fun h w => h.getWorkflow w⟩

theorem cosmosStore_keepsJournal (sha256 : String → String) :
    KeepsJournal sha256 (Cosmos.receiptId sha256) false (cosmosStore sha256)
      (Cosmos.Represents sha256) :=
  ⟨Cosmos.represents_empty, fun h e => Cosmos.applyWorkflowEvent_refines h e,
    fun h w => h.getWorkflow w⟩

/-! ### Phases -/

section
variable (sha256 key : String → String) (request : RemediationRequest)

/-- Where the course has to be when the workflow schedules an activity or waits. -/
def Ready (course : List (WorkflowLifecycleEvent × WorkflowRecord)) : WorkflowPhase → Prop
  | .collecting time => course = [] ∧ ∃ now : UtcTime, time = now.isoformat
  | .planning evidence time => request.validate = none ∧
      Stage sha256 key request course ["evidence"] (some (.received, evidence.workflowVersion)) ∧
      ∃ now : UtcTime, time = now.isoformat
  | .awaiting plan _ | .verifying plan _ | .authorizing plan _ | .rehearsing plan _ =>
      request.validate = none ∧ Waiting sha256 key request course plan
  | .executing plan _ time => request.validate = none ∧ Waiting sha256 key request course plan ∧
      ∃ now : UtcTime, time = now.isoformat
  | .recording plan outcome _ time => request.validate = none ∧
      Concluding sha256 key request course plan outcome ∧ ∃ now : UtcTime, time = now.isoformat
  | .finished _ | .failed _ | .stalled => True

/-- What the answer of an activity says about the course. -/
def Answers (course : List (WorkflowLifecycleEvent × WorkflowRecord)) :
    WorkflowPhase → ActivityAnswer → Prop
  | .collecting _, .evidence bundle => request.validate = none ∧
      Stage sha256 key request course ["evidence"] (some (.received, bundle.workflowVersion))
  | .planning evidence _, .plan plan => request.validate = none ∧
      Planning sha256 key request course evidence plan
  | .verifying plan _, _ | .authorizing plan _, _ | .rehearsing plan _, _ =>
      request.validate = none ∧ Waiting sha256 key request course plan
  | .executing plan _ _, .action outcome => request.validate = none ∧
      Concluding sha256 key request course plan outcome
  | _, _ => True

end

section
variable {sha256 key : String → String} {request : RemediationRequest} {now : UtcTime}
  {course : List (WorkflowLifecycleEvent × WorkflowRecord)} {phase after : WorkflowPhase}
  {plan : RemediationPlanResult} {steps : List WorkflowStep}

/-- A decision to escalate may follow the status it is recorded from. -/
theorem escalated_allowed {decision : StepDecision} (h : decision.terminalStatus = "escalate")
    {status : WorkflowStatus} (hstatus : .escalated ∈ allowedTransitions (some status))
    (fromStatus : String) (version : Int) :
    (terminalStatusForAction (decision.outcome fromStatus version)).workflowStatus ∈
      allowedTransitions (some status) := by
  have hterminal : (terminalStatusForAction (decision.outcome fromStatus version)).workflowStatus =
      .escalated := by
    simp [terminalStatusForAction, StepDecision.outcome, h, TerminalStatus.workflowStatus]
  rw [hterminal]
  exact hstatus

theorem Waiting.concluding (h : Waiting sha256 key request course plan) {decision : StepDecision}
    (hterminal : (terminalStatusForAction (decision.outcome "waiting_approval"
      plan.workflowVersion)).workflowStatus ∈ allowedTransitions (some .waitingApproval)) :
    Concluding sha256 key request course plan
      (decision.outcome "waiting_approval" plan.workflowVersion) :=
  ⟨⟨waitingSteps, .waitingApproval, h.stage, by decide, WorkflowStatus.ofValue_value .waitingApproval,
    hterminal⟩, h.planHash⟩

theorem ready_of_wait (h : WaitMove request now plan after steps) (hrequest : request.validate = none)
    (hplan : Waiting sha256 key request course plan) : Ready sha256 key request course after := by
  cases h with
  | stalled => trivial
  | waiting => exact ⟨hrequest, hplan⟩
  | found _ => exact ⟨hrequest, hplan⟩
  | expired =>
    exact ⟨hrequest, hplan.concluding (escalated_allowed rfl (by decide) _ _), now, rfl⟩

theorem terminal_of_unplanned (h : (decideAfterPlan plan).proceed = false) :
    (decideAfterPlan plan).terminalStatus = "escalate" := by
  unfold decideAfterPlan at h ⊢
  split
  · rfl
  · next hgo =>
    rw [if_neg hgo] at h
    cases h

theorem terminal_of_unverified {verification : ApprovalVerification}
    (h : (decideAfterApproval verification).proceed = false) :
    (decideAfterApproval verification).terminalStatus = "escalate" := by
  unfold decideAfterApproval at h ⊢
  split
  · rfl
  · next hgo =>
    rw [if_neg hgo] at h
    cases h

theorem terminal_of_unrehearsed {rehearsal : RehearsalVerdict}
    (h : (decideAfterRehearsal rehearsal).proceed = false) :
    (decideAfterRehearsal rehearsal).terminalStatus = "escalate" := by
  unfold decideAfterRehearsal at h ⊢
  split
  · rfl
  · next hgo =>
    rw [if_neg hgo] at h
    cases h

theorem denied_allowed {verdict : PolicyVerdict} (h : (decideAfterPolicy verdict).proceed = false)
    (version : Int) :
    (terminalStatusForAction ((decideAfterPolicy verdict).outcome "waiting_approval"
      version)).workflowStatus ∈ allowedTransitions (some .waitingApproval) := by
  have hterminal : (decideAfterPolicy verdict).terminalStatus = "denied" := by
    unfold decideAfterPolicy at h ⊢
    split
    · rfl
    · next hgo =>
      rw [if_neg hgo] at h
      cases h
  simp [terminalStatusForAction, StepDecision.outcome, hterminal, TerminalStatus.workflowStatus,
    allowedTransitions]

/-- An answered activity leaves the course where the next phase needs it. -/
theorem ready_of_answer {answer : ActivityAnswer}
    (h : PhaseMove request now phase after (.answered answer :: steps))
    (hanswer : Answers sha256 key request course phase answer) :
    Ready sha256 key request course after := by
  generalize hsteps : WorkflowStep.answered answer :: steps = all at h
  cases h with
  | stay => cases hsteps
  | fail _ => cases hsteps
  | collected =>
    cases hsteps
    exact ⟨hanswer.1, hanswer.2, now, rfl⟩
  | unplanned hstop =>
    cases hsteps
    obtain ⟨hrequest, hplanning⟩ := hanswer
    refine ⟨hrequest, ⟨⟨["evidence"], .received, hplanning.unplanned hstop, by decide,
      WorkflowStatus.ofValue_value .received, ?_⟩, hplanning.planHash⟩, now, rfl⟩
    exact escalated_allowed (terminal_of_unplanned hstop) (by decide) _ _
  | planned hgo hwait =>
    cases hsteps
    exact ready_of_wait hwait hanswer.1 (hanswer.2.planned hgo)
  | woken hwait => cases hwait <;> cases hsteps
  | unverified hstop =>
    cases hsteps
    exact ⟨hanswer.1, hanswer.2.concluding
      (escalated_allowed (terminal_of_unverified hstop) (by decide) _ _), now, rfl⟩
  | verified _ =>
    cases hsteps
    exact hanswer
  | denied hstop =>
    cases hsteps
    exact ⟨hanswer.1, hanswer.2.concluding (denied_allowed hstop _), now, rfl⟩
  | allowed _ =>
    cases hsteps
    exact hanswer
  | blocked hstop =>
    cases hsteps
    exact ⟨hanswer.1, hanswer.2.concluding
      (escalated_allowed (terminal_of_unrehearsed hstop) (by decide) _ _), now, rfl⟩
  | rehearsed _ =>
    cases hsteps
    exact ⟨hanswer.1, hanswer.2, now, rfl⟩
  | acted =>
    cases hsteps
    exact ⟨hanswer.1, hanswer.2, now, rfl⟩
  | concluded => trivial

end

/-! ### Attempts -/

/-- The evidence that is read has these ids. -/
def Encounter.Reads (ids : List String) (met : Encounter) : Prop :=
  ∀ events, met.evidence = .ok events → events.map (·.1) = ids

/-- An attempt at an activity, if it collects evidence, has read these ids. -/
def Steady (ids : List String) (call : ActivityCall) (met : Encounter) : Prop :=
  ∀ time, call = .collectEvidence time → met.Reads ids

section
variable {sha256 key : String → String} {request : RemediationRequest}
  {course : List (WorkflowLifecycleEvent × WorkflowRecord)} {phase : WorkflowPhase}
  {call : ActivityCall} {environ : String → Option String}
  {analyze : String → List Json → Except ActivityError (List IncidentHypothesis)}

theorem plays_answer {α : Type} {result : Except ActivityError α} {f : α → ActivityAnswer}
    {Good : ActivityAnswer → Prop} (h : ∀ answer, Good answer) :
    Plays course Good course.length (.finish (result.map f)) := by
  cases result with
  | error x => exact plays_error x
  | ok a => exact plays_finish rfl (h (f a))

/-- The attempts at an activity play one continuation of the course, a mutation's single
attempt one that depends on how it goes. -/
theorem ready_plays (hdigest : ∀ text, HexDigest (sha256 text)) (hkeys : DistinctKeys key request)
    (hcourse : (lifecycleRules sha256 key).Course request.workflowId course)
    (h : Ready sha256 key request course phase) (hcall : phase.call = some call) (ids : List String)
    (first : Encounter) :
    ∃ longer, course <+: longer ∧ (lifecycleRules sha256 key).Course request.workflowId longer ∧
      ∀ met, (call.maximumAttempts = 1 → met = first) → Steady ids call met →
        Plays longer (Answers sha256 key request longer phase) course.length
          (call.script sha256 (remediationSetup environ analyze) request met) := by
  cases phase with
  | collecting time =>
    cases hcall
    obtain ⟨rfl, now, rfl⟩ := h
    by_cases hrequest : request.validate = none
    · obtain ⟨longer, hstage, hplays⟩ := collectEvidence_plays hrequest hkeys ids now
      refine ⟨longer, List.nil_prefix, hstage.lawful, ?_⟩
      intro met _ hsteady
      have hread : Plays longer (fun bundle => bundle.workflowVersion = 1) 0
          (collectEvidence (remediationSetup environ analyze) request met.evidence now.isoformat) :=
        hplays met.evidence (hsteady now.isoformat rfl)
      have hanswers : ∀ bundle : EvidenceBundle, bundle.workflowVersion = 1 →
          Answers sha256 key request longer (.collecting now.isoformat) (.evidence bundle) := by
        intro bundle hversion
        refine ⟨hrequest, ?_⟩
        rw [hversion]
        exact hstage
      rw [ActivityCall.script]
      exact hread.map hanswers
    · -- an invalid request is refused before anything is written
      refine ⟨[], List.prefix_refl _, hcourse, ?_⟩
      intro met _ _
      obtain ⟨message, hmessage⟩ := Option.ne_none_iff_exists'.mp hrequest
      have hscript : Plays [] (fun _ : EvidenceBundle => False) 0
          (collectEvidence (remediationSetup environ analyze) request met.evidence now.isoformat) := by
        apply plays_checked
        intro _ _
        apply plays_checked
        intro u hu
        rw [validRequest, hmessage] at hu
        cases hu
      rw [ActivityCall.script]
      exact hscript.map fun _ hfalse => hfalse.elim
  | planning evidence time =>
    cases hcall
    obtain ⟨hrequest, hstage, now, rfl⟩ := h
    obtain ⟨longer, hprefix, hlonger, hplays⟩ := planRemediation_plays hdigest hrequest hkeys hstage now
    refine ⟨longer, hprefix, hlonger, ?_⟩
    intro met _ _
    rw [ActivityCall.script]
    exact hplays.map fun _ hplan => ⟨hrequest, hplan⟩
  | awaiting plan deadline => cases hcall
  | verifying plan signal =>
    cases hcall
    exact ⟨course, List.prefix_refl _, hcourse, fun _ _ _ => plays_answer fun _ => h⟩
  | authorizing plan approver =>
    cases hcall
    exact ⟨course, List.prefix_refl _, hcourse, fun _ _ _ => plays_answer fun _ => h⟩
  | rehearsing plan approver =>
    cases hcall
    exact ⟨course, List.prefix_refl _, hcourse, fun _ _ _ => plays_answer fun _ => h⟩
  | executing plan approver time =>
    cases hcall
    obtain ⟨hrequest, hwaiting, now, rfl⟩ := h
    obtain ⟨longer, hprefix, hlonger, hplays⟩ :=
      executeAction_plays hrequest hkeys hwaiting first.execution now
    refine ⟨longer, hprefix, hlonger, ?_⟩
    intro met hfirst _
    rw [hfirst rfl, ActivityCall.script]
    exact hplays.map fun _ houtcome => ⟨hrequest, houtcome⟩
  | recording plan outcome approver time =>
    cases hcall
    obtain ⟨hrequest, hconcluding, now, rfl⟩ := h
    obtain ⟨longer, hprefix, hlonger, hplays⟩ := recordOutcome_plays hrequest hkeys hconcluding approver now
    refine ⟨longer, hprefix, hlonger, ?_⟩
    intro met _ _
    rw [ActivityCall.script]
    exact hplays.map fun _ _ => trivial
  | finished result => cases hcall
  | failed error => cases hcall
  | stalled => cases hcall

/-- An attempt that has read other evidence has a call to make before it returns. -/
theorem script_of_unsteady {ids : List String} {met : Encounter} (h : ¬ Steady ids call met)
    (setup : ActivitySetup) (answer : ActivityAnswer) :
    call.script sha256 setup request met ≠ .finish (.ok answer) := by
  unfold Steady at h
  push Not at h
  obtain ⟨time, rfl, -⟩ := h
  rw [ActivityCall.script]
  unfold collectEvidence checked Orchestration.advance checked
  intro hreturned
  split at hreturned
  · cases hreturned
  split at hreturned
  · cases hreturned
  split at hreturned
  · cases hreturned
  split at hreturned
  · cases hreturned
  cases hreturned

end

/-! ### Runs -/

/-- Nobody else writes to the workflow, and the attempts at collecting evidence that get
through to the state store have read evidence of the same ids. -/
def Undisturbed (request : RemediationRequest) (ids : List String) {store : LifecycleStore}
    (s : RemediationRun store) : RunMove → Prop
  | .exchange i (.sent _) => ∀ a c next, s.started[i]? = some a → a.script = .call c next →
      Steady ids a.call a.met
  | .elsewhere event => event.workflowId ≠ request.workflowId
  | _ => True

/-- A lifecycle event that the state store takes: it repeats one that is stored, or it is an
allowed transition from the current record at its version. -/
structure Taken (submission : Submission) (result : WorkflowTransitionResult) : Prop where
  answer : submission.answer = .ok result
  current : result.replayed = true ∨ ∃ current, submission.current = .ok current ∧
    submission.event.fromStatus = current.map (·.status) ∧
    submission.event.expectedVersion = current.map (·.version) ∧
    submission.event.toStatus ∈ allowedTransitions (current.map (·.status))

section
variable (sha256 key : String → String) (request : RemediationRequest)
  (environ : String → Option String)
  (analyze : String → List Json → Except ActivityError (List IncidentHypothesis))
  (ids : List String)

/-- An attempt that plays the course, or one at collecting evidence that has read something
else and got nowhere yet. -/
structure AttemptOnCourse (historyLength : Nat) (phase : WorkflowPhase)
    (course : List (WorkflowLifecycleEvent × WorkflowRecord)) (n : Nat) (a : StartedAttempt) :
    Prop where
  scheduled : a.scheduledAt ≤ historyLength
  plays : (∃ k ≤ n, Follows LifecycleCall.event RepliesWith course
      (fun k result => a.scheduledAt = historyLength →
        Ends course (Answers sha256 key request course phase) k result) k a.script) ∨
    (¬ Steady ids a.call a.met ∧ ∀ answer, a.script ≠ .finish (.ok answer))

/-- The state store has the first `n` events of the course, and the workflow and all attempts
are somewhere on it. -/
structure OnCourse {store : LifecycleStore}
    (Rep : store.Contents → List (WorkflowLifecycleEvent × WorkflowRecord) → Prop)
    (s : RemediationRun store) (j course : List (WorkflowLifecycleEvent × WorkflowRecord)) (n : Nat) :
    Prop where
  journal : Rep s.contents j
  entries : (lifecycleRules sha256 key).entries j request.workflowId = course.take n
  bound : n ≤ course.length
  lawful : (lifecycleRules sha256 key).Course request.workflowId course
  fresh : s.attempts = 0 → n = course.length ∧ Ready sha256 key request course s.workflow.phase
  retried : ∀ call, s.workflow.phase.call = some call → 0 < s.attempts →
    s.attempts < call.maximumAttempts → ∃ k ≤ n, ∀ met, Steady ids call met →
      Plays course (Answers sha256 key request course s.workflow.phase) k
        (call.script sha256 (remediationSetup environ analyze) request met)
  idle : ∀ plan deadline, s.workflow.phase = .awaiting plan deadline → s.attempts = 0
  earlier : s.attempts = 0 → ∀ a ∈ s.started, a.scheduledAt < s.trace.length
  started : ∀ a ∈ s.started, AttemptOnCourse sha256 key request ids s.trace.length s.workflow.phase
    course n a

end

section
variable {sha256 key : String → String} {request : RemediationRequest}
  {environ : String → Option String}
  {analyze : String → List Json → Except ActivityError (List IncidentHypothesis)}
  {ids : List String} {store : LifecycleStore}
  {Rep : store.Contents → List (WorkflowLifecycleEvent × WorkflowRecord) → Prop}
  {s : RemediationRun store} {j course : List (WorkflowLifecycleEvent × WorkflowRecord)} {n : Nat}

theorem AttemptOnCourse.mono {historyLength historyLength' n' : Nat} {phase phase' : WorkflowPhase}
    {course' : List (WorkflowLifecycleEvent × WorkflowRecord)} {a : StartedAttempt}
    (h : AttemptOnCourse sha256 key request ids historyLength phase course n a)
    (hlength : historyLength ≤ historyLength') (hn : n ≤ n') (hcourse : course <+: course')
    (hends : a.scheduledAt = historyLength' → historyLength = historyLength' ∧ course = course' ∧
      ∀ answer, Answers sha256 key request course phase answer →
        Answers sha256 key request course phase' answer) :
    AttemptOnCourse sha256 key request ids historyLength' phase' course' n' a := by
  refine ⟨h.scheduled.trans hlength, ?_⟩
  rcases h.plays with ⟨k, hk, hfollows⟩ | hstray
  · refine Or.inl ⟨k, hk.trans hn, hfollows.mono hcourse ?_⟩
    intro k result hresult hscheduled answer hanswer
    obtain ⟨rfl, rfl, hgood⟩ := hends hscheduled
    obtain ⟨hend, hans⟩ := hresult hscheduled answer hanswer
    exact ⟨hend, hgood answer hans⟩
  · exact Or.inr hstray

/-- The workflow takes a step that is recorded in its history. -/
theorem OnCourse.advanced (h : OnCourse sha256 key request environ analyze ids Rep s j course n)
    {workflow : WorkflowState} {steps : List WorkflowStep} (hsteps : steps ≠ [])
    (hn : n = course.length) (hready : Ready sha256 key request course workflow.phase) :
    OnCourse sha256 key request environ analyze ids Rep
      { s with workflow := workflow, trace := s.trace ++ steps, attempts := 0 } j course n := by
  have hlonger : s.trace.length < (s.trace ++ steps).length := by
    have hpositive := List.length_pos_iff.mpr hsteps
    rw [List.length_append]
    omega
  refine ⟨h.journal, h.entries, h.bound, h.lawful, fun _ => ⟨hn, hready⟩, ?_, fun _ _ _ => rfl, ?_, ?_⟩
  · intro call _ hattempts
    exact absurd hattempts (Nat.lt_irrefl 0)
  · intro _ a ha
    exact (h.started a ha).scheduled.trans_lt hlonger
  · intro a ha
    have hattempt := h.started a ha
    refine hattempt.mono hlonger.le (Nat.le_refl n) (List.prefix_refl course) ?_
    intro hscheduled
    have hlast : a.scheduledAt = (s.trace ++ steps).length := hscheduled
    have hearlier := hattempt.scheduled
    omega

/-- The workflow changes without a step, and waits for no activity then. -/
theorem OnCourse.halted (h : OnCourse sha256 key request environ analyze ids Rep s j course n)
    {workflow : WorkflowState} (hcall : workflow.phase.call = none)
    (hanswers : ∀ answer, Answers sha256 key request course workflow.phase answer)
    (hready : s.attempts = 0 → Ready sha256 key request course workflow.phase)
    (hidle : ∀ plan deadline, workflow.phase = .awaiting plan deadline → s.attempts = 0) :
    OnCourse sha256 key request environ analyze ids Rep { s with workflow := workflow } j course n := by
  refine ⟨h.journal, h.entries, h.bound, h.lawful, ?_, ?_, hidle, h.earlier, ?_⟩
  · intro hattempts
    exact ⟨(h.fresh hattempts).1, hready hattempts⟩
  · intro call hsome
    rw [hcall] at hsome
    cases hsome
  · intro a ha
    exact (h.started a ha).mono (Nat.le_refl _) (Nat.le_refl n) (List.prefix_refl course)
      fun _ => ⟨rfl, rfl, fun answer _ => hanswers answer⟩

/-- New signals while the workflow waits for an activity change nothing. -/
theorem OnCourse.queued (h : OnCourse sha256 key request environ analyze ids Rep s j course n)
    {workflow : WorkflowState} (hphase : workflow.phase = s.workflow.phase) :
    OnCourse sha256 key request environ analyze ids Rep { s with workflow := workflow } j course n := by
  refine ⟨h.journal, h.entries, h.bound, h.lawful, ?_, ?_, ?_, h.earlier, ?_⟩
  all_goals dsimp only
  · rw [hphase]
    exact h.fresh
  · rw [hphase]
    exact h.retried
  · rw [hphase]
    exact h.idle
  · rw [hphase]
    exact h.started

theorem activate_unchanged {input : UtcTime × WorkflowInput} {workflow : WorkflowState}
    (h : s.workflow.step request input = (workflow, [])) :
    s.activate request input = { s with workflow := workflow } := by
  unfold RemediationRun.activate
  rw [h]
  dsimp only [List.isEmpty_nil]
  rw [List.append_nil, if_pos rfl]

theorem activate_advanced {input : UtcTime × WorkflowInput} {workflow : WorkflowState}
    {steps : List WorkflowStep} (h : s.workflow.step request input = (workflow, steps))
    (hsteps : steps ≠ []) : s.activate request input =
      { s with workflow := workflow, trace := s.trace ++ steps, attempts := 0 } := by
  unfold RemediationRun.activate
  rw [h]
  dsimp only
  rw [if_neg (by simpa using hsteps)]

/-- Signals move the workflow only while it waits for them. -/
theorem OnCourse.woken (h : OnCourse sha256 key request environ analyze ids Rep s j course n)
    (now : UtcTime) (batch : List RemediationApprovalSignal) :
    OnCourse sha256 key request environ analyze ids Rep
      (s.activate request (now, .wake batch)) j course n := by
  by_cases hwaiting : ∃ plan deadline, s.workflow.phase = .awaiting plan deadline
  · obtain ⟨plan, deadline, hphase⟩ := hwaiting
    have hidle := h.idle plan deadline hphase
    obtain ⟨hn, hready⟩ := h.fresh hidle
    rw [hphase] at hready
    obtain ⟨queued, hqueued⟩ : ∃ queued : WorkflowState,
        queued = { s.workflow with pending := s.workflow.pending ++ batch } := ⟨_, rfl⟩
    have hstep : s.workflow.step request (now, .wake batch) =
        queued.examine request now plan deadline := by
      unfold WorkflowState.step
      dsimp only
      split
      · next hphase' =>
        obtain ⟨rfl, rfl⟩ := WorkflowPhase.awaiting.inj (hphase.symm.trans hphase')
        rw [hqueued]
      · next hother => exact absurd hphase (hother plan deadline)
    have hmove : WaitMove request now plan (queued.examine request now plan deadline).1.phase
        (queued.examine request now plan deadline).2 := examine_move queued plan deadline
    have hnext := ready_of_wait hmove hready.1 hready.2
    by_cases hsteps : (queued.examine request now plan deadline).2 = []
    · rw [activate_unchanged (hstep.trans (Prod.ext rfl hsteps))]
      refine h.halted ?_ ?_ (fun _ => hnext) (fun _ _ _ => hidle)
      · rw [hsteps] at hmove
        generalize (queued.examine request now plan deadline).1.phase = phase at hmove
        cases hmove <;> rfl
      · rw [hsteps] at hmove
        generalize (queued.examine request now plan deadline).1.phase = phase at hmove
        cases hmove <;> intro answer <;> trivial
    · rw [activate_advanced hstep hsteps]
      exact h.advanced hsteps hn hnext
  · have hstep : s.workflow.step request (now, .wake batch) =
        ({ s.workflow with pending := s.workflow.pending ++ batch }, []) := by
      unfold WorkflowState.step
      dsimp only
      split
      · next plan deadline hphase => exact absurd ⟨plan, deadline, hphase⟩ hwaiting
      · rfl
    rw [activate_unchanged hstep]
    exact h.queued rfl

theorem OnCourse.abandoned (h : OnCourse sha256 key request environ analyze ids Rep s j course n)
    (now : UtcTime) (error : ActivityError) :
    OnCourse sha256 key request environ analyze ids Rep
      (s.activate request (now, .failure error)) j course n := by
  by_cases hcall : s.workflow.phase.call.isSome = true
  · have hstep : s.workflow.step request (now, .failure error) =
        ({ s.workflow with phase := .failed error }, []) := by
      unfold WorkflowState.step
      dsimp only
      rw [if_pos hcall]
    rw [activate_unchanged hstep]
    refine h.halted rfl (fun answer => ?_) (fun _ => trivial) (fun _ _ hphase => ?_)
    · trivial
    · cases hphase
  · have hstep : s.workflow.step request (now, .failure error) = (s.workflow, []) := by
      unfold WorkflowState.step
      dsimp only
      rw [if_neg hcall]
    rw [activate_unchanged hstep]
    exact h.queued rfl

/-- The answer of an attempt that the workflow still waits for. -/
theorem OnCourse.reported (h : OnCourse sha256 key request environ analyze ids Rep s j course n)
    (i : Nat) (now : UtcTime) :
    OnCourse sha256 key request environ analyze ids Rep (s.report request i now) j course n := by
  unfold RemediationRun.report
  split
  · next scheduledAt call met answer hi =>
    split
    · next hcurrent =>
      have hattempt := h.started _ (List.mem_of_getElem? hi)
      -- an attempt that has returned has played to the end of the course
      have hreturned : n = course.length ∧
          Answers sha256 key request course s.workflow.phase answer := by
        rcases hattempt.plays with ⟨k, hk, hfollows⟩ | ⟨-, hunreturned⟩
        · cases hfollows with
          | finish hdone =>
            obtain ⟨hend, hanswers⟩ := hdone hcurrent answer rfl
            have hbound := h.bound
            exact ⟨by omega, hanswers⟩
        · exact absurd rfl (hunreturned answer)
      cases hproceed : s.workflow.proceed request now answer with
      | none =>
        have hstep : s.workflow.step request (now, .answer answer) = (s.workflow, []) := by
          unfold WorkflowState.step
          dsimp only
          rw [hproceed]
        rw [activate_unchanged hstep]
        exact h.queued rfl
      | some next =>
        obtain ⟨workflow, steps⟩ := next
        have hstep : s.workflow.step request (now, .answer answer) =
            (workflow, .answered answer :: steps) := by
          unfold WorkflowState.step
          dsimp only
          rw [hproceed]
        have hnext := ready_of_answer (proceed_move hproceed) hreturned.2
        rw [activate_advanced hstep (List.cons_ne_nil _ _)]
        exact h.advanced (List.cons_ne_nil _ _) hreturned.1 hnext
    · exact h
  · exact h

/-- An attempt is started on the course that its activity continues. -/
theorem OnCourse.begun (hdigest : ∀ text, HexDigest (sha256 text)) (hkeys : DistinctKeys key request)
    (h : OnCourse sha256 key request environ analyze ids Rep s j course n) (met : Encounter) :
    ∃ longer, OnCourse sha256 key request environ analyze ids Rep
      (s.start sha256 (remediationSetup environ analyze) request met) j longer n := by
  unfold RemediationRun.start
  cases hcall : s.workflow.phase.call with
  | none => exact ⟨course, h⟩
  | some call =>
    dsimp only
    split
    · next hattempts =>
      -- the course that the new attempt and those after it are on
      obtain ⟨longer, k, hprefix, hlawful, hk, hfirst, hretried, hsame⟩ : ∃ longer k, course <+: longer ∧
          (lifecycleRules sha256 key).Course request.workflowId longer ∧ k ≤ n ∧
          (Steady ids call met → Plays longer (Answers sha256 key request longer s.workflow.phase) k
            (call.script sha256 (remediationSetup environ analyze) request met)) ∧
          (s.attempts + 1 < call.maximumAttempts → ∀ met', Steady ids call met' →
            Plays longer (Answers sha256 key request longer s.workflow.phase) k
              (call.script sha256 (remediationSetup environ analyze) request met')) ∧
          (course ≠ longer → s.attempts = 0) := by
        rcases Nat.eq_zero_or_pos s.attempts with hzero | hpositive
        · obtain ⟨hn, hready⟩ := h.fresh hzero
          obtain ⟨longer, hprefix, hlawful, hplays⟩ :=
            ready_plays hdigest hkeys h.lawful hready hcall ids met
          refine ⟨longer, course.length, hprefix, hlawful, hn.ge, hplays met (fun _ => rfl), ?_,
            fun _ => hzero⟩
          intro hmore met' hsteady
          exact hplays met' (fun hone => by omega) hsteady
        · obtain ⟨k, hk, hplays⟩ := h.retried call hcall hpositive hattempts
          exact ⟨course, k, List.prefix_refl course, h.lawful, hk, hplays met, fun _ => hplays,
            fun hne => absurd rfl hne⟩
      refine ⟨longer, h.journal, ?_, h.bound.trans hprefix.length_le, hlawful, ?_, ?_, ?_, ?_, ?_⟩
      · rw [h.entries, List.prefix_iff_eq_take.mp hprefix, List.take_take, Nat.min_eq_left h.bound]
      · intro hzero
        cases hzero
      · intro call' hcall' _ hmore
        obtain rfl := Option.some.inj (hcall.symm.trans hcall')
        exact ⟨k, hk, hretried hmore⟩
      · intro plan deadline hphase
        rw [hphase] at hcall
        cases hcall
      · intro hzero
        cases hzero
      · intro a ha
        rcases List.mem_append.mp ha with ha | ha
        · refine (h.started a ha).mono (Nat.le_refl _) (Nat.le_refl n) hprefix ?_
          intro hscheduled
          have hunchanged : course = longer := by
            by_contra hne
            have hearlier := h.earlier (hsame hne) a ha
            exact absurd hscheduled (Nat.ne_of_lt hearlier)
          exact ⟨rfl, hunchanged, fun answer hanswer => hanswer⟩
        · rw [List.mem_singleton.mp ha]
          refine ⟨Nat.le_refl _, ?_⟩
          by_cases hsteady : Steady ids call met
          · refine Or.inl ⟨k, hk, Follows.mono (hfirst hsteady) (List.prefix_refl longer) ?_⟩
            intro _ _ hends _
            exact hends
          · -- only an attempt at collecting evidence can have read something else
            exact Or.inr ⟨hsteady, script_of_unsteady hsteady _⟩
    · exact ⟨course, h⟩

/-- One attempt goes on, and the state store with it. -/
theorem OnCourse.resumed (h : OnCourse sha256 key request environ analyze ids Rep s j course n)
    {i n' : Nat} {a : StartedAttempt} (hi : s.started[i]? = some a) {contents : store.Contents}
    {j' : List (WorkflowLifecycleEvent × WorkflowRecord)} (hjournal : Rep contents j')
    (hentries : (lifecycleRules sha256 key).entries j' request.workflowId = course.take n')
    (hn : n ≤ n') (hbound : n' ≤ course.length) {script : ActivityScript ActivityAnswer}
    (hscript : AttemptOnCourse sha256 key request ids s.trace.length s.workflow.phase course n'
      { a with script := script }) :
    OnCourse sha256 key request environ analyze ids Rep
      (RemediationRun.resume { s with contents := contents } i a script) j' course n' := by
  have hothers : ∀ b ∈ s.started.set i { a with script := script },
      b = { a with script := script } ∨ b ∈ s.started := by
    intro b hb
    exact (List.mem_or_eq_of_mem_set hb).symm
  refine ⟨hjournal, hentries, hbound, h.lawful, ?_, ?_, h.idle, ?_, ?_⟩
  · intro hzero
    obtain ⟨hlength, hready⟩ := h.fresh hzero
    exact ⟨by omega, hready⟩
  · intro call hcall hpositive hmore
    obtain ⟨k, hk, hplays⟩ := h.retried call hcall hpositive hmore
    exact ⟨k, hk.trans hn, hplays⟩
  · intro hzero b hb
    rcases hothers b hb with rfl | hb
    · exact h.earlier hzero a (List.mem_of_getElem? hi)
    · exact h.earlier hzero b hb
  · intro b hb
    rcases hothers b hb with rfl | hb
    · exact hscript
    · exact (h.started b hb).mono (Nat.le_refl _) hn (List.prefix_refl course)
        fun _ => ⟨rfl, rfl, fun _ hanswer => hanswer⟩

/-- An attempt that ends with an exception is of no further consequence. -/
theorem AttemptOnCourse.raised {historyLength : Nat} {phase : WorkflowPhase} {a : StartedAttempt}
    (h : AttemptOnCourse sha256 key request ids historyLength phase course n a) (x : ActivityError)
    (n' : Nat) : AttemptOnCourse sha256 key request ids historyLength phase course n'
      { a with script := .finish (.error x) } := by
  refine ⟨h.scheduled, Or.inl ⟨0, Nat.zero_le _, .finish ?_⟩⟩
  intro _ answer hanswer
  cases hanswer

/-- What the state store does with an event at a position of the course it has reached. -/
theorem OnCourse.applied {unique : Bool} (hstore : KeepsJournal sha256 key unique store Rep)
    (h : OnCourse sha256 key request environ analyze ids Rep s j course n) {k : Nat}
    {e : WorkflowLifecycleEvent} {r : WorkflowRecord} (hk : course[k]? = some (e, r)) (hle : k ≤ n) :
    ∃ result j' n', result.record = r ∧
      Taken ⟨e, store.getWorkflow s.contents e.workflowId, (store.applyWorkflowEvent s.contents e).2⟩
        result ∧
      Rep (store.applyWorkflowEvent s.contents e).1 j' ∧
      (lifecycleRules sha256 key).entries j' request.workflowId = course.take n' ∧
      n ≤ n' ∧ k < n' ∧ n' ≤ course.length := by
  have hadvance : State.advance ((course.take k).getLast?.map Prod.snd) e = .ok r :=
    h.lawful.advances k e r hk
  have hvalid : e.validate = none := (advance_ok hadvance).valid
  have hstream : e.workflowId = request.workflowId := h.lawful.stream (e, r) (List.mem_of_getElem? hk)
  have hlength := (List.getElem?_eq_some_iff.mp hk).1
  obtain ⟨hrep, hanswer⟩ := hstore.applied h.journal e
  unfold journalApply at hrep hanswer
  rw [hvalid] at hrep hanswer
  dsimp only at hrep hanswer
  rcases Nat.lt_or_eq_of_le hle with hlt | rfl
  · rw [h.lawful.submit_again h.entries hk hlt] at hrep hanswer
    exact ⟨_, j, n, rfl, ⟨hanswer, Or.inl rfl⟩, hrep, h.entries, Nat.le_refl n, hlt, h.bound⟩
  · obtain ⟨hsubmit, hentries⟩ : (lifecycleRules sha256 key).submit unique j e =
        (j ++ [(e, r)], .accepted r) ∧
        (lifecycleRules sha256 key).entries (j ++ [(e, r)]) request.workflowId =
          course.take (k + 1) := h.lawful.submit_next h.entries hk
    rw [hsubmit] at hrep hanswer
    have hcurrent : (lifecycleRules sha256 key).current j e.workflowId =
        (course.take k).getLast?.map Prod.snd := by
      rw [JournalRules.current, hstream, h.entries]
    have hread := hstore.read h.journal e.workflowId
    rw [hcurrent] at hread
    obtain ⟨hfrom, hexpected⟩ := matches_of_advance hadvance
    have hallowed := toStatus_mem_of_validate hvalid
    rw [hfrom] at hallowed
    exact ⟨_, _, k + 1, rfl, ⟨hanswer, Or.inr ⟨_, hread, hfrom, hexpected, hallowed⟩⟩, hrep, hentries,
      Nat.le_succ k, Nat.lt_succ_self k, hlength⟩

theorem OnCourse.exchanged {unique : Bool} (hstore : KeepsJournal sha256 key unique store Rep)
    (h : OnCourse sha256 key request environ analyze ids Rep s j course n) {i : Nat}
    {sending : BridgeCourse} (hok : Undisturbed request ids s (.exchange i sending)) :
    (∃ j' n', OnCourse sha256 key request environ analyze ids Rep (s.exchange i sending).1 j' course n') ∧
      ∀ submission, (s.exchange i sending).2 = some submission → ∃ result, Taken submission result := by
  unfold RemediationRun.exchange
  cases hi : s.started[i]? with
  | none => exact ⟨⟨j, n, h⟩, by intro _ hnone; cases hnone⟩
  | some a =>
    have hattempt := h.started a (List.mem_of_getElem? hi)
    dsimp only
    cases hscript : a.script with
    | finish result => exact ⟨⟨j, n, h⟩, by intro _ hnone; cases hnone⟩
    | call c next =>
      cases sending with
      | unsent =>
        refine ⟨⟨j, n, ?_⟩, by intro _ hnone; cases hnone⟩
        exact h.resumed hi h.journal h.entries (Nat.le_refl n) h.bound (hattempt.raised _ n)
      | sent exported =>
        have hsteady : Steady ids a.call a.met := hok a c next hi hscript
        rcases hattempt.plays with ⟨k, hk, hfollows⟩ | ⟨hstray, -⟩
        · rw [hscript] at hfollows
          cases hfollows with
          | @call _ _ r _ hposition hnext =>
            obtain ⟨result, j', n', hrecord, htaken, hrep, hentries, hn, hreached, hbound⟩ :=
              h.applied hstore hposition hk
            have hanswer := htaken.answer
            dsimp only at hanswer ⊢
            rw [hanswer]
            dsimp only
            cases hconclude : conclude c.event result exported with
            | error x =>
              refine ⟨⟨j', n', h.resumed hi hrep hentries hn hbound (hattempt.raised _ n')⟩, ?_⟩
              intro submission hsubmission
              rw [← Option.some.inj hsubmission]
              exact ⟨result, rfl, htaken.current⟩
            | ok answer =>
              have hversion : answer.workflowVersion = r.version := by
                rw [← hrecord]
                unfold conclude at hconclude
                split at hconclude
                · cases hconclude
                · split at hconclude
                  · rw [← Except.ok.inj hconclude]
                  · cases hconclude
              refine ⟨⟨j', n', h.resumed hi hrep hentries hn hbound
                ⟨hattempt.scheduled, Or.inl ⟨k + 1, hreached, hnext answer hversion⟩⟩⟩, ?_⟩
              intro submission hsubmission
              rw [← Option.some.inj hsubmission]
              exact ⟨result, rfl, htaken.current⟩
        · exact absurd hsteady hstray

/-- Events of other workflows leave the course alone. -/
theorem OnCourse.elsewhere {unique : Bool} (hstore : KeepsJournal sha256 key unique store Rep)
    (h : OnCourse sha256 key request environ analyze ids Rep s j course n)
    {e : WorkflowLifecycleEvent} (hother : e.workflowId ≠ request.workflowId) :
    OnCourse sha256 key request environ analyze ids Rep
      { s with contents := (store.applyWorkflowEvent s.contents e).1 }
      (journalApply sha256 key unique j e).1 course n := by
  refine ⟨(hstore.applied h.journal e).1, ?_, h.bound, h.lawful, h.fresh, h.retried, h.idle, h.earlier,
    h.started⟩
  unfold journalApply
  split
  · exact h.entries
  · rw [JournalRules.entries_submit_of_ne unique j hother]
    exact h.entries

theorem onCourse_initial {unique : Bool} (hstore : KeepsJournal sha256 key unique store Rep)
    (start : UtcTime) :
    OnCourse sha256 key request environ analyze ids Rep (.initial store start) [] [] 0 := by
  refine ⟨hstore.empty, rfl, Nat.le_refl 0, JournalRules.course_nil, fun _ => ⟨rfl, rfl, start, rfl⟩, ?_,
    ?_, ?_, ?_⟩
  · intro call _ hattempts
    exact absurd hattempts (Nat.lt_irrefl 0)
  · intro plan deadline hphase
    cases hphase
  · intro _ a ha
    cases ha
  · intro a ha
    cases ha

/-- In an undisturbed run, the state store takes every lifecycle event. -/
theorem submissions_taken {unique : Bool} (hstore : KeepsJournal sha256 key unique store Rep)
    (hdigest : ∀ text, HexDigest (sha256 text)) (hkeys : DistinctKeys key request) {start : UtcTime}
    {moves : List RunMove}
    (hok : Admissible (RemediationRun.step sha256 (remediationSetup environ analyze) request)
      (Undisturbed request ids) (.initial store start) moves) :
    ∀ answered ∈ history (RemediationRun.step sha256 (remediationSetup environ analyze) request)
      (.initial store start) moves,
      ∀ submission, answered.2 = some submission → ∃ result, Taken submission result := by
  refine history_guarded (RemediationRun.step sha256 (remediationSetup environ analyze) request)
    (P := fun s => ∃ j course n, OnCourse sha256 key request environ analyze ids Rep s j course n)
    (Q := fun answer => ∀ submission, answer = some submission → ∃ result, Taken submission result)
    ?_ ⟨[], [], 0, onCourse_initial hstore start⟩ hok
  rintro s move ⟨j, course, n, h⟩ hmove
  cases move with
  | start met =>
    obtain ⟨longer, hstarted⟩ := h.begun hdigest hkeys met
    exact ⟨⟨j, longer, n, hstarted⟩, by intro _ hnone; cases hnone⟩
  | exchange i sending =>
    obtain ⟨⟨j', n', hnext⟩, htaken⟩ := h.exchanged hstore hmove
    exact ⟨⟨j', course, n', hnext⟩, htaken⟩
  | report i now => exact ⟨⟨j, course, n, h.reported i now⟩, by intro _ hnone; cases hnone⟩
  | abandon now error => exact ⟨⟨j, course, n, h.abandoned now error⟩, by intro _ hnone; cases hnone⟩
  | wake now batch => exact ⟨⟨j, course, n, h.woken now batch⟩, by intro _ hnone; cases hnone⟩
  | elsewhere event =>
    exact ⟨⟨_, course, n, h.elsewhere hstore hmove⟩, by intro _ hnone; cases hnone⟩

end

/-- What an attempt meets is settled when it starts. -/
theorem met_of_started {store : LifecycleStore} {sha256 : String → String} {setup : ActivitySetup}
    {request : RemediationRequest} {s : RemediationRun store} {move : RunMove} {a : StartedAttempt}
    (ha : a ∈ (s.step sha256 setup request move).1.started) :
    (∃ b ∈ s.started, b.met = a.met) ∨ move = .start a.met := by
  have hresumed : ∀ (t : RemediationRun store) i b script, t.started = s.started →
      s.started[i]? = some b → a ∈ (t.resume i b script).started → ∃ b ∈ s.started, b.met = a.met := by
    intro t i b script hstarted hb ha
    rcases List.mem_or_eq_of_mem_set ha with ha | rfl
    · rw [hstarted] at ha
      exact ⟨a, ha, rfl⟩
    · exact ⟨b, List.mem_of_getElem? hb, rfl⟩
  cases move with
  | start met =>
    change a ∈ (s.start sha256 setup request met).started at ha
    unfold RemediationRun.start at ha
    split at ha
    · exact Or.inl ⟨a, ha, rfl⟩
    · split at ha
      · rcases List.mem_append.mp ha with ha | ha
        · exact Or.inl ⟨a, ha, rfl⟩
        · rw [List.mem_singleton.mp ha]
          exact Or.inr rfl
      · exact Or.inl ⟨a, ha, rfl⟩
  | exchange i sending =>
    change a ∈ (s.exchange i sending).1.started at ha
    unfold RemediationRun.exchange at ha
    cases hi : s.started[i]? with
    | none =>
      rw [hi] at ha
      exact Or.inl ⟨a, ha, rfl⟩
    | some b =>
      rw [hi] at ha
      dsimp only at ha
      split at ha
      · exact Or.inl ⟨a, ha, rfl⟩
      · exact Or.inl (hresumed _ i b _ rfl hi ha)
      · split at ha
        · exact Or.inl (hresumed _ i b _ rfl hi ha)
        · split at ha
          · exact Or.inl (hresumed _ i b _ rfl hi ha)
          · exact Or.inl (hresumed _ i b _ rfl hi ha)
  | report i now =>
    change a ∈ (s.report request i now).started at ha
    unfold RemediationRun.report at ha
    split at ha
    · split at ha <;> exact Or.inl ⟨a, ha, rfl⟩
    · exact Or.inl ⟨a, ha, rfl⟩
  | abandon now error => exact Or.inl ⟨a, ha, rfl⟩
  | wake now batch => exact Or.inl ⟨a, ha, rfl⟩
  | elsewhere event => exact Or.inl ⟨a, ha, rfl⟩

/-- A run in which all evidence that is read has the same ids is undisturbed. -/
theorem admissible_of_reads {store : LifecycleStore} {sha256 : String → String} {setup : ActivitySetup}
    {request : RemediationRequest} {ids : List String} {s : RemediationRun store} {moves : List RunMove}
    (hstarted : ∀ a ∈ s.started, a.met.Reads ids) (hreads : ∀ met, .start met ∈ moves → met.Reads ids)
    (helsewhere : ∀ e, .elsewhere e ∈ moves → e.workflowId ≠ request.workflowId) :
    Admissible (RemediationRun.step sha256 setup request) (Undisturbed request ids) s moves := by
  induction moves generalizing s with
  | nil => trivial
  | cons move moves ih =>
    refine ⟨?_, ih ?_ (fun met hmet => hreads met (List.mem_cons_of_mem _ hmet))
      (fun e he => helsewhere e (List.mem_cons_of_mem _ he))⟩
    · cases move with
      | exchange i sending =>
        cases sending with
        | unsent => trivial
        | sent exported =>
          intro a c next hi _ time _
          exact hstarted a (List.mem_of_getElem? hi)
      | elsewhere event => exact helsewhere event (List.mem_cons_self ..)
      | start | report | abandon | wake => trivial
    · intro a ha
      rcases met_of_started ha with ⟨b, hb, hmet⟩ | rfl
      · rw [← hmet]
        exact hstarted b hb
      · exact hreads a.met (List.mem_cons_self ..)

section
variable (sha256 : String → String) (request : RemediationRequest) (start : UtcTime)
  (environ : String → Option String)
  (analyze : String → List Json → Except ActivityError (List IncidentHypothesis))

/-- Every lifecycle event that reaches the state store in the undisturbed runs is taken. -/
def EventsTaken (store : LifecycleStore) : Prop :=
  ∀ ids moves, Admissible (RemediationRun.step sha256 (remediationSetup environ analyze) request)
    (Undisturbed request ids) (.initial store start) moves →
    ∀ answered ∈ history (RemediationRun.step sha256 (remediationSetup environ analyze) request)
      (.initial store start) moves,
      ∀ submission, answered.2 = some submission → ∃ result, Taken submission result

/-- An action stands behind all its gates in every run, and in every undisturbed run the state
store takes all lifecycle events. -/
theorem remediation_gated_and_recorded (hdigest : ∀ text, HexDigest (sha256 text))
    (hkeys : DistinctKeys sha256 request) :
    (∀ inputs, RunGated request (workflowTrace request start inputs)
      (workflowAfter request start inputs).phase) ∧
    EventsTaken sha256 request start environ analyze (sqliteStore sha256) ∧
    EventsTaken sha256 request start environ analyze (cosmosStore sha256) := by
  have hplain : DistinctKeys id request := fun _ _ _ _ hsame => stepId_injective hsame
  have hreceipts : DistinctKeys (Cosmos.receiptId sha256) request := by
    intro step hstep step' hstep' hsame
    exact hkeys step hstep step' hstep' ((receiptId_eq_iff _ _).mp hsame)
  refine ⟨run_gated request start, ?_, ?_⟩
  · intro ids moves hok
    exact submissions_taken (sqliteStore_keepsJournal sha256) hdigest hplain hok
  · intro ids moves hok
    exact submissions_taken (cosmosStore_keepsJournal sha256) hdigest hreceipts hok

end

def restartRequest : RemediationRequest where
  requestId := "req-1"
  incidentId := "inc-1"
  service := "checkout"
  environment := "production"
  correlationId := "corr-1"

theorem collect_date : validDate 2026 1 1 = true := by decide

def collectTime : UtcTime := ⟨2026, 1, 1, 0, 0, 0, 0, collect_date, midnight_clock⟩

/-- The text that is hashed for the first event of the request. -/
def collectedText (ids : List String) : String :=
  (Json.obj ((collectedAdvance restartRequest ids collectTime.isoformat).event remediationActor
    restartRequest).canonicalPayload).dumps

/-- SHA-256 of the request's idempotency keys. -/
def keyDigests : List (String × String) :=
  [("remediation:req-1:evidence",
      "dfac310f8620b57165691466eeb02c2c1e95870b4bef023abcfe3956dfb8b0ba"),
    ("remediation:req-1:planned",
      "fb6eea9d71edff2807eb4e86f8c80970edb9765755449851d4e42efb0d6b4766"),
    ("remediation:req-1:awaiting-approval",
      "52aac0a87ac50b02e0e9a78e7282d2aa8f2d123c7645baa7e5cbb4fa3578bb80"),
    ("remediation:req-1:executing",
      "5e69b18353fa4d01dfc39f6390865b4496fd23e8f60574e117ebeeb45bfa8640"),
    ("remediation:req-1:verifying",
      "49d3c874455e22465191d06f94de32e86551d82aa9ef3d5007b1742af971f1cb"),
    ("remediation:req-1:outcome",
      "a0953d310a1ad3cf07b59860c765a51e8cb3294d8b69e1bb05cf501d0cc116a2")]

/-- SHA-256 on the keys of the request and on its first event, by what evidence was read. -/
def restartSha256 (text : String) : String :=
  match keyDigests.find? (·.1 = text) with
  | some entry => entry.2
  | none =>
    if text = collectedText ["ev-1"] then
      "18012815f58a8f3a9308617e1bec29052244269e569f89c57fc6d7ee6d101da0"
    else "c5cf98887f7342e69e195ef52c6df69b9aced9149ac2dfcffde2868e378e9f4a"

def restartEvidence (ids : List String) : Encounter where
  evidence := .ok (ids.map fun id => (id, .obj [("id", .str id)]))

/-- The audit log is down when the evidence is first recorded, and the activity is retried. -/
def auditRetry (first second : List String) : List RunMove :=
  [.start (restartEvidence first), .exchange 0 (.sent (.error .corrupt)),
    .start (restartEvidence second), .exchange 1 (.sent (.ok (.str "c5cf98887f7342e69e195ef52c6df69b9aced9149ac2dfcffde2868e378e9f4a"))),
    .report 1 collectTime]

/-- The refusals of the state store in a run, one entry for each event it was sent. -/
def refusals (answered : List (RunMove × Option Submission)) :
    List (Option StateError) :=
  answered.filterMap fun x => x.2.map fun submission =>
    match submission.answer with
    | .ok _ => none
    | .error x => some x

def restartSetup : ActivitySetup := remediationSetup (fun _ => some "enabled") (fun _ _ => .ok [])

/-- What the state store answers to two attempts that read the same evidence, and to two that do not. -/
theorem attempts_answered :
    refusals (history (RemediationRun.step restartSha256 restartSetup restartRequest)
      (.initial (sqliteStore restartSha256) collectTime) (auditRetry ["ev-1"] ["ev-1"])) = [none, none] ∧
    refusals (history (RemediationRun.step restartSha256 restartSetup restartRequest)
      (.initial (sqliteStore restartSha256) collectTime) (auditRetry ["ev-1"] ["ev-1", "ev-2"])) =
      [none, some (.versionConflict
        "idempotency key has already been used for a different workflow event")] := by
  decide +kernel

/-- Both attempts read the same evidence: the second is answered from the first one's receipt. -/
theorem restart_recorded :
    refusals (history (RemediationRun.step restartSha256 restartSetup restartRequest)
      (.initial (sqliteStore restartSha256) collectTime) (auditRetry ["ev-1"] ["ev-1"])) = [none, none] ∧
    (∀ answered ∈ history (RemediationRun.step restartSha256 restartSetup restartRequest)
      (.initial (sqliteStore restartSha256) collectTime) (auditRetry ["ev-1"] ["ev-1"]),
      ∀ submission, answered.2 = some submission → ∃ result, Taken submission result) := by
  have hknown : ∀ entry ∈ keyDigests, HexDigest entry.2 := by
    simp only [keyDigests, List.forall_mem_cons]
    refine ⟨?_, ?_, ?_, ?_, ?_, ?_, fun _ h => nomatch h⟩
    all_goals exact hexDigest_ofList (by decide) (by decide)
  have hdigest : ∀ text, HexDigest (restartSha256 text) := by
    intro text
    unfold restartSha256
    split
    · next entry hentry => exact hknown entry (List.mem_of_find?_eq_some hentry)
    · split
      · exact hexDigest_ofList (by decide) (by decide)
      · exact hexDigest_ofList (by decide) (by decide)
  have hkeys : DistinctKeys restartSha256 restartRequest := by
    unfold DistinctKeys
    decide +kernel
  refine ⟨attempts_answered.1, ?_⟩
  refine (remediation_gated_and_recorded restartSha256 restartRequest collectTime (fun _ => some "enabled")
    (fun _ _ => .ok []) hdigest hkeys).2.1 ["ev-1"] _ (admissible_of_reads (by simp [RemediationRun.initial])
      ?_ ?_)
  · intro met hmet events hevents
    have hsame : met = restartEvidence ["ev-1"] := by simpa [auditRetry] using hmet
    subst hsame
    rw [← Except.ok.inj hevents]
    rfl
  · intro e he
    simp [auditRetry] at he

/-- The second attempt reads a further piece of evidence: its event is another one under the
same key, and the state store refuses it. -/
theorem changed_evidence_refused :
    refusals (history (RemediationRun.step restartSha256 restartSetup restartRequest)
      (.initial (sqliteStore restartSha256) collectTime) (auditRetry ["ev-1"] ["ev-1", "ev-2"])) =
      [none, some (.versionConflict
        "idempotency key has already been used for a different workflow event")] :=
  attempts_answered.2

end EngineeringIntelligence.Orchestration
