import EngineeringIntelligence.Orchestration.RemediationActivities

namespace EngineeringIntelligence.Orchestration

open EngineeringIntelligence.Framework EngineeringIntelligence.State

/-! The persisting activities under the retries of the workflow engine: an attempt may fail at
any call on the bridge, and the next one starts over with the same arguments. -/

/-- A call of an activity, with its arguments. -/
inductive BridgeActivity where
  | persistWorkflowLifecycle (event : LifecycleCall)
  | planRemediation (request : RemediationRequest) (evidence : Option EvidenceBundle)
      (occurredAt : String)
  | recordOutcome (request : RemediationRequest) (plan : Option RemediationPlanResult)
      (outcome : ActionOutcome) (approver occurredAt : String)

inductive ActivityResult where
  | lifecycle (result : WorkflowLifecycleActivityResult)
  | plan (result : RemediationPlanResult)
  | outcome (result : RemediationOutcome)

section
variable (sha256 : String → String) (setup : ActivitySetup)

def BridgeActivity.script : BridgeActivity → ActivityScript ActivityResult
  | .persistWorkflowLifecycle event => .call event fun result => .finish (.ok (.lifecycle result))
  | .planRemediation request evidence occurredAt =>
    (Orchestration.planRemediation sha256 setup request evidence occurredAt).map (·.map .plan)
  | .recordOutcome request plan outcome approver occurredAt =>
    (Orchestration.recordOutcome setup request plan outcome approver occurredAt).map (·.map .outcome)

/-- One attempt at an activity; `calls` says how each of its calls on the bridge goes. -/
def runActivity (a : BridgeActivity) (s : BridgeStores) (calls : Nat → Delivery) :
    BridgeStores × Except ActivityError ActivityResult :=
  match attempt (deliver sha256) calls s (a.script sha256 setup) with
  | (s', .error x) => (s', .error (.bridge x))
  | (s', .ok result) => (s', result)

/-- The stores after some attempts at one activity. -/
def retried (a : BridgeActivity) (s : BridgeStores) (tries : List (Nat → Delivery)) : BridgeStores :=
  runState (runActivity sha256 setup a) s tries

/-- An attempt at some activity. -/
abbrev ActivityAttempt := BridgeActivity × (Nat → Delivery)

def attemptStep (s : BridgeStores) (op : ActivityAttempt) :
    BridgeStores × Except ActivityError ActivityResult :=
  runActivity sha256 setup op.1 s op.2

/-- The stores after attempts at any activities, from the beginning. -/
def storesAfter (ops : List ActivityAttempt) : BridgeStores :=
  runState (attemptStep sha256 setup) .empty ops

end

/-- The receipts of an event in the state store. -/
def receiptsOf (s : BridgeStores) (e : WorkflowLifecycleEvent) : Nat :=
  s.state.receipts.countP fun r =>
    r.workflowId = e.workflowId ∧ r.idempotencyKey = e.idempotencyKey

/-- The audit events under the id of an event. -/
def auditEventsOf (s : BridgeStores) (e : WorkflowLifecycleEvent) : Nat :=
  s.audit.countP fun row => row.eventId = "workflow-lifecycle:" ++ e.eventId

/-- An event was applied once and audited once, with the version and the hash it was answered
with. -/
structure RecordedOnce (sha256 : String → String) (s : BridgeStores) (c : LifecycleCall)
    (r : WorkflowLifecycleActivityResult) : Prop where
  applied : receiptsOf s c.event = 1
  audited : auditEventsOf s c.event = 1
  receipt : ∃ record, receiptRow sha256 c.event record ∈ s.state.receipts ∧
    r.workflowVersion = record.version ∧
    ∃ row ∈ s.audit, row.eventId = "workflow-lifecycle:" ++ c.event.eventId ∧
      ReadsAs row (auditEvent sha256 c.event record) ∧ r.auditEventHash = .str row.eventHash

section
variable {sha256 : String → String} {setup : ActivitySetup} {s : BridgeStores}

theorem receiptRow_of_same {e e' : WorkflowLifecycleEvent}
    (h : (lifecycleRules sha256 id).Same e e') (record : WorkflowRecord) :
    receiptRow sha256 e record = receiptRow sha256 e' record := by
  have hworkflow : e.workflowId = e'.workflowId := h.stream
  have hkey : e.idempotencyKey = e'.idempotencyKey := h.key
  have hid : e.eventId = e'.eventId := h.ident
  have hdigest : e.fingerprint sha256 = e'.fingerprint sha256 := h.digest
  unfold receiptRow
  rw [hworkflow, hkey, hid, hdigest]

/-- A call that is answered from what is there was recorded once. -/
theorem recordedOnce_of_unchanged (hs : s.Sound sha256) {d : Delivery} {c : LifecycleCall}
    {r : WorkflowLifecycleActivityResult} (h : deliver sha256 d s c = (s, .ok r)) :
    RecordedOnce sha256 s c r := by
  obtain ⟨j, hj⟩ := hs.journal
  obtain ⟨res, eventHash, happly, hexport, hanswer⟩ := deliver_unchanged h
  obtain ⟨-, p, hp, hsame, hrecord⟩ := entry_of_unchanged hj happly
  obtain ⟨row, hrow, hid, hreads, rfl⟩ :=
    row_of_export hs.chain (exportable_auditEvent c res.record) (congrArg Prod.snd hexport)
  rw [hexport] at hrow
  have hresult : r.workflowVersion = res.record.version ∧ r.auditEventHash = .str row.eventHash := by
    by_cases htruthy : (Json.str row.eventHash).truthy = true
    · simp only [conclude, htruthy, if_true, Except.map, Except.ok.injEq] at hanswer
      rw [← hanswer]
      exact ⟨rfl, rfl⟩
    · simp only [conclude, htruthy, Bool.false_eq_true, if_false, Except.map] at hanswer
      cases hanswer
  refine ⟨?_, ?_, res.record, ?_, hresult.1, row, hrow, hid, hreads, hresult.2⟩
  · have hcount := hj.lawful.countP_key hp
    rw [hsame.stream, hsame.key] at hcount
    rw [receiptsOf, hj.receipts, List.countP_map]
    exact hcount
  · have hcount := hs.chain.countP_id hrow
    rw [hid] at hcount
    exact hcount
  · rw [hj.receipts, ← hrecord, ← receiptRow_of_same hsame]
    exact List.mem_map_of_mem (f := fun p => receiptRow sha256 p.1 p.2) hp

/-- An attempt at an activity, in terms of its script. -/
theorem runActivity_fst (a : BridgeActivity) (calls : Nat → Delivery) :
    (runActivity sha256 setup a s calls).1 =
      (attempt (deliver sha256) calls s (a.script sha256 setup)).1 := by
  unfold runActivity
  split <;> next h => rw [h]

theorem runActivity_eq {a : BridgeActivity} {s' : BridgeStores} {calls calls' : Nat → Delivery}
    (h : attempt (deliver sha256) calls s (a.script sha256 setup) =
      attempt (deliver sha256) calls' s' (a.script sha256 setup)) :
    runActivity sha256 setup a s calls = runActivity sha256 setup a s' calls' := by
  unfold runActivity
  rw [h]

/-- An activity that returned got an answer to each of its calls. -/
theorem answered_of_returned {a : BridgeActivity} {calls : Nat → Delivery} {r : ActivityResult}
    (h : (runActivity sha256 setup a s calls).2 = .ok r) :
    (attempt (deliver sha256) calls s (a.script sha256 setup)).2 = .ok (.ok r) := by
  unfold runActivity at h
  split at h
  · cases h
  · next s' result hattempt =>
    rw [hattempt, ← h]

theorem runActivity_sound (hs : s.Sound sha256) (a : BridgeActivity) (calls : Nat → Delivery) :
    (runActivity sha256 setup a s calls).1.Sound sha256 := by
  rw [runActivity_fst]
  exact attempt_sound (bridge_retryable sha256) hs _

theorem retried_sound (hs : s.Sound sha256) (a : BridgeActivity) (tries : List (Nat → Delivery)) :
    (retried sha256 setup a s tries).Sound sha256 :=
  run_invariant (runActivity sha256 setup a) (P := BridgeStores.Sound sha256)
    (fun _ calls h => runActivity_sound h a calls) hs tries

/-- Attempts change nothing about what an undisturbed one ends with. -/
theorem retried_resumed (hs : s.Sound sha256) {calls : Nat → Delivery} (hcalls : ∀ n, (calls n).Smooth)
    (a : BridgeActivity) (tries : List (Nat → Delivery)) :
    attempt (deliver sha256) calls (retried sha256 setup a s tries) (a.script sha256 setup) =
      attempt (deliver sha256) calls s (a.script sha256 setup) := by
  induction tries generalizing s with
  | nil => rfl
  | cons t tries ih =>
    have hstep : attempt (deliver sha256) calls (runActivity sha256 setup a s t).1
        (a.script sha256 setup) = attempt (deliver sha256) calls s (a.script sha256 setup) := by
      rw [runActivity_fst]
      exact attempt_resumed (bridge_retryable sha256) hcalls hs _
    exact (ih (runActivity_sound hs a t)).trans hstep

/-- What retrying an activity comes to. -/
structure Convergent (sha256 : String → String) (setup : ActivitySetup) (a : BridgeActivity)
    (s : BridgeStores) (tries : List (Nat → Delivery)) (calls : Nat → Delivery) : Prop where
  /-- The attempt that nothing disturbs ends as if it were the only one. -/
  converges : runActivity sha256 setup a (retried sha256 setup a s tries) calls =
    runActivity sha256 setup a s calls
  /-- So does every attempt that returns. -/
  answers : ∀ before t after, tries = before ++ t :: after → ∀ r,
    (runActivity sha256 setup a (retried sha256 setup a s before) t).2 = .ok r →
      runActivity sha256 setup a (retried sha256 setup a s before) t =
        runActivity sha256 setup a s calls
  neverTwice : ∀ e, receiptsOf (retried sha256 setup a s tries) e ≤ 1 ∧
    auditEventsOf (retried sha256 setup a s tries) e ≤ 1
  recorded : ∀ c ∈ answeredCalls (deliver sha256) calls s (a.script sha256 setup),
    RecordedOnce sha256 (runActivity sha256 setup a s calls).1 c.1 c.2
  /-- Once the activity has returned, it returns the same whatever else was done meanwhile. -/
  kept : ∀ r, (runActivity sha256 setup a s calls).2 = .ok r → ∀ others : List ActivityAttempt,
    let s' := runState (attemptStep sha256 setup) (runActivity sha256 setup a s calls).1 others
    runActivity sha256 setup a s' calls = (s', .ok r)

theorem neverTwice_of_sound (hs : s.Sound sha256) (e : WorkflowLifecycleEvent) :
    receiptsOf s e ≤ 1 ∧ auditEventsOf s e ≤ 1 := by
  obtain ⟨j, hj⟩ := hs.journal
  constructor
  · by_cases hentry : ∃ p ∈ j, p.1.workflowId = e.workflowId ∧ p.1.idempotencyKey = e.idempotencyKey
    · obtain ⟨p, hp, hworkflow, hkey⟩ := hentry
      have hcount := hj.lawful.countP_key hp
      rw [receiptsOf, hj.receipts, List.countP_map, ← hworkflow, ← hkey]
      exact hcount.le
    · have hnone : receiptsOf s e = 0 := by
        rw [receiptsOf, hj.receipts, List.countP_map]
        apply List.countP_eq_zero.mpr
        intro p hp
        have hother : ¬ (p.1.workflowId = e.workflowId ∧ p.1.idempotencyKey = e.idempotencyKey) :=
          fun h => hentry ⟨p, hp, h⟩
        simpa [receiptRow] using hother
      omega
  · by_cases hrow : ∃ row ∈ s.audit, row.eventId = "workflow-lifecycle:" ++ e.eventId
    · obtain ⟨row, hrow, hid⟩ := hrow
      rw [auditEventsOf, ← hid, hs.chain.countP_id hrow]
    · have hnone : auditEventsOf s e = 0 := List.countP_eq_zero.mpr fun row hmem => by
        simpa using fun h => hrow ⟨row, hmem, h⟩
      omega

/-- An activity that returned is settled, and stays so. -/
theorem returned_kept (hs : s.Sound sha256) {calls : Nat → Delivery} (hcalls : ∀ n, (calls n).Smooth)
    {a : BridgeActivity} {r : ActivityResult}
    (h : Framework.Settled (deliver sha256) Delivery.Smooth s (a.script sha256 setup) (.ok r))
    (others : List ActivityAttempt) :
    let s' := runState (attemptStep sha256 setup) s others
    runActivity sha256 setup a s' calls = (s', .ok r) := by
  have hkept := run_invariant (attemptStep sha256 setup)
    (P := fun s => s.Sound sha256 ∧
      Framework.Settled (deliver sha256) Delivery.Smooth s (a.script sha256 setup) (.ok r))
    (fun s op hs => by
      refine ⟨runActivity_sound hs.1 op.1 op.2, ?_⟩
      rw [attemptStep, runActivity_fst]
      exact hs.2.kept (bridge_retryable sha256) hs.1 _) ⟨hs, h⟩ others
  intro s'
  have hattempt : attempt (deliver sha256) calls s' (a.script sha256 setup) = (s', .ok (.ok r)) :=
    hkept.2.attempt hcalls
  unfold runActivity
  rw [hattempt]

/-- Whatever attempts at any activities came before, and however the attempts at this one
went, its retries converge. -/
theorem retries_converge (sha256 : String → String) (setup : ActivitySetup)
    (earlier : List ActivityAttempt) (a : BridgeActivity) (tries : List (Nat → Delivery))
    (calls : Nat → Delivery) (hcalls : ∀ n, (calls n).Smooth) :
    Convergent sha256 setup a (storesAfter sha256 setup earlier) tries calls := by
  have hs : (storesAfter sha256 setup earlier).Sound sha256 :=
    run_invariant (attemptStep sha256 setup) (P := BridgeStores.Sound sha256)
      (fun _ op h => runActivity_sound h op.1 op.2) BridgeStores.sound_empty earlier
  refine ⟨runActivity_eq (retried_resumed hs hcalls a tries), ?_, ?_, ?_, ?_⟩
  · intro before t after _ r hr
    have hbefore : (retried sha256 setup a (storesAfter sha256 setup earlier) before).Sound sha256 :=
      retried_sound hs a before
    have hanswered := answered_of_returned hr
    have hundisturbed := attempt_answered (bridge_retryable sha256) hcalls hbefore hanswered
    exact runActivity_eq (hundisturbed.symm.trans (retried_resumed hs hcalls a before))
  · exact neverTwice_of_sound (retried_sound hs a tries)
  · intro c hc
    rw [runActivity_fst]
    exact recordedOnce_of_unchanged (attempt_sound (bridge_retryable sha256) hs _)
      (perform_answered (bridge_retryable sha256) hs hc (hcalls 0))
  · intro r hr others
    have hsettled := settled_of_answered (bridge_retryable sha256) hs (answered_of_returned hr)
    rw [← runActivity_fst] at hsettled
    exact returned_kept (runActivity_sound hs a calls) hcalls hsettled others

end

/-- Into an empty log, an event that can be exported is exported under the hash of its text. -/
theorem auditExport_empty {sha256 : String → String} {e : NewAuditEvent} {now : String}
    (h : (auditAppend sha256 [] e now).2.isOk = true) :
    ∃ text, (auditExport sha256 [] e now).2 = .ok (.str (sha256 text)) := by
  unfold auditAppend at h
  unfold auditExport auditAppend
  dsimp only at h ⊢
  cases htext : e.canonical (lastHash []) with
  | none =>
    rw [htext] at h
    cases h
  | some text =>
    simp only [htext] at h ⊢
    cases hrow : AuditRow.store e.eventId (e.asdict (lastHash []) (some (sha256 text))) (sha256 text) with
    | none =>
      rw [hrow] at h
      cases h
    | some row => exact ⟨text, rfl⟩

/-- A lifecycle activity gives what its one call was answered. -/
theorem runActivity_lifecycle {sha256 : String → String} {setup : ActivitySetup} {c : LifecycleCall}
    {s : BridgeStores} {calls : Nat → Delivery} (h : (deliver sha256 (calls 0) s c).2.isOk = true) :
    (runActivity sha256 setup (.persistWorkflowLifecycle c) s calls).2.isOk = true := by
  cases hresult : (deliver sha256 (calls 0) s c).2 with
  | error x =>
    rw [hresult] at h
    cases h
  | ok result =>
    rw [runActivity, BridgeActivity.script, attempt_of_ok _ hresult]
    rfl

/-- The first event of a remediation workflow. -/
def receivedEvent : WorkflowLifecycleEvent where
  eventId := "wf-1:evidence"
  idempotencyKey := "wf-1:evidence"
  workflowId := "wf-1"
  tenantId := "default"
  serviceId := "checkout"
  environment := "production"
  kind := "remediation"
  correlationId := "corr-1"
  actor := "agent:remediation-workflow"
  action := "collect-remediation-evidence"
  fromStatus := none
  toStatus := .received
  expectedVersion := none
  attributes := some [("incident_id", .str "inc-1")]
  occurredAt := "2026-01-01T00:00:00+00:00"

def receivedCall : LifecycleCall := ⟨receivedEvent, by simp [receivedEvent], trivial, trivial⟩

/-- SHA-256 on the two texts that are hashed for `receivedEvent`. -/
def receivedSha256 (text : String) : String :=
  if text = (Json.obj receivedEvent.canonicalPayload).dumps then
    "d9d0b86d252b3731fadde2acec32a2af2f95e7c3994bbc1e518ad56fa6b9b935"
  else "40a78085d28025090eb63ac376dc6b1fb5ca12f69ae307c2e7b291f888be413f"

def noPlans : ActivitySetup where
  environ := fun _ => some "enabled"
  plan := fun _ _ => .ok none

theorem receivedSha256_ne (text : String) : receivedSha256 text ≠ "" := by
  unfold receivedSha256
  split <;> decide

theorem received_delivered : (deliver receivedSha256 ⟨"", none⟩ .empty receivedCall).2.isOk = true := by
  have hexported : (match (applyWorkflowEvent receivedSha256 .empty receivedEvent).2 with
      | .ok t => (auditAppend receivedSha256 [] (auditEvent receivedSha256 receivedEvent t.record) "").2.isOk
      | .error _ => false) = true := by decide +kernel
  rw [deliver]
  dsimp only
  rw [persistWorkflowLifecycle, show receivedCall.event = receivedEvent from rfl,
    show BridgeStores.empty.state = .empty from rfl]
  rcases happlied : applyWorkflowEvent receivedSha256 .empty receivedEvent with ⟨db, x | transition⟩
  · rw [happlied] at hexported
    cases hexported
  · rw [happlied] at hexported
    obtain ⟨text, htext⟩ := auditExport_empty hexported
    have htruthy : (Json.str (receivedSha256 text)).truthy = true := by
      simp [Json.truthy, receivedSha256_ne]
    dsimp only
    rw [show BridgeStores.empty.audit = [] from rfl, htext, conclude, if_pos htruthy]
    rfl
/-- The audit log fails once and the answer gets lost once, and then the event goes
through. -/
theorem received_converges :
    (runActivity receivedSha256 noPlans (.persistWorkflowLifecycle receivedCall) .empty
      (fun _ => ⟨"", none⟩)).2.isOk = true ∧
    Convergent receivedSha256 noPlans (.persistWorkflowLifecycle receivedCall) .empty
      [fun _ => ⟨"", some .auditLog⟩, fun _ => ⟨"", some .answer⟩] (fun _ => ⟨"", none⟩) := by
  refine ⟨runActivity_lifecycle received_delivered, ?_⟩
  exact retries_converge receivedSha256 noPlans [] _ _ _ (fun _ => rfl)

end EngineeringIntelligence.Orchestration
