import EngineeringIntelligence.State.CosmosRefinement
import Mathlib.Data.List.Find

namespace EngineeringIntelligence.State

open EngineeringIntelligence.Framework

/-- Equal results, or exceptions of one class. -/
def SameOutcome : Except StateError WorkflowTransitionResult →
    Except StateError WorkflowTransitionResult → Prop
  | .ok r, .ok r' => r = r'
  | .error x, .error y => x.className = y.className
  | _, _ => False

theorem sameOutcome_isOk {a b : Except StateError WorkflowTransitionResult} (h : SameOutcome a b) :
    a.isOk = b.isOk := by
  cases a <;> cases b <;> first | rfl | exact h.elim

/-- The two adapters answer an event alike and hold the same records afterwards. -/
def StoresAgree (sha256 : String → String) (s : SqliteDb × Cosmos.CosmosContainer)
    (e : WorkflowLifecycleEvent) : Prop :=
  SameOutcome (applyWorkflowEvent sha256 s.1 e).2 (Cosmos.applyWorkflowEvent sha256 s.2 e).2 ∧
    ∀ w, (applyWorkflowEvent sha256 s.1 e).1.getWorkflow w =
      Cosmos.getWorkflow (Cosmos.applyWorkflowEvent sha256 s.2 e).1 w

/-- A valid event under a fresh idempotency key whose event id is already receipted for its
workflow, and which its workflow's record would otherwise accept. -/
def ReusesEventId (db : SqliteDb) (e : WorkflowLifecycleEvent) : Prop :=
  e.validate = none ∧ db.selectReceipt e.workflowId e.idempotencyKey = none ∧
    (db.selectEvent e.workflowId e.eventId).isSome = true ∧
    ∃ current stored, db.getWorkflow e.workflowId = .ok current ∧ advance current e = .ok stored

theorem advance_error_class {current : Option WorkflowRecord} {e : WorkflowLifecycleEvent}
    {x : StateError} (h : advance current e = .error x) : x.className = "VersionConflict" := by
  unfold advance at h
  cases ha : assertExpected (current.map (·.version)) e.expectedVersion with
  | error y =>
    simp only [ha, Except.error.injEq] at h
    subst h
    unfold assertExpected at ha
    split_ifs at ha
    obtain rfl := Except.error.inj ha
    rfl
  | ok u =>
    simp only [ha] at h
    cases hp : e.applyTo current with
    | error m =>
      simp only [hp, Except.error.injEq] at h
      subst h
      rfl
    | ok r => simp [hp] at h

section
variable {sha256 : String → String} {j : List (WorkflowLifecycleEvent × WorkflowRecord)}
  {e : WorkflowLifecycleEvent}

theorem receiptId_eq_iff (k k' : String) :
    Cosmos.receiptId sha256 k = Cosmos.receiptId sha256 k' ↔ sha256 k = sha256 k' :=
  String.append_right_inj _

/-- Hashed keys find what plain keys find, as long as no two keys in play collide. -/
theorem lookupKey_receiptId (w k : String)
    (hsha : ∀ p ∈ j, sha256 p.1.idempotencyKey = sha256 k → p.1.idempotencyKey = k) :
    (lifecycleRules sha256 (Cosmos.receiptId sha256)).lookupKey j w (Cosmos.receiptId sha256 k) =
      (lifecycleRules sha256 id).lookupKey j w k := by
  unfold JournalRules.lookupKey
  apply List.find?_congr
  intro p hp
  rw [decide_eq_decide]
  refine and_congr_right (fun _ => ?_)
  change Cosmos.receiptId sha256 p.1.idempotencyKey = Cosmos.receiptId sha256 k ↔
    p.1.idempotencyKey = k
  rw [receiptId_eq_iff]
  exact ⟨hsha p hp, fun h => by rw [h]⟩

/-- What the two journals do with one event, both starting from `j`. -/
theorem journalApply_compare
    (hsha : ∀ p ∈ j, sha256 p.1.idempotencyKey = sha256 e.idempotencyKey →
      p.1.idempotencyKey = e.idempotencyKey) :
    ((e.validate = none ∧
        (lifecycleRules sha256 id).lookupKey j e.workflowId e.idempotencyKey = none ∧
        (lifecycleRules sha256 id).identUsed j e.workflowId e.eventId = true ∧
        ∃ r, advance ((lifecycleRules sha256 id).current j e.workflowId) e = .ok r) ∧
      ¬SameOutcome (journalApply sha256 id true j e).2
        (journalApply sha256 (Cosmos.receiptId sha256) false j e).2) ∨
    (¬(e.validate = none ∧
        (lifecycleRules sha256 id).lookupKey j e.workflowId e.idempotencyKey = none ∧
        (lifecycleRules sha256 id).identUsed j e.workflowId e.eventId = true ∧
        ∃ r, advance ((lifecycleRules sha256 id).current j e.workflowId) e = .ok r) ∧
      (journalApply sha256 id true j e).1 =
        (journalApply sha256 (Cosmos.receiptId sha256) false j e).1 ∧
      SameOutcome (journalApply sha256 id true j e).2
        (journalApply sha256 (Cosmos.receiptId sha256) false j e).2) := by
  unfold journalApply
  cases hv : e.validate with
  | some m => exact Or.inr ⟨by simp, rfl, rfl⟩
  | none =>
    have hl := lookupKey_receiptId e.workflowId e.idempotencyKey hsha
    dsimp only
    cases hk : (lifecycleRules sha256 id).lookupKey j e.workflowId e.idempotencyKey with
    | some p =>
      refine Or.inr ⟨by simp, ?_⟩
      have hk' := hl.trans hk
      by_cases hs : p.1.eventId = e.eventId ∧ p.1.fingerprint sha256 = e.fingerprint sha256
      · rw [JournalRules.submit_of_replay hk hs, JournalRules.submit_of_replay hk' hs]
        exact ⟨rfl, rfl⟩
      · rw [JournalRules.submit_of_reuse hk hs, JournalRules.submit_of_reuse hk' hs]
        exact ⟨rfl, rfl⟩
    | none =>
      have hk' := hl.trans hk
      have hi' : false = true → (lifecycleRules sha256 (Cosmos.receiptId sha256)).identUsed j
          e.workflowId e.eventId = false := by simp
      cases hi : (lifecycleRules sha256 id).identUsed j e.workflowId e.eventId with
      | false =>
        refine Or.inr ⟨by simp, ?_⟩
        cases ha : advance ((lifecycleRules sha256 id).current j e.workflowId) e with
        | error x =>
          rw [JournalRules.submit_of_refused hk (fun _ => hi) ha,
            JournalRules.submit_of_refused hk' hi' ha]
          exact ⟨rfl, rfl⟩
        | ok r =>
          rw [JournalRules.submit_of_advance hk (fun _ => hi) ha,
            JournalRules.submit_of_advance hk' hi' ha]
          exact ⟨rfl, rfl⟩
      | true =>
        rw [JournalRules.submit_of_used hk rfl hi]
        cases ha : advance ((lifecycleRules sha256 id).current j e.workflowId) e with
        | error x =>
          rw [JournalRules.submit_of_refused hk' hi' ha]
          exact Or.inr ⟨by simp, rfl, (advance_error_class ha).symm⟩
        | ok r =>
          rw [JournalRules.submit_of_advance hk' hi' ha]
          exact Or.inl ⟨⟨rfl, rfl, rfl, r, rfl⟩, id⟩

theorem Represents.reusesEventId_iff {db : SqliteDb} (h : Represents sha256 db j) :
    ReusesEventId db e ↔ e.validate = none ∧
      (lifecycleRules sha256 id).lookupKey j e.workflowId e.idempotencyKey = none ∧
      (lifecycleRules sha256 id).identUsed j e.workflowId e.eventId = true ∧
      ∃ r, advance ((lifecycleRules sha256 id).current j e.workflowId) e = .ok r := by
  rw [ReusesEventId, h.selectReceipt, h.selectEvent, h.getWorkflow, Option.map_eq_none_iff]
  refine and_congr_right (fun _ => and_congr_right (fun _ => and_congr_right (fun _ => ?_)))
  constructor
  · rintro ⟨current, stored, hc, ha⟩
    obtain rfl := Except.ok.inj hc
    exact ⟨stored, ha⟩
  · rintro ⟨r, ha⟩
    exact ⟨_, r, rfl, ha⟩

/-- One event on two stores that hold the same journal. -/
theorem storesAgree_step {db : SqliteDb} {c : Cosmos.CosmosContainer} (hdb : Represents sha256 db j)
    (hc : Cosmos.Represents sha256 c j)
    (hsha : ∀ p ∈ j, sha256 p.1.idempotencyKey = sha256 e.idempotencyKey →
      p.1.idempotencyKey = e.idempotencyKey) :
    (StoresAgree sha256 (db, c) e ↔ ¬ReusesEventId db e) ∧
      (¬ReusesEventId db e → ∃ j', Represents sha256 (applyWorkflowEvent sha256 db e).1 j' ∧
        Cosmos.Represents sha256 (Cosmos.applyWorkflowEvent sha256 c e).1 j' ∧
        ∀ p ∈ j', p ∈ j ∨ p.1 = e) := by
  obtain ⟨hdb', hans⟩ := applyWorkflowEvent_refines hdb e
  obtain ⟨hc', hans'⟩ := Cosmos.applyWorkflowEvent_refines hc e
  rw [StoresAgree, hans, hans', hdb.reusesEventId_iff]
  obtain ⟨hreuse, hdiffer⟩ | ⟨hnot, hsame, hagree⟩ := journalApply_compare hsha
  · exact ⟨⟨fun h => absurd h.1 hdiffer, fun h => absurd hreuse h⟩, fun h => absurd hreuse h⟩
  · rw [← hsame] at hc'
    refine ⟨⟨fun _ => hnot, fun _ => ⟨hagree, fun w => ?_⟩⟩, fun _ => ⟨_, hdb', hc', ?_⟩⟩
    · rw [hdb'.getWorkflow w, hc'.getWorkflow w]
      rfl
    · intro p hp
      rw [journalApply_accepted, List.mem_append] at hp
      refine hp.imp id (fun hp => ?_)
      rw [Option.mem_toList] at hp
      exact acceptedCall_fst hp

theorem storesAgree_run {db : SqliteDb} {c : Cosmos.CosmosContainer} (hdb : Represents sha256 db j)
    (hc : Cosmos.Represents sha256 c j) (es : List WorkflowLifecycleEvent)
    (hsha : ∀ a ∈ j.map Prod.fst ++ es, ∀ b ∈ es,
      sha256 a.idempotencyKey = sha256 b.idempotencyKey → a.idempotencyKey = b.idempotencyKey) :
    Admissible (lockstep (applyWorkflowEvent sha256) (Cosmos.applyWorkflowEvent sha256))
        (StoresAgree sha256) (db, c) es ↔
      Admissible (applyWorkflowEvent sha256) (fun db e => ¬ReusesEventId db e) db es := by
  -- up to the first reused event id both stores hold the same journal
  induction es generalizing db c j with
  | nil => exact Iff.rfl
  | cons e es ih =>
    have hkeys : ∀ p ∈ j, sha256 p.1.idempotencyKey = sha256 e.idempotencyKey →
        p.1.idempotencyKey = e.idempotencyKey := by
      intro p hp
      exact hsha p.1 (by simpa using Or.inl ⟨p.2, hp⟩) e (by simp)
    obtain ⟨hiff, hnext⟩ := storesAgree_step hdb hc hkeys
    simp only [Admissible]
    by_cases hreuse : ReusesEventId db e
    · simp [hiff, hreuse]
    · obtain ⟨j', hdb', hc', hj'⟩ := hnext hreuse
      simp only [hiff, hreuse, not_false_eq_true, true_and]
      refine ih hdb' hc' ?_
      intro a ha b hb
      refine hsha a ?_ b (by simp [hb])
      simp only [List.mem_append, List.mem_map, List.mem_cons] at ha ⊢
      rcases ha with ⟨p, hp, rfl⟩ | ha
      · rcases hj' p hp with hp | rfl
        · exact Or.inl ⟨p, hp, rfl⟩
        · exact Or.inr (Or.inl rfl)
      · exact Or.inr (Or.inr ha)

end

/-- The adapters agree on a sequence of events exactly when no event of it reuses an event
id; `hsha` says that SHA-256 separates the idempotency keys of the sequence. -/
theorem stores_agree_iff (sha256 : String → String) (es : List WorkflowLifecycleEvent)
    (hsha : ∀ a ∈ es, ∀ b ∈ es, sha256 a.idempotencyKey = sha256 b.idempotencyKey →
      a.idempotencyKey = b.idempotencyKey) :
    Admissible (lockstep (applyWorkflowEvent sha256) (Cosmos.applyWorkflowEvent sha256))
        (StoresAgree sha256) (.empty, .empty) es ↔
      Admissible (applyWorkflowEvent sha256) (fun db e => ¬ReusesEventId db e) .empty es :=
  storesAgree_run represents_empty Cosmos.represents_empty es (by simpa using hsha)

/-- The creation of a workflow. -/
def createdEvent : WorkflowLifecycleEvent where
  eventId := "evt-1"
  idempotencyKey := "key-1"
  workflowId := "wf-1"
  tenantId := "default"
  serviceId := "checkout"
  environment := "prod"
  kind := "remediation"
  correlationId := "corr-1"
  actor := "worker"
  action := "workflow.received"
  fromStatus := none
  toStatus := .received
  expectedVersion := none
  occurredAt := "2026-01-01T00:00:00+00:00"

/-- A later transition of it under the same event id and a fresh idempotency key. -/
def reusedEvent : WorkflowLifecycleEvent :=
  { createdEvent with
    idempotencyKey := "key-2", fromStatus := some .received, toStatus := .diagnosing,
    expectedVersion := some 1 }

/-- SHA-256 on the texts that the two events give rise to. -/
def tabulatedSha256 (text : String) : String :=
  if text = "key-1" then
    "be2974546978e3739e6d6da85c4be9f334ce32df2b9fd4b6ff1b55c0d57e9d44"
  else if text = "key-2" then
    "7c36b0a9dedde119c75165957c6c9c187e65df1ee5db87c4c58ad503ad88cbe3"
  else if text = (Json.obj createdEvent.canonicalPayload).dumps then
    "55a87c9998acc24ce9682de631818faf3b84f3f60d9297f4e20b35c9f84af396"
  else if text = (Json.obj reusedEvent.canonicalPayload).dumps then
    "56cfad5a6ad61c603c2d0906970bfa1079b0bcf1b8161414e14b4a274896ba6c"
  else ""

theorem stores_agree_iff_reused :
    (∀ a ∈ [createdEvent, reusedEvent], ∀ b ∈ [createdEvent, reusedEvent],
      tabulatedSha256 a.idempotencyKey = tabulatedSha256 b.idempotencyKey →
        a.idempotencyKey = b.idempotencyKey) ∧
    (Admissible (lockstep (applyWorkflowEvent tabulatedSha256)
        (Cosmos.applyWorkflowEvent tabulatedSha256)) (StoresAgree tabulatedSha256)
        (.empty, .empty) [createdEvent, reusedEvent] ↔
      Admissible (applyWorkflowEvent tabulatedSha256) (fun db e => ¬ReusesEventId db e) .empty
        [createdEvent, reusedEvent]) := by
  have hsha : ∀ a ∈ [createdEvent, reusedEvent], ∀ b ∈ [createdEvent, reusedEvent],
      tabulatedSha256 a.idempotencyKey = tabulatedSha256 b.idempotencyKey →
        a.idempotencyKey = b.idempotencyKey := by
    decide
  exact ⟨hsha, stores_agree_iff tabulatedSha256 [createdEvent, reusedEvent] hsha⟩

/-- SQLite refuses the reused event id; Cosmos advances the workflow with it. -/
theorem stores_disagree_on_reused_event :
    ¬Admissible (lockstep (applyWorkflowEvent tabulatedSha256)
      (Cosmos.applyWorkflowEvent tabulatedSha256)) (StoresAgree tabulatedSha256)
      (.empty, .empty) [createdEvent, reusedEvent] := by
  intro h
  have houtcome := h.2.1.1
  have hsqlite : ((applyWorkflowEvent tabulatedSha256
      (applyWorkflowEvent tabulatedSha256 .empty createdEvent).1 reusedEvent).2).isOk = false := by
    decide
  have hcosmos : ((Cosmos.applyWorkflowEvent tabulatedSha256
      (Cosmos.applyWorkflowEvent tabulatedSha256 .empty createdEvent).1 reusedEvent).2).isOk =
        true := by
    decide
  have hsame := sameOutcome_isOk houtcome
  simp only [lockstep] at hsame
  rw [hsqlite, hcosmos] at hsame
  exact absurd hsame (by decide)

end EngineeringIntelligence.State
