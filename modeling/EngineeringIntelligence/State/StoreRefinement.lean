import EngineeringIntelligence.State.LifecycleJournal

namespace EngineeringIntelligence.State

open EngineeringIntelligence.Framework

/-- The two tables hold a journal: its entries as receipts, and the current record of
every stream as the workflow's row. -/
structure Represents (sha256 : String → String) (db : SqliteDb)
    (j : List (WorkflowLifecycleEvent × WorkflowRecord)) : Prop where
  lawful : (lifecycleRules sha256 id).Lawful true j
  receipts : db.receipts = j.map (fun p => receiptRow sha256 p.1 p.2)
  workflows : ∀ w, db.workflows.lookup w =
    ((lifecycleRules sha256 id).current j w).map (fun r => ⟨.obj r.asdict, r.version⟩)

section
variable {sha256 : String → String} {db : SqliteDb}
  {j : List (WorkflowLifecycleEvent × WorkflowRecord)}

theorem represents_empty : Represents sha256 .empty [] :=
  ⟨.nil, rfl, fun _ => rfl⟩

theorem Represents.selectReceipt (h : Represents sha256 db j) (w k : String) :
    db.selectReceipt w k =
      ((lifecycleRules sha256 id).lookupKey j w k).map (fun p => receiptRow sha256 p.1 p.2) := by
  rw [SqliteDb.selectReceipt, h.receipts, List.find?_map]
  rfl

theorem Represents.selectEvent (h : Represents sha256 db j) (w i : String) :
    (db.selectEvent w i).isSome = (lifecycleRules sha256 id).identUsed j w i := by
  rw [SqliteDb.selectEvent, h.receipts, List.find?_map, Option.isSome_map, List.isSome_find?]
  rfl

theorem Represents.getWorkflow (h : Represents sha256 db j) (w : String) :
    db.getWorkflow w = .ok ((lifecycleRules sha256 id).current j w) := by
  rw [SqliteDb.getWorkflow, h.workflows w]
  cases (lifecycleRules sha256 id).current j w with
  | none => rfl
  | some r => simp [payloadToWorkflow_asdict]

theorem replayedTransition_receiptRow (e e' : WorkflowLifecycleEvent) (r : WorkflowRecord) :
    replayedTransition sha256 e (receiptRow sha256 e' r) = transitionAnswer e
      (if e'.eventId = e.eventId ∧ e'.fingerprint sha256 = e.fingerprint sha256 then .replayed r
        else .reusedKey) := by
  unfold replayedTransition receiptRow
  by_cases hs : e'.eventId = e.eventId ∧ e'.fingerprint sha256 = e.fingerprint sha256
  · simp only [hs.1, hs.2, ne_eq, not_true_eq_false, or_self, if_false, and_self, if_true,
      payloadToWorkflow_asdict, transitionAnswer]
  · have hne : e'.eventId ≠ e.eventId ∨ e'.fingerprint sha256 ≠ e.fingerprint sha256 :=
      not_and_or.mp hs
    rw [if_pos hne, if_neg hs]
    rfl

/-- The writes of an accepted event extend the journal by one entry. -/
theorem Represents.snoc (h : Represents sha256 db j) {e : WorkflowLifecycleEvent}
    {r : WorkflowRecord}
    (hk : (lifecycleRules sha256 id).lookupKey j e.workflowId e.idempotencyKey = none)
    (hi : (lifecycleRules sha256 id).identUsed j e.workflowId e.eventId = false)
    (ha : advance ((lifecycleRules sha256 id).current j e.workflowId) e = .ok r) :
    ∃ written, (db.writeWorkflow r).insertReceipt (receiptRow sha256 e r) = .ok written ∧
      Represents sha256 written (j ++ [(e, r)]) := by
  have hlaw : (lifecycleRules sha256 id).Lawful true (j ++ [(e, r)]) :=
    .snoc h.lawful hk (fun _ => hi) ha
  have hcur : (lifecycleRules sha256 id).current (j ++ [(e, r)]) e.workflowId = some r :=
    JournalRules.current_snoc_of_eq _ rfl j r
  have howner : r.workflowId = e.workflowId := current_owner hlaw hcur
  -- neither constraint of the receipt table can fire: both were queried first
  have hnokey : ¬(db.selectReceipt e.workflowId e.idempotencyKey).isSome = true := by
    rw [h.selectReceipt, hk]; simp
  have hnoevent : ¬(db.selectEvent e.workflowId e.eventId).isSome = true := by
    rw [h.selectEvent, hi]; simp
  refine ⟨{ db.writeWorkflow r with
      receipts := (db.writeWorkflow r).receipts ++ [receiptRow sha256 e r] }, ?_, hlaw, ?_, ?_⟩
  · exact (if_neg hnokey).trans (if_neg hnoevent)
  · simp [SqliteDb.writeWorkflow, h.receipts]
  · intro w
    by_cases hw : e.workflowId = w
    · subst hw
      rw [hcur]
      simp [SqliteDb.writeWorkflow, howner]
    · have hne : w ≠ r.workflowId := by rw [howner]; exact Ne.symm hw
      rw [JournalRules.current_snoc_of_ne (lifecycleRules sha256 id) hw, ← h.workflows w]
      exact AList.lookup_insert_ne hne

/-- `SqliteStateStore.apply_workflow_event` is one submission to the journal. -/
theorem applyWorkflowEvent_refines (h : Represents sha256 db j) (e : WorkflowLifecycleEvent) :
    Represents sha256 (applyWorkflowEvent sha256 db e).1 (journalApply sha256 id true j e).1 ∧
      (applyWorkflowEvent sha256 db e).2 = (journalApply sha256 id true j e).2 := by
  unfold applyWorkflowEvent journalApply
  cases hv : e.validate with
  | some m => exact ⟨h, rfl⟩
  | none =>
    simp only [SqliteDb.immediate, transition, h.selectReceipt, h.selectEvent, h.getWorkflow]
    cases hk : (lifecycleRules sha256 id).lookupKey j e.workflowId e.idempotencyKey with
    | some p =>
      simp only [Option.map_some, replayedTransition_receiptRow]
      by_cases hs : p.1.eventId = e.eventId ∧ p.1.fingerprint sha256 = e.fingerprint sha256
      · rw [if_pos hs, JournalRules.submit_of_replay hk hs]
        exact ⟨h, rfl⟩
      · rw [if_neg hs, JournalRules.submit_of_reuse hk hs]
        exact ⟨h, rfl⟩
    | none =>
      simp only [Option.map_none]
      cases hi : (lifecycleRules sha256 id).identUsed j e.workflowId e.eventId with
      | true =>
        rw [JournalRules.submit_of_used hk rfl hi]
        exact ⟨h, rfl⟩
      | false =>
        cases ha : advance ((lifecycleRules sha256 id).current j e.workflowId) e with
        | error x =>
          rw [JournalRules.submit_of_refused hk (fun _ => hi) ha]
          exact ⟨h, rfl⟩
        | ok r =>
          obtain ⟨written, hw, hrep⟩ := h.snoc hk hi ha
          rw [JournalRules.submit_of_advance hk (fun _ => hi) ha]
          simp only [Bool.false_eq_true, if_false, hw]
          exact ⟨hrep, rfl⟩

/-- An event whose entry is in the journal is answered from its receipt. -/
theorem applyWorkflowEvent_replay (h : Represents sha256 db j)
    {p : WorkflowLifecycleEvent × WorkflowRecord} (hp : p ∈ j) {e : WorkflowLifecycleEvent}
    (hv : e.validate = none) (hs : (lifecycleRules sha256 id).Same p.1 e) :
    applyWorkflowEvent sha256 db e = (db, .ok ⟨p.2, e.eventId, e.idempotencyKey, true⟩) := by
  have hl : (lifecycleRules sha256 id).lookupKey j e.workflowId e.idempotencyKey = some p := by
    have hl := h.lawful.lookupKey_of_mem hp
    rwa [hs.stream, hs.key] at hl
  simp only [applyWorkflowEvent, hv, SqliteDb.immediate, transition, h.selectReceipt, hl,
    Option.map_some, replayedTransition_receiptRow]
  rw [if_pos ⟨hs.ident, hs.digest⟩]
  rfl

end

theorem applyWorkflowEvent_run (sha256 : String → String) (es : List WorkflowLifecycleEvent) :
    Represents sha256 (runState (applyWorkflowEvent sha256) .empty es)
        (runState (journalApply sha256 id true) [] es) ∧
      history (applyWorkflowEvent sha256) .empty es = history (journalApply sha256 id true) [] es :=
  run_simulation (R := Represents sha256)
    (fun _ _ e h => applyWorkflowEvent_refines h e) represents_empty es

theorem applyWorkflowEvent_raises {sha256 : String → String} {db : SqliteDb}
    {e : WorkflowLifecycleEvent} {x : StateError}
    (h : (applyWorkflowEvent sha256 db e).2 = .error x) : (applyWorkflowEvent sha256 db e).1 = db := by
  unfold applyWorkflowEvent at h ⊢
  cases hv : e.validate with
  | some m => rfl
  | none =>
    simp only [hv, SqliteDb.immediate] at h ⊢
    split at h
    · rfl
    · simp at h

/-- The whole-run law of the SQLite state store, for any sequence of calls `es`. -/
theorem applyWorkflowEvent_lifecycle (sha256 : String → String) (es : List WorkflowLifecycleEvent)
    (w : String) :
    let db := runState (applyWorkflowEvent sha256) .empty es
    let calls := history (applyWorkflowEvent sha256) .empty es
    let records := acceptedRecords calls w
    db.getWorkflow w = .ok records.getLast? ∧
    List.IsChain LifecycleStep (none :: records.map (fun r => some r.status)) ∧
    (∀ r ∈ records.getLast?, r.status.terminal → ∀ later,
      (runState (applyWorkflowEvent sha256) db later).getWorkflow w = .ok (some r)) ∧
    (∀ r ∈ records, ∀ r' ∈ records, r.identity = r'.identity) ∧
    (∀ r ∈ records.getLast?, r.version = (succeededIds calls w).toFinset.card) ∧
    (∀ e res, (e, .ok res) ∈ calls →
      applyWorkflowEvent sha256 db e = (db, .ok { res with replayed := true })) ∧
    (∀ e x, (applyWorkflowEvent sha256 db e).2 = .error x →
      (applyWorkflowEvent sha256 db e).1 = db) := by
  intro db calls records
  obtain ⟨hrep, hcalls⟩ := applyWorkflowEvent_run sha256 es
  have hlaw := historyLaw_run sha256 id true es
  rw [← hcalls] at hlaw
  set j := runState (journalApply sha256 id true) [] es
  have hstream := streamLaw_entries hlaw.lawful w
  have hrecords : records = ((lifecycleRules sha256 id).entries j w).map Prod.snd :=
    hlaw.acceptedRecords_eq w
  have hlast : records.getLast? = (lifecycleRules sha256 id).current j w :=
    hlaw.getLast?_acceptedRecords w
  refine ⟨?_, ?_, ?_, ?_, ?_, ?_, fun e x hx => applyWorkflowEvent_raises hx⟩
  · rw [hlast]
    exact hrep.getWorkflow w
  · rw [hrecords, List.map_map]
    exact hstream.path
  · intro r hr ht later
    rw [hlast, Option.mem_def] at hr
    obtain ⟨hrep', -⟩ := run_simulation (R := Represents sha256)
      (fun _ _ e h => applyWorkflowEvent_refines h e) hrep later
    rw [hrep'.getWorkflow w]
    exact congrArg _ (run_invariant (journalApply sha256 id true)
      (P := fun j => (lifecycleRules sha256 id).current j w = some r)
      (fun _ e h => journalApply_terminal ht h e) hr later)
  · intro r hr r' hr'
    rw [hrecords, List.mem_map] at hr hr'
    obtain ⟨p, hp, rfl⟩ := hr
    obtain ⟨q, hq, rfl⟩ := hr'
    exact hstream.identity p hp q hq
  · intro r hr
    rw [hlaw.card_succeededIds w]
    rw [hlast] at hr
    exact hstream.version r hr
  · intro e res hmem
    obtain ⟨hv, hid, hkey, p, hp, hsame, hrec⟩ := hlaw.answered e res hmem
    rw [applyWorkflowEvent_replay hrep hp hv hsame, hrec, ← hid, ← hkey]

end EngineeringIntelligence.State
