import EngineeringIntelligence.State.CosmosStore
import EngineeringIntelligence.State.StoreRefinement
import Mathlib.Computability.Primrec.List

namespace EngineeringIntelligence.State.Cosmos

open EngineeringIntelligence.Framework

theorem workflowItemId_injective {w w' : String} (h : workflowItemId w = workflowItemId w') :
    w = w' :=
  (String.append_right_inj _).mp h

theorem receiptId_ne_workflowItemId (sha256 : String → String) (k w : String) :
    receiptId sha256 k ≠ workflowItemId w := by
  intro h
  have hl : "workflow-transition:".toList ++ (sha256 k).toList =
      ("workflow".toList ++ ":".toList) ++ w.toList := by
    rw [← String.toList_append, ← String.toList_append, ← String.toList_append]
    exact congrArg String.toList h
  -- the ids part at their ninth character
  have hc := congrArg (fun l => l[8]?) hl
  rw [List.getElem?_append_left (by decide), List.getElem?_append_left (by decide)] at hc
  revert hc
  decide

/-- A record that `_workflow_from_payload` reads back. -/
structure Storable (r : WorkflowRecord) : Prop where
  texts : ∀ t ∈ [r.workflowId, r.serviceId, r.environment, r.kind, r.correlationId, r.updatedAt,
    r.tenantId], t ≠ ""
  planHash : r.planHash ≠ some ""
  version : 1 ≤ r.version

theorem workflowFromPayload_asdict {r : WorkflowRecord} (h : Storable r) :
    workflowFromPayload r.asdict = .ok r := by
  have ht := h.texts
  have hp := h.planHash
  have hv := h.version
  obtain ⟨wid, sid, env, kind, status, corr, plan, version, updated, tenant⟩ := r
  simp only [List.forall_mem_cons, List.not_mem_nil, false_imp_iff, implies_true, and_true] at ht
  obtain ⟨h1, h2, h3, h4, h5, h6, h7⟩ := ht
  have hs : status.value ≠ "" := by cases status <;> decide
  have hver : ¬version < 1 := by simpa using hv
  cases plan with
  | none =>
    simp [workflowFromPayload, textField, optionalTextField, integerField, WorkflowRecord.asdict,
      Json.get, List.lookup, Json.optStr, bind, Except.bind, pure, Except.pure, *]
  | some p =>
    have hp' : p ≠ "" := fun hp' => hp (by rw [hp'])
    simp [workflowFromPayload, textField, optionalTextField, integerField, WorkflowRecord.asdict,
      Json.get, List.lookup, Json.optStr, bind, Except.bind, pure, Except.pure, *]

section Valid
variable {e : WorkflowLifecycleEvent} (h : e.validate = none)
include h

theorem identifiers_ne_blank : ∀ p ∈ e.identifiers, p.2 ≠ "" := by
  intro p hp hblank
  have hc := mem_checks_of_validate h (c := (isIdentifier p.2, _))
    (List.mem_append_left _ (List.mem_map_of_mem hp))
  rw [hblank] at hc
  exact absurd hc (by change ¬isIdentifier "" = true; decide)

theorem occurredAt_ne_blank : e.occurredAt ≠ "" := by
  intro hblank
  have hc := mem_checks_of_validate h
    (c := ((fromisoformat e.occurredAt).isSome, "occurred_at must be an ISO-8601 timestamp"))
    (by simp [WorkflowLifecycleEvent.checks])
  rw [hblank] at hc
  exact absurd hc (by decide)

theorem planHash_ne_blank : e.planHash ≠ some "" := by
  intro hblank
  have hc := mem_checks_of_validate h
    (c := (e.planHash.all isPlanHash, "plan_hash must be a sha256 digest when set"))
    (by simp [WorkflowLifecycleEvent.checks])
  rw [hblank] at hc
  exact absurd hc (by decide)

end Valid

theorem storable_of_advanced {current : Option WorkflowRecord} {e : WorkflowLifecycleEvent}
    {r : WorkflowRecord} (ha : Advanced current e r) (hw : r.workflowId = e.workflowId)
    (hc : ∀ c ∈ current, Storable c) : Storable r := by
  have hid := identifiers_ne_blank ha.valid
  have hidentity := ha.identity
  simp only [WorkflowLifecycleEvent.identifiers, List.forall_mem_cons, List.not_mem_nil,
    false_imp_iff, implies_true, and_true] at hid
  simp only [WorkflowRecord.identity, WorkflowLifecycleEvent.identity, List.cons.injEq,
    Prod.mk.injEq, true_and, and_true] at hidentity
  obtain ⟨htenant, hservice, henv, hkind, hcorr⟩ := hidentity
  refine ⟨?_, ?_, ?_⟩
  · have hat := occurredAt_ne_blank ha.valid
    simp only [List.forall_mem_cons, List.not_mem_nil, false_imp_iff, implies_true, and_true]
    rw [hw, htenant, hservice, henv, hkind, hcorr, ha.updatedAt]
    tauto
  · rw [ha.planHash]
    have hplan := planHash_ne_blank ha.valid
    cases hp : e.planHash with
    | some p => simpa [hp] using hplan
    | none =>
      cases current with
      | none => simp
      | some c => simpa using (hc c rfl).planHash
  · rw [ha.version]
    cases current with
    | none => simp
    | some c =>
      have := (hc c rfl).version
      simp only [Option.map_some, Option.getD_some]
      omega

section
variable {sha256 key : String → String} {unique : Bool}
  {j : List (WorkflowLifecycleEvent × WorkflowRecord)}

theorem storable_entries (h : (lifecycleRules sha256 key).Lawful unique j) (w : String) :
    StreamLaw w ((lifecycleRules sha256 key).entries j w) ∧
      ∀ p ∈ (lifecycleRules sha256 key).entries j w, Storable p.2 := by
  refine h.stream_induction (P := fun l => StreamLaw w l ∧ ∀ p ∈ l, Storable p.2)
    ⟨streamLaw_nil w, by simp⟩ ?_
  rintro l e r ⟨hl, hst⟩ hw ha
  have hadv := advance_ok ha
  have hl' := streamLaw_snoc hl hw hadv
  refine ⟨hl', ?_⟩
  intro p hp
  rcases List.mem_append.mp hp with hp | hp
  · exact hst p hp
  · obtain rfl : p = (e, r) := by simpa using hp
    have howner : r.workflowId = e.workflowId := (hl'.owner (e, r) (by simp)).trans hw.symm
    refine storable_of_advanced hadv howner ?_
    intro c hc
    obtain ⟨q, hq, rfl⟩ := Option.map_eq_some_iff.mp hc
    exact hst q (List.mem_of_getLast? hq)

theorem storable_of_mem (h : (lifecycleRules sha256 key).Lawful unique j)
    {p : WorkflowLifecycleEvent × WorkflowRecord} (hp : p ∈ j) : Storable p.2 :=
  (storable_entries h p.1.workflowId).2 p (List.mem_filter.mpr ⟨hp, decide_eq_true rfl⟩)

theorem valid_of_mem (h : (lifecycleRules sha256 key).Lawful unique j)
    {p : WorkflowLifecycleEvent × WorkflowRecord} (hp : p ∈ j) : p.1.validate = none := by
  induction h with
  | nil => simp at hp
  | snoc hj hk hi ha ih =>
    rcases List.mem_append.mp hp with hp | hp
    · exact ih hp
    · rw [List.mem_singleton.mp hp]
      exact (advance_ok ha).valid

theorem storable_current (h : (lifecycleRules sha256 key).Lawful unique j) {w : String}
    {r : WorkflowRecord} (hr : (lifecycleRules sha256 key).current j w = some r) : Storable r := by
  obtain ⟨p, hp, rfl⟩ := Option.map_eq_some_iff.mp hr
  exact (storable_entries h w).2 p (List.mem_of_getLast? hp)

end

/-- The container holds a journal: its entries as receipts under hashed keys, and the
current record of every stream as the workflow's document. -/
structure Represents (sha256 : String → String) (c : CosmosContainer)
    (j : List (WorkflowLifecycleEvent × WorkflowRecord)) : Prop where
  lawful : (lifecycleRules sha256 (receiptId sha256)).Lawful false j
  receipts : ∀ w k, (c.documents.lookup (workflowItemId w, receiptId sha256 k)).map (·.body) =
    ((lifecycleRules sha256 (receiptId sha256)).lookupKey j w (receiptId sha256 k)).map
      (fun p => receiptBody sha256 p.1 p.2)
  workflows : ∀ w, (c.documents.lookup (workflowItemId w, workflowItemId w)).map (·.body) =
    ((lifecycleRules sha256 (receiptId sha256)).current j w).map (fun r => workflowBody r w)
  etags : ∀ k d, c.documents.lookup k = some d → d.etag ≠ ""

section
variable {sha256 : String → String} {c : CosmosContainer}
  {j : List (WorkflowLifecycleEvent × WorkflowRecord)}

theorem represents_empty : Represents sha256 .empty [] :=
  ⟨.nil, fun _ _ => rfl, fun _ => rfl, by simp [CosmosContainer.empty]⟩

theorem lookup_write_self (pk item : String) (body : CosmosItem) :
    (c.write pk item body).documents.lookup (pk, item) =
      some ⟨body, "etag-" ++ toString c.writes⟩ :=
  AList.lookup_insert _

theorem lookup_write_ne {pk item : String} {k : String × String} (h : k ≠ (pk, item))
    (body : CosmosItem) :
    (c.write pk item body).documents.lookup k = c.documents.lookup k :=
  AList.lookup_insert_ne h

theorem etag_ne_blank (n : Nat) : "etag-" ++ toString n ≠ "" := by
  intro h
  have hl := congrArg String.length h
  rw [String.length_append] at hl
  have h5 : "etag-".length = 5 := by decide
  have h0 : "".length = 0 := by decide
  omega

theorem etags_write (h : ∀ k d, c.documents.lookup k = some d → d.etag ≠ "") (pk item : String)
    (body : CosmosItem) :
    ∀ k d, (c.write pk item body).documents.lookup k = some d → d.etag ≠ "" := by
  intro k d hd
  by_cases hk : k = (pk, item)
  · subst hk
    rw [lookup_write_self] at hd
    obtain rfl := Option.some.inj hd
    exact etag_ne_blank _
  · rw [lookup_write_ne hk] at hd
    exact h k d hd

theorem Represents.readItem_receipt_none (h : Represents sha256 c j) {w k : String}
    (hk : (lifecycleRules sha256 (receiptId sha256)).lookupKey j w (receiptId sha256 k) = none) :
    c.documents.lookup (workflowItemId w, receiptId sha256 k) = none := by
  have hr := h.receipts w k
  rw [hk] at hr
  simpa using hr

theorem Represents.readItem_receipt_some (h : Represents sha256 c j) {w k : String}
    {p : WorkflowLifecycleEvent × WorkflowRecord}
    (hk : (lifecycleRules sha256 (receiptId sha256)).lookupKey j w (receiptId sha256 k) = some p) :
    ∃ etag, c.readItem (receiptId sha256 k) (workflowItemId w) =
      some (receiptBody sha256 p.1 p.2 ++ [("_etag", .str etag)]) := by
  have hr := h.receipts w k
  rw [hk, Option.map_some, Option.map_eq_some_iff] at hr
  obtain ⟨d, hd, hbody⟩ := hr
  exact ⟨d.etag, by rw [CosmosContainer.readItem, hd, Option.map_some, hbody]⟩

theorem Represents.lookup_workflow (h : Represents sha256 c j) {w : String} {r : WorkflowRecord}
    (hr : (lifecycleRules sha256 (receiptId sha256)).current j w = some r) :
    ∃ etag, etag ≠ "" ∧
      c.documents.lookup (workflowItemId w, workflowItemId w) = some ⟨workflowBody r w, etag⟩ := by
  have hw := h.workflows w
  rw [hr, Option.map_some, Option.map_eq_some_iff] at hw
  obtain ⟨⟨body, etag⟩, hd, rfl⟩ := hw
  exact ⟨etag, h.etags _ _ hd, hd⟩

theorem Represents.lookup_workflow_none (h : Represents sha256 c j) {w : String}
    (hr : (lifecycleRules sha256 (receiptId sha256)).current j w = none) :
    c.documents.lookup (workflowItemId w, workflowItemId w) = none := by
  have hw := h.workflows w
  rw [hr] at hw
  simpa using hw

theorem Represents.getWorkflow (h : Represents sha256 c j) (w : String) :
    Cosmos.getWorkflow c w = .ok ((lifecycleRules sha256 (receiptId sha256)).current j w) := by
  unfold Cosmos.getWorkflow CosmosContainer.readItem
  cases hr : (lifecycleRules sha256 (receiptId sha256)).current j w with
  | none => rw [h.lookup_workflow_none hr]; rfl
  | some r =>
    obtain ⟨etag, -, hd⟩ := h.lookup_workflow hr
    have hp : mappingField (workflowBody r w ++ [("_etag", .str etag)]) "payload" =
        .ok r.asdict := by
      simp [mappingField, workflowBody, Json.get, List.lookup]
    rw [hd]
    simp only [Option.map_some, workflowFromRaw, hp, bind, Except.bind,
      workflowFromPayload_asdict (storable_current h.lawful hr), Except.map]

theorem replayedTransition_receiptBody {e e' : WorkflowLifecycleEvent} {r : WorkflowRecord}
    (hv : e'.validate = none) (hr : Storable r) (etag : String) :
    replayedTransition sha256 e (receiptBody sha256 e' r ++ [("_etag", .str etag)]) =
      transitionAnswer e
        (if e'.eventId = e.eventId ∧ e'.fingerprint sha256 = e.fingerprint sha256
          then .replayed r else .reusedKey) := by
  have hid : e'.eventId ≠ "" :=
    identifiers_ne_blank hv ("event_id", e'.eventId) (by simp [WorkflowLifecycleEvent.identifiers])
  have hfp : e'.fingerprint sha256 ≠ "" := by
    intro h
    have hl := congrArg String.length h
    rw [WorkflowLifecycleEvent.fingerprint, String.length_append] at hl
    have h7 : "sha256:".length = 7 := by decide
    have h0 : "".length = 0 := by decide
    omega
  have h1 : textField (receiptBody sha256 e' r ++ [("_etag", .str etag)]) "event_id" =
      .ok e'.eventId := by
    simp [textField, receiptBody, Json.get, List.lookup, hid]
  have h2 : textField (receiptBody sha256 e' r ++ [("_etag", .str etag)]) "event_fingerprint" =
      .ok (e'.fingerprint sha256) := by
    simp [textField, receiptBody, Json.get, List.lookup, hfp]
  have h3 : mappingField (receiptBody sha256 e' r ++ [("_etag", .str etag)]) "workflow_payload" =
      .ok r.asdict := by
    simp [mappingField, receiptBody, Json.get, List.lookup]
  generalize receiptBody sha256 e' r ++ [("_etag", .str etag)] = receipt at h1 h2 h3
  simp only [replayedTransition, h1, h2, h3, bind, Except.bind, pure, Except.pure,
    workflowFromPayload_asdict hr]
  generalize e'.fingerprint sha256 = f'
  generalize e.fingerprint sha256 = f
  by_cases hi : e'.eventId = e.eventId
  · by_cases hf : f' = f
    · simp [hi, hf, transitionAnswer]
    · simp [hi, hf, transitionAnswer]
  · simp [hi, transitionAnswer]

/-- The batch of an accepted event goes through: the workflow document is at the etag
that was read and no receipt has its id. -/
theorem Represents.batch (h : Represents sha256 c j) {e : WorkflowLifecycleEvent}
    (hk : (lifecycleRules sha256 (receiptId sha256)).lookupKey j e.workflowId
      (receiptId sha256 e.idempotencyKey) = none) (r : WorkflowRecord) :
    ∃ operations, batchOperations sha256 e
        (c.readItem (workflowItemId e.workflowId) (workflowItemId e.workflowId)) r =
          .ok operations ∧
      c.executeItemBatch operations (workflowItemId e.workflowId) =
        some ((c.write (workflowItemId e.workflowId) (workflowItemId e.workflowId)
          (workflowBody r e.workflowId)).write (workflowItemId e.workflowId)
            (receiptId sha256 e.idempotencyKey) (receiptBody sha256 e r)) := by
  have hid : CosmosContainer.itemIdOf (workflowBody r e.workflowId) =
      some (workflowItemId e.workflowId) := rfl
  have hrid : CosmosContainer.itemIdOf (receiptBody sha256 e r) =
      some (receiptId sha256 e.idempotencyKey) := rfl
  have hne : (workflowItemId e.workflowId, receiptId sha256 e.idempotencyKey) ≠
      (workflowItemId e.workflowId, workflowItemId e.workflowId) := by
    intro heq
    exact receiptId_ne_workflowItemId sha256 _ _ (congrArg Prod.snd heq)
  have hfree := h.readItem_receipt_none hk
  cases hr : (lifecycleRules sha256 (receiptId sha256)).current j e.workflowId with
  | none =>
    have hnone := h.lookup_workflow_none hr
    refine ⟨_, by rw [CosmosContainer.readItem, hnone]; rfl, ?_⟩
    simp [CosmosContainer.executeItemBatch, CosmosContainer.runOperation, hid, hrid, hnone,
      lookup_write_ne hne, hfree]
  | some r' =>
    obtain ⟨etag, hblank, hd⟩ := h.lookup_workflow hr
    have hetag : textField (workflowBody r' e.workflowId ++ [("_etag", .str etag)]) "_etag" =
        .ok etag := by
      simp [textField, workflowBody, Json.get, List.lookup, hblank]
    refine ⟨_, by rw [CosmosContainer.readItem, hd]; simp only [Option.map_some, batchOperations,
      hetag, bind, Except.bind]; rfl, ?_⟩
    simp [CosmosContainer.executeItemBatch, CosmosContainer.runOperation, hrid, hd,
      lookup_write_ne hne, hfree]

theorem Represents.snoc (h : Represents sha256 c j) {e : WorkflowLifecycleEvent}
    {r : WorkflowRecord}
    (hk : (lifecycleRules sha256 (receiptId sha256)).lookupKey j e.workflowId
      (receiptId sha256 e.idempotencyKey) = none)
    (ha : advance ((lifecycleRules sha256 (receiptId sha256)).current j e.workflowId) e = .ok r) :
    Represents sha256 ((c.write (workflowItemId e.workflowId) (workflowItemId e.workflowId)
          (workflowBody r e.workflowId)).write (workflowItemId e.workflowId)
            (receiptId sha256 e.idempotencyKey) (receiptBody sha256 e r)) (j ++ [(e, r)]) := by
  have hlaw : (lifecycleRules sha256 (receiptId sha256)).Lawful false (j ++ [(e, r)]) :=
    .snoc h.lawful hk (by simp) ha
  refine ⟨hlaw, ?_, ?_, etags_write (etags_write h.etags _ _ _) _ _ _⟩
  · intro w k
    by_cases hsame : w = e.workflowId ∧ receiptId sha256 k = receiptId sha256 e.idempotencyKey
    · obtain ⟨rfl, hid⟩ := hsame
      rw [hid, lookup_write_self]
      have hl := hlaw.lookupKey_of_mem (p := (e, r)) (by simp)
      exact (congrArg (Option.map (fun p => receiptBody sha256 p.1 p.2)) hl).symm
    · have h1 : (workflowItemId w, receiptId sha256 k) ≠
          (workflowItemId e.workflowId, receiptId sha256 e.idempotencyKey) := by
        intro heq
        simp only [Prod.mk.injEq] at heq
        exact hsame ⟨workflowItemId_injective heq.1, heq.2⟩
      have h2 : (workflowItemId w, receiptId sha256 k) ≠
          (workflowItemId e.workflowId, workflowItemId e.workflowId) := by
        intro heq
        exact receiptId_ne_workflowItemId sha256 _ _ (congrArg Prod.snd heq)
      rw [lookup_write_ne h1, lookup_write_ne h2, h.receipts w k,
        JournalRules.lookupKey_snoc_of_ne]
      rintro ⟨hw, hkey⟩
      exact hsame ⟨hw.symm, hkey.symm⟩
  · intro w
    have h1 : (workflowItemId w, workflowItemId w) ≠
        (workflowItemId e.workflowId, receiptId sha256 e.idempotencyKey) := by
      intro heq
      exact receiptId_ne_workflowItemId sha256 _ _ (congrArg Prod.snd heq).symm
    rw [lookup_write_ne h1]
    by_cases hw : e.workflowId = w
    · subst hw
      have hcur : (lifecycleRules sha256 (receiptId sha256)).current (j ++ [(e, r)]) e.workflowId =
          some r := JournalRules.current_snoc_of_eq _ rfl j r
      rw [hcur, lookup_write_self]
      rfl
    · have h2 : (workflowItemId w, workflowItemId w) ≠
          (workflowItemId e.workflowId, workflowItemId e.workflowId) := by
        intro heq
        exact hw (workflowItemId_injective (congrArg Prod.fst heq)).symm
      rw [lookup_write_ne h2, h.workflows w,
        JournalRules.current_snoc_of_ne (lifecycleRules sha256 (receiptId sha256)) hw]

/-- `CosmosStateStore.apply_workflow_event` is one submission to a journal that does not
look at event ids. -/
theorem applyWorkflowEvent_refines (h : Represents sha256 c j) (e : WorkflowLifecycleEvent) :
    Represents sha256 (applyWorkflowEvent sha256 c e).1
        (journalApply sha256 (receiptId sha256) false j e).1 ∧
      (applyWorkflowEvent sha256 c e).2 =
        (journalApply sha256 (receiptId sha256) false j e).2 := by
  unfold applyWorkflowEvent journalApply
  cases hv : e.validate with
  | some m => exact ⟨h, rfl⟩
  | none =>
    dsimp only
    cases hk : (lifecycleRules sha256 (receiptId sha256)).lookupKey j e.workflowId
        (receiptId sha256 e.idempotencyKey) with
    | some p =>
      have hmem := List.mem_of_find?_eq_some hk
      obtain ⟨etag, hread⟩ := h.readItem_receipt_some hk
      rw [hread]
      dsimp only
      rw [replayedTransition_receiptBody (valid_of_mem h.lawful hmem)
        (storable_of_mem h.lawful hmem)]
      by_cases hs : p.1.eventId = e.eventId ∧ p.1.fingerprint sha256 = e.fingerprint sha256
      · rw [if_pos hs, JournalRules.submit_of_replay hk hs]
        exact ⟨h, rfl⟩
      · rw [if_neg hs, JournalRules.submit_of_reuse hk hs]
        exact ⟨h, rfl⟩
    | none =>
      have hread : c.readItem (receiptId sha256 e.idempotencyKey) (workflowItemId e.workflowId) =
          none := by
        rw [CosmosContainer.readItem, h.readItem_receipt_none hk]
        rfl
      rw [hread, h.getWorkflow]
      dsimp only
      cases ha : advance ((lifecycleRules sha256 (receiptId sha256)).current j e.workflowId) e with
      | error x =>
        rw [JournalRules.submit_of_refused hk (by simp) ha]
        exact ⟨h, rfl⟩
      | ok r =>
        obtain ⟨operations, hops, hbatch⟩ := h.batch hk r
        rw [JournalRules.submit_of_advance hk (by simp) ha]
        dsimp only
        rw [hops]
        dsimp only
        rw [hbatch]
        exact ⟨h.snoc hk ha, rfl⟩

end

end EngineeringIntelligence.State.Cosmos
