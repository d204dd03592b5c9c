import Mathlib.Data.Finset.Card
import Mathlib.Data.List.Chain
import EngineeringIntelligence.Framework.Journal
import EngineeringIntelligence.State.Store

namespace EngineeringIntelligence.State

open EngineeringIntelligence.Framework

/-! What the state stores are for: a journal of lifecycle events in which every workflow
is a stream. Both adapters are compared with it. -/

/-- Two events are the same submission when key, event id and fingerprint agree; `key` is
how a store keeps the idempotency key. -/
def lifecycleRules (sha256 key : String → String) : JournalRules WorkflowLifecycleEvent WorkflowRecord
    StateError String String String String where
  stream := (·.workflowId)
  key := fun e => key e.idempotencyKey
  ident := (·.eventId)
  digest := (·.fingerprint sha256)
  advance := advance

/-- How a store words the journal's answer. -/
def transitionAnswer (e : WorkflowLifecycleEvent) :
    JournalAnswer WorkflowRecord StateError → Except StateError WorkflowTransitionResult
  | .accepted r => .ok ⟨r, e.eventId, e.idempotencyKey, false⟩
  | .replayed r => .ok ⟨r, e.eventId, e.idempotencyKey, true⟩
  | .reusedKey => .error (.versionConflict
      "idempotency key has already been used for a different workflow event")
  | .reusedIdent => .error (.versionConflict
      "workflow event id has already been used with a different idempotency key")
  | .refused x => .error x

/-- One call on the journal: invalid events never reach it. -/
def journalApply (sha256 key : String → String) (unique : Bool)
    (j : List (WorkflowLifecycleEvent × WorkflowRecord)) (e : WorkflowLifecycleEvent) :
    List (WorkflowLifecycleEvent × WorkflowRecord) × Except StateError WorkflowTransitionResult :=
  match e.validate with
  | some m => (j, .error (.lifecycleContract m))
  | none =>
    let answered := (lifecycleRules sha256 key).submit unique j e
    (answered.1, transitionAnswer e answered.2)

theorem mem_checks_of_validate {e : WorkflowLifecycleEvent} (h : e.validate = none)
    {c : Bool × String} (hc : c ∈ e.checks) : c.1 = true := by
  simp only [WorkflowLifecycleEvent.validate, Option.map_eq_none_iff, List.find?_eq_none] at h
  simpa using h c hc

/-- A valid event follows the transition table. -/
theorem toStatus_mem_of_validate {e : WorkflowLifecycleEvent} (h : e.validate = none) :
    e.toStatus ∈ allowedTransitions e.fromStatus := by
  have hc : ((allowedTransitions e.fromStatus).contains e.toStatus,
      "workflow transition " ++ (e.fromStatus.map WorkflowStatus.value).getD "none" ++ " -> " ++
        e.toStatus.value ++ " is not allowed") ∈ e.checks := by
    simp [WorkflowLifecycleEvent.checks]
  simpa using mem_checks_of_validate h hc

theorem identityChange_eq_none {e : WorkflowLifecycleEvent} {r : WorkflowRecord}
    (h : e.identityChange r = none) : r.identity = e.identity := by
  simp only [WorkflowLifecycleEvent.identityChange, Option.map_eq_none_iff,
    List.find?_eq_none, WorkflowRecord.identity, WorkflowLifecycleEvent.identity, List.zip_cons_cons,
    List.zip_nil_right, List.mem_cons, List.not_mem_nil, or_false] at h ⊢
  simpa using h

/-- Everything an accepted event says about the record it leaves behind. -/
structure Advanced (current : Option WorkflowRecord) (e : WorkflowLifecycleEvent)
    (r : WorkflowRecord) : Prop where
  valid : e.validate = none
  version : r.version = (current.map (·.version)).getD 0 + 1
  allowed : r.status ∈ allowedTransitions (current.map (·.status))
  identity : r.identity = e.identity
  kept : ∀ c ∈ current, r.identity = c.identity ∧ r.workflowId = c.workflowId
  created : current = none → r.workflowId = e.workflowId
  planHash : r.planHash = e.planHash.or (current.bind (·.planHash))
  updatedAt : r.updatedAt = e.occurredAt

theorem advance_ok {current : Option WorkflowRecord} {e : WorkflowLifecycleEvent}
    {r : WorkflowRecord} (h : advance current e = .ok r) : Advanced current e r := by
  unfold advance at h
  cases hx : assertExpected (current.map (·.version)) e.expectedVersion with
  | error x => simp [hx] at h
  | ok u =>
    simp only [hx] at h
    unfold WorkflowLifecycleEvent.applyTo at h
    cases hv : e.validate with
    | some m => simp [hv] at h
    | none =>
      have hto := toStatus_mem_of_validate hv
      cases current with
      | none =>
        simp only [hv] at h
        cases hf : e.fromStatus with
        | some s => simp [hf] at h
        | none =>
          simp only [hf, Option.isSome_none, Bool.false_eq_true, if_false] at h
          obtain rfl := Except.ok.inj h
          refine ⟨hv, by simp, ?_, rfl, by simp, by simp, by simp, rfl⟩
          rwa [hf] at hto
      | some c =>
        simp only [hv] at h
        cases hf : e.fromStatus with
        | none => simp [hf] at h
        | some s =>
          simp only [hf] at h
          by_cases hs : c.status = s
          · cases hi : e.identityChange c with
            | some label => simp [hi, hs] at h
            | none =>
              simp only [hi, hs, ne_eq, not_true_eq_false, if_false] at h
              obtain rfl := Except.ok.inj h
              refine ⟨hv, by simp, ?_, identityChange_eq_none hi, by simp [WorkflowRecord.identity],
                by simp, by cases e.planHash <;> simp, rfl⟩
              simpa [hf, hs] using hto
          · simp [hs] at h

/-- One edge of the transition table. -/
def LifecycleStep (s s' : Option WorkflowStatus) : Prop := ∃ t ∈ allowedTransitions s, s' = some t

/-- The law of the accepted events of one workflow, oldest first. -/
structure StreamLaw (workflowId : String)
    (l : List (WorkflowLifecycleEvent × WorkflowRecord)) : Prop where
  path : List.IsChain LifecycleStep (none :: l.map (fun p => some p.2.status))
  identity : ∀ p ∈ l, ∀ q ∈ l, p.2.identity = q.2.identity
  owner : ∀ p ∈ l, p.2.workflowId = workflowId
  version : ∀ r ∈ l.getLast?.map Prod.snd, r.version = l.length

theorem streamLaw_nil (w : String) : StreamLaw w [] :=
  ⟨by simp, by simp, by simp, by simp⟩

theorem streamLaw_snoc {w : String} {l : List (WorkflowLifecycleEvent × WorkflowRecord)}
    {e : WorkflowLifecycleEvent} {r : WorkflowRecord} (h : StreamLaw w l)
    (hw : e.workflowId = w) (ha : Advanced (l.getLast?.map Prod.snd) e r) :
    StreamLaw w (l ++ [(e, r)]) := by
  -- the new record agrees with the last one, hence with all of them
  have hid : ∀ p ∈ l, r.identity = p.2.identity := by
    intro p hp
    obtain ⟨q, hq⟩ := Option.ne_none_iff_exists'.mp
      (mt List.getLast?_eq_none_iff.mp (List.ne_nil_of_mem hp))
    have hkept := (ha.kept q.2 (by simp [hq])).1
    rw [hkept]
    exact h.identity q (List.mem_of_getLast? hq) p hp
  have howner : r.workflowId = w := by
    cases hl : l.getLast? with
    | none => rw [ha.created (by simp [hl]), hw]
    | some q =>
      rw [(ha.kept q.2 (by simp [hl])).2]
      exact h.owner q (List.mem_of_getLast? hl)
  refine ⟨?_, ?_, ?_, ?_⟩
  · rw [List.map_append, ← List.cons_append, List.isChain_append]
    refine ⟨h.path, by simp, ?_⟩
    intro s hs s' hs'
    obtain rfl : some r.status = s' := by simpa using hs'
    have hlast : s = (l.getLast?.map Prod.snd).map (·.status) := by
      rw [List.getLast?_cons, List.getLast?_map] at hs
      cases hl : l.getLast? <;> simpa [hl] using hs.symm
    exact ⟨r.status, hlast ▸ ha.allowed, rfl⟩
  · intro p hp q hq
    simp only [List.mem_append, List.mem_singleton] at hp hq
    rcases hp with hp | rfl <;> rcases hq with hq | rfl
    · exact h.identity p hp q hq
    · exact (hid p hp).symm
    · exact hid q hq
    · rfl
  · intro p hp
    simp only [List.mem_append, List.mem_singleton] at hp
    rcases hp with hp | rfl
    · exact h.owner p hp
    · exact howner
  · intro r' hr'
    obtain rfl : r = r' := by simpa using hr'
    have hlen : ((l.getLast?.map Prod.snd).map (·.version)).getD 0 = l.length := by
      cases hl : l.getLast? with
      | none => simp [List.getLast?_eq_none_iff.mp hl]
      | some q => simpa [hl] using h.version q.2 (by simp [hl])
    rw [ha.version, hlen]
    simp

section
variable {sha256 key : String → String} {unique : Bool}
  {j : List (WorkflowLifecycleEvent × WorkflowRecord)}

theorem streamLaw_entries (h : (lifecycleRules sha256 key).Lawful unique j) (w : String) :
    StreamLaw w ((lifecycleRules sha256 key).entries j w) :=
  h.stream_induction (streamLaw_nil w) (fun _ _ _ hl hw ha => streamLaw_snoc hl hw (advance_ok ha))

theorem current_owner (h : (lifecycleRules sha256 key).Lawful unique j) {w : String}
    {r : WorkflowRecord} (hr : (lifecycleRules sha256 key).current j w = some r) :
    r.workflowId = w := by
  obtain ⟨p, hp, rfl⟩ := Option.map_eq_some_iff.mp hr
  exact (streamLaw_entries h w).owner p (List.mem_of_getLast? hp)

theorem journalApply_lawful (h : (lifecycleRules sha256 key).Lawful unique j)
    (e : WorkflowLifecycleEvent) :
    (lifecycleRules sha256 key).Lawful unique (journalApply sha256 key unique j e).1 := by
  unfold journalApply
  cases e.validate with
  | some m => exact h
  | none => exact JournalRules.submit_lawful _ unique j e h

theorem journalApply_grows (e : WorkflowLifecycleEvent) :
    j <+: (journalApply sha256 key unique j e).1 := by
  unfold journalApply
  cases e.validate with
  | some m => exact List.prefix_rfl
  | none => exact JournalRules.submit_grows _ unique j e

/-- A record in a terminal status stays the record of its workflow. -/
theorem journalApply_terminal {w : String} {r : WorkflowRecord} (ht : r.status.terminal = true)
    (hr : (lifecycleRules sha256 key).current j w = some r) (e : WorkflowLifecycleEvent) :
    (lifecycleRules sha256 key).current (journalApply sha256 key unique j e).1 w = some r := by
  unfold journalApply
  cases e.validate with
  | some m => exact hr
  | none =>
    obtain ⟨hj, -⟩ | ⟨r', -, -, ha, heq⟩ := (lifecycleRules sha256 key).submit_cases unique j e
    · simp only [hj, hr]
    · simp only [heq]
      by_cases hw : (lifecycleRules sha256 key).stream e = w
      · subst hw
        rw [hr] at ha
        have hallowed := (advance_ok ha).allowed
        simp only [WorkflowStatus.terminal, List.isEmpty_iff] at ht
        simp [ht] at hallowed
      · rwa [JournalRules.current_snoc_of_ne _ hw]

/-- The calls of a history that the store took in, with the record each left. -/
def acceptedCall : WorkflowLifecycleEvent × Except StateError WorkflowTransitionResult →
    Option (WorkflowLifecycleEvent × WorkflowRecord)
  | (e, .ok res) => if res.replayed then none else some (e, res.record)
  | (_, .error _) => none

theorem acceptedCall_fst
    {c : WorkflowLifecycleEvent × Except StateError WorkflowTransitionResult}
    {p : WorkflowLifecycleEvent × WorkflowRecord} (h : acceptedCall c = some p) : p.1 = c.1 := by
  obtain ⟨e, ans⟩ := c
  cases ans with
  | error x => simp [acceptedCall] at h
  | ok res =>
    simp only [acceptedCall, Option.ite_none_left_eq_some, Option.some.injEq] at h
    rw [← h.2]

/-- The records accepted for one workflow, oldest first. -/
def acceptedRecords
    (h : List (WorkflowLifecycleEvent × Except StateError WorkflowTransitionResult))
    (workflowId : String) : List WorkflowRecord :=
  ((h.filterMap acceptedCall).filter (fun p => p.1.workflowId = workflowId)).map Prod.snd

/-- The event ids of all calls on a workflow that succeeded, replays included. -/
def succeededIds
    (h : List (WorkflowLifecycleEvent × Except StateError WorkflowTransitionResult))
    (workflowId : String) : List String :=
  (h.filter (fun c => c.1.workflowId = workflowId ∧ c.2.isOk)).map (·.1.eventId)

/-- What a history of calls says about the journal it built. -/
structure HistoryLaw (sha256 key : String → String) (unique : Bool)
    (h : List (WorkflowLifecycleEvent × Except StateError WorkflowTransitionResult))
    (j : List (WorkflowLifecycleEvent × WorkflowRecord)) : Prop where
  lawful : (lifecycleRules sha256 key).Lawful unique j
  journal : h.filterMap acceptedCall = j
  answered : ∀ e res, (e, .ok res) ∈ h → e.validate = none ∧ res.eventId = e.eventId ∧
    res.idempotencyKey = e.idempotencyKey ∧
    ∃ p ∈ j, (lifecycleRules sha256 key).Same p.1 e ∧ p.2 = res.record

theorem journalApply_accepted (e : WorkflowLifecycleEvent) :
    (journalApply sha256 key unique j e).1 =
      j ++ (acceptedCall (e, (journalApply sha256 key unique j e).2)).toList := by
  unfold journalApply
  cases e.validate with
  | some m => simp [acceptedCall]
  | none =>
    obtain ⟨hj, hna⟩ | ⟨r, -, -, -, heq⟩ := (lifecycleRules sha256 key).submit_cases unique j e
    · simp only [hj]
      cases ha : ((lifecycleRules sha256 key).submit unique j e).2 with
      | accepted r => exact absurd ha (hna r)
      | _ => simp [transitionAnswer, acceptedCall]
    · simp [heq, transitionAnswer, acceptedCall]

theorem journalApply_answered {e : WorkflowLifecycleEvent} {res : WorkflowTransitionResult}
    (h : (journalApply sha256 key unique j e).2 = .ok res) :
    e.validate = none ∧ res.eventId = e.eventId ∧ res.idempotencyKey = e.idempotencyKey ∧
      ∃ p ∈ (journalApply sha256 key unique j e).1,
        (lifecycleRules sha256 key).Same p.1 e ∧ p.2 = res.record := by
  unfold journalApply at h ⊢
  cases hv : e.validate with
  | some m => simp [hv] at h
  | none =>
    simp only [hv] at h ⊢
    have hsame := (lifecycleRules sha256 key).same_of_answered unique j e
    cases ha : ((lifecycleRules sha256 key).submit unique j e).2 with
    | accepted r =>
      simp only [ha, transitionAnswer, Except.ok.injEq] at h
      subst h
      exact ⟨trivial, rfl, rfl, hsame r (Or.inl ha)⟩
    | replayed r =>
      simp only [ha, transitionAnswer, Except.ok.injEq] at h
      subst h
      exact ⟨trivial, rfl, rfl, hsame r (Or.inr ha)⟩
    | reusedKey => simp [ha, transitionAnswer] at h
    | reusedIdent => simp [ha, transitionAnswer] at h
    | refused x => simp [ha, transitionAnswer] at h

theorem historyLaw_step
    {h : List (WorkflowLifecycleEvent × Except StateError WorkflowTransitionResult)}
    (hl : HistoryLaw sha256 key unique h j) (e : WorkflowLifecycleEvent) :
    HistoryLaw sha256 key unique (h ++ [(e, (journalApply sha256 key unique j e).2)])
      (journalApply sha256 key unique j e).1 := by
  refine ⟨journalApply_lawful hl.lawful e, ?_, ?_⟩
  · rw [journalApply_accepted, List.filterMap_append, hl.journal]
    cases ha : acceptedCall (e, (journalApply sha256 key unique j e).2) <;> simp [ha]
  · intro e' res hmem
    rcases List.mem_append.mp hmem with hmem | hmem
    · obtain ⟨hv, hid, hkey, p, hp, hsame⟩ := hl.answered e' res hmem
      exact ⟨hv, hid, hkey, p, (journalApply_grows e).subset hp, hsame⟩
    · obtain ⟨rfl, hres⟩ : e' = e ∧ (journalApply sha256 key unique j e).2 = .ok res := by
        simpa [eq_comm] using hmem
      exact journalApply_answered hres

theorem historyLaw_run (sha256 key : String → String) (unique : Bool)
    (es : List WorkflowLifecycleEvent) :
    HistoryLaw sha256 key unique (history (journalApply sha256 key unique) [] es)
      (runState (journalApply sha256 key unique) [] es) :=
  run_history_invariant (journalApply sha256 key unique) (P := HistoryLaw sha256 key unique)
    (fun _ _ e hl => historyLaw_step hl e) (h := []) ⟨.nil, rfl, by simp⟩ es

section
variable {h : List (WorkflowLifecycleEvent × Except StateError WorkflowTransitionResult)}

theorem HistoryLaw.acceptedRecords_eq (hl : HistoryLaw sha256 key unique h j) (w : String) :
    acceptedRecords h w = ((lifecycleRules sha256 key).entries j w).map Prod.snd := by
  rw [acceptedRecords, hl.journal]
  rfl

theorem HistoryLaw.getLast?_acceptedRecords (hl : HistoryLaw sha256 key unique h j) (w : String) :
    (acceptedRecords h w).getLast? = (lifecycleRules sha256 key).current j w := by
  rw [hl.acceptedRecords_eq, List.getLast?_map]
  rfl

/-- Every successful call carries the event id of an accepted one. -/
theorem HistoryLaw.mem_succeededIds (hl : HistoryLaw sha256 key unique h j) (w i : String) :
    i ∈ succeededIds h w ↔
      i ∈ ((lifecycleRules sha256 key).entries j w).map (fun p => p.1.eventId) := by
  simp only [succeededIds, List.mem_map, List.mem_filter, JournalRules.entries]
  constructor
  · rintro ⟨⟨e, ans⟩, ⟨hmem, hok⟩, rfl⟩
    simp only [decide_eq_true_eq] at hok
    cases ans with
    | error x => simp [Except.isOk, Except.toBool] at hok
    | ok res =>
      obtain ⟨-, -, -, p, hp, hsame, -⟩ := hl.answered e res hmem
      exact ⟨p, ⟨hp, decide_eq_true (hsame.stream.trans hok.1)⟩, hsame.ident⟩
  · rintro ⟨p, ⟨hp, hw⟩, rfl⟩
    rw [← hl.journal, List.mem_filterMap] at hp
    obtain ⟨⟨e, ans⟩, hmem, hp⟩ := hp
    cases ans with
    | error x => simp [acceptedCall] at hp
    | ok res =>
      simp only [acceptedCall, Option.ite_none_left_eq_some, Option.some.injEq] at hp
      obtain ⟨-, rfl⟩ := hp
      exact ⟨(e, .ok res), ⟨hmem, decide_eq_true ⟨of_decide_eq_true hw, rfl⟩⟩, rfl⟩

theorem HistoryLaw.card_succeededIds (hl : HistoryLaw sha256 key true h j) (w : String) :
    (succeededIds h w).toFinset.card = ((lifecycleRules sha256 key).entries j w).length := by
  have hnd : (((lifecycleRules sha256 key).entries j w).map (fun p => p.1.eventId)).Nodup :=
    hl.lawful.ident_nodup w
  have heq : (succeededIds h w).toFinset =
      (((lifecycleRules sha256 key).entries j w).map (fun p => p.1.eventId)).toFinset := by
    ext i
    rw [List.mem_toFinset, List.mem_toFinset, hl.mem_succeededIds]
  rw [heq, List.toFinset_card_of_nodup hnd, List.length_map]

end

end

end EngineeringIntelligence.State
