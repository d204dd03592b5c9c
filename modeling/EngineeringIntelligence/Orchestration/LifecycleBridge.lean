import EngineeringIntelligence.Framework.Retry
import EngineeringIntelligence.State.AuditReplay
import EngineeringIntelligence.State.StoreRefinement

namespace EngineeringIntelligence.Orchestration

open EngineeringIntelligence.Framework EngineeringIntelligence.State

/-! `ControlPlaneActivityBridge`: a lifecycle event is applied to the state store and then
exported to the audit log. No transaction spans the two. -/

/-- A lifecycle event as it reaches the bridge: its attributes are JSON data. -/
structure LifecycleCall where
  event : WorkflowLifecycleEvent
  proper : PyValue.Proper (.obj (event.attributes.getD []))

structure BridgeStores where
  state : SqliteDb
  audit : AuditTable

namespace BridgeStores

def empty : BridgeStores := ⟨.empty, []⟩

end BridgeStores

inductive BridgeError where
  | state (error : StateError)
  | auditExportFailure (message : String) (cause : Option AuditError)
  | interrupted
  deriving DecidableEq, Repr

structure WorkflowLifecycleActivityResult where
  workflowId : String
  workflowVersion : Int
  status : String
  eventId : String
  idempotencyKey : String
  stateReplayed : Bool
  auditEventHash : Json

/-- The result apart from whether the state store had seen the event before. -/
def WorkflowLifecycleActivityResult.settled (r : WorkflowLifecycleActivityResult) :
    WorkflowLifecycleActivityResult :=
  { r with stateReplayed := false }

section
variable (sha256 : String → String)

/-- The payload of `_audit_event`. -/
def auditPayload (e : WorkflowLifecycleEvent) (record : WorkflowRecord) : List (String × Json) :=
  [("schema_version", .int e.schemaVersion), ("event_id", .str e.eventId),
    ("idempotency_key", .str e.idempotencyKey), ("causation_id", Json.optStr e.causationId),
    ("tenant_id", .str e.tenantId), ("service_id", .str e.serviceId),
    ("environment", .str e.environment), ("kind", .str e.kind),
    ("from_status", Json.optStr (e.fromStatus.map WorkflowStatus.value)),
    ("to_status", .str e.toStatus.value), ("expected_version", Json.optInt e.expectedVersion),
    ("resulting_version", .int record.version), ("plan_hash", Json.optStr record.planHash),
    ("consequential", .bool e.consequential), ("event_fingerprint", .str (e.fingerprint sha256)),
    ("attributes", .obj (e.attributes.getD []))]

/-- `_audit_event`. -/
def auditEvent (e : WorkflowLifecycleEvent) (record : WorkflowRecord) : NewAuditEvent where
  eventId := "workflow-lifecycle:" ++ e.eventId
  correlationId := e.correlationId
  actor := e.actor
  action := e.action
  resource := e.workflowId
  payload := .ofJson (.obj (auditPayload sha256 e record))
  occurredAt := e.occurredAt

/-- The hash of the event that `append` returns. -/
def exportedHash : AppendedEvent → Json
  | .finalized _ _ eventHash => .str eventHash
  | .replayed event => event.eventHash

/-- `append` as the bridge sees it: the table, and the hash or the exception. -/
def auditExport (t : AuditTable) (e : NewAuditEvent) (now : String) :
    AuditTable × Except AuditError Json :=
  let (t', answer) := auditAppend sha256 t e now
  (t', answer.map exportedHash)

def retained : String :=
  "workflow lifecycle state was retained, but immutable audit export did not complete"

/-- What the activity makes of the audit log's answer. -/
def conclude (e : WorkflowLifecycleEvent) (transition : WorkflowTransitionResult) :
    Except AuditError Json → Except BridgeError WorkflowLifecycleActivityResult
  | .error x => .error (.auditExportFailure retained (some x))
  | .ok eventHash =>
    if eventHash.truthy then
      .ok ⟨transition.record.workflowId, transition.record.version, transition.record.status.value,
        e.eventId, e.idempotencyKey, transition.replayed, eventHash⟩
    else .error (.auditExportFailure "audit exporter returned an event without a verifiable hash" none)

/-- `persist_workflow_lifecycle`; `now` is the time the audit log would fill in. -/
def persistWorkflowLifecycle (now : String) (s : BridgeStores) (c : LifecycleCall) :
    BridgeStores × Except BridgeError WorkflowLifecycleActivityResult :=
  match applyWorkflowEvent sha256 s.state c.event with
  | (db, .error x) => (⟨db, s.audit⟩, .error (.state x))
  | (db, .ok transition) =>
    let (t, exported) := auditExport sha256 s.audit (auditEvent sha256 c.event transition.record) now
    (⟨db, t⟩, conclude c.event transition exported)

/-- Where a call of the bridge is cut short: before it reaches the state store, before the
audit log has written, or before its caller hears of it. -/
inductive Cut where
  | stateStore
  | auditLog
  | answer
  deriving DecidableEq, Repr

/-- How one call goes. -/
structure Delivery where
  now : String
  cut : Option Cut

def Delivery.Smooth (d : Delivery) : Prop := d.cut = none

/-- One call of `persist_workflow_lifecycle` under the given circumstances. -/
def deliver (d : Delivery) (s : BridgeStores) (c : LifecycleCall) :
    BridgeStores × Except BridgeError WorkflowLifecycleActivityResult :=
  match d.cut with
  | none =>
    let (s', answer) := persistWorkflowLifecycle sha256 d.now s c
    (s', answer.map (·.settled))
  | some .stateStore => (s, .error .interrupted)
  | some .auditLog =>
    match applyWorkflowEvent sha256 s.state c.event with
    | (db, .error x) => (⟨db, s.audit⟩, .error (.state x))
    | (db, .ok _) => (⟨db, s.audit⟩, .error (.auditExportFailure retained none))
  | some .answer => ((persistWorkflowLifecycle sha256 d.now s c).1, .error .interrupted)

end

/-! ### The audit log under repetition -/

section
variable {sha256 : String → String} {t : AuditTable}

/-- An event whose payload the log can write and read back. -/
def Exportable (e : NewAuditEvent) : Prop :=
  e.payload.Steady ∧ (e.payload.document .storing).isSome = true

theorem proper_optStr (text : Option String) : PyValue.Proper (Json.optStr text) := by
  cases text with
  | none => exact trivial
  | some s => exact trivial

theorem proper_optInt (n : Option Int) : PyValue.Proper (Json.optInt n) := by
  cases n with
  | none => exact trivial
  | some n => exact trivial

theorem proper_auditPayload (c : LifecycleCall) (record : WorkflowRecord) :
    PyValue.Proper (.obj (auditPayload sha256 c.event record)) := by
  have hkeys : ((auditPayload sha256 c.event record).map (·.1)).Nodup := by simp [auditPayload]
  exact ⟨hkeys, trivial, trivial, trivial, proper_optStr _, trivial, trivial, trivial, trivial,
    proper_optStr _, trivial, proper_optInt _, trivial, proper_optStr _, trivial, trivial, c.proper,
    trivial⟩

theorem document_auditEvent (c : LifecycleCall) (record : WorkflowRecord) :
    (auditEvent sha256 c.event record).payload.document .storing =
      some (Json.obj (auditPayload sha256 c.event record)).sortKeys :=
  PyValue.document_ofJson _ (proper_auditPayload c record)

theorem exportable_auditEvent (c : LifecycleCall) (record : WorkflowRecord) :
    Exportable (auditEvent sha256 c.event record) := by
  refine ⟨PyValue.steady_ofJson _ (proper_auditPayload c record), ?_⟩
  rw [document_auditEvent, Option.isSome_some]

/-- A row reads back with the content of an event. -/
def ReadsAs (row : AuditRow) (e : NewAuditEvent) : Prop :=
  ∃ s, (∀ now, row.restored now = some s) ∧ e.HasContent s

theorem readsAs_of_rowOf {e : NewAuditEvent} {previous : Option String} {row : AuditRow}
    (h : RowOf sha256 e previous row) : ReadsAs row e := by
  obtain ⟨p, hdoc, -, hreads⟩ := h.reads
  exact ⟨_, hreads, p, hdoc, rfl, rfl, rfl, rfl, rfl, rfl, rfl, rfl⟩

/-- An event under a known id is answered with the hash of its row, or refused. -/
theorem auditExport_known (ht : Written sha256 t) {e : NewAuditEvent} (he : Exportable e)
    {row : AuditRow} (hrow : row ∈ t) (hid : row.eventId = e.eventId) :
    (ReadsAs row e → ∀ now, auditExport sha256 t e now = (t, .ok (.str row.eventHash))) ∧
      (¬ ReadsAs row e → ∀ now, auditExport sha256 t e now = (t, .error auditConflict)) := by
  obtain ⟨p, hdoc⟩ := Option.isSome_iff_exists.mp he.2
  obtain ⟨s, hrestored, hsame, hother⟩ := auditAppend_known ht he.1 hdoc hrow hid
  obtain ⟨e', previous, hof⟩ := ht.row hrow
  obtain ⟨p', -, -, hreads⟩ := hof.reads
  have hstored : s = e'.stored p' previous (some row.eventHash) :=
    Option.some.inj ((hrestored "").symm.trans (hreads ""))
  constructor
  · intro h now
    obtain ⟨s', hs', hcontent⟩ := h
    obtain rfl : s' = s := Option.some.inj (( hs' "").symm.trans (hrestored ""))
    rw [auditExport, hsame hcontent now, hstored]
    rfl
  · intro h now
    have hcontent : ¬ e.HasContent s := fun hcontent => h ⟨s, hrestored, hcontent⟩
    rw [auditExport, hother hcontent now]
    rfl

theorem auditExport_fresh {e : NewAuditEvent} (he : Exportable e)
    (hfresh : ∀ r ∈ t, r.eventId ≠ e.eventId) :
    ∃ row, RowOf sha256 e (lastHash t) row ∧
      ∀ now, auditExport sha256 t e now = (t ++ [row], .ok (.str row.eventHash)) := by
  obtain ⟨p, hdoc⟩ := Option.isSome_iff_exists.mp he.2
  obtain ⟨row, hof, happend⟩ : ∃ row, RowOf sha256 e (lastHash t) row ∧
      auditAppend sha256 t e "" = (t ++ [row], .ok (.finalized e (lastHash t) row.eventHash)) :=
    auditAppend_fresh he.1 hdoc hfresh
  have hfind : t.find? (fun r => r.eventId = e.eventId) = none := by
    apply List.find?_eq_none.mpr
    intro r hr
    simpa using hfresh r hr
  refine ⟨row, hof, ?_⟩
  intro now
  have hnow : auditAppend sha256 t e now = auditAppend sha256 t e "" := by
    simp only [auditAppend, hfind]
  rw [auditExport, hnow, happend]
  rfl

/-- What an export does: it adds a row for the event, or leaves the log and answers from the
row under the event's id. -/
theorem auditExport_cases (ht : Written sha256 t) {e : NewAuditEvent} (he : Exportable e) :
    (∃ row, RowOf sha256 e (lastHash t) row ∧ (∀ r ∈ t, r.eventId ≠ e.eventId) ∧
      ∀ now, auditExport sha256 t e now = (t ++ [row], .ok (.str row.eventHash))) ∨
    ∃ row ∈ t, row.eventId = e.eventId ∧
      ∃ answer, ∀ now, auditExport sha256 t e now = (t, answer) := by
  by_cases hknown : ∃ row ∈ t, row.eventId = e.eventId
  · obtain ⟨row, hrow, hid⟩ := hknown
    obtain ⟨hsame, hother⟩ := auditExport_known ht he hrow hid
    refine Or.inr ⟨row, hrow, hid, ?_⟩
    by_cases hreads : ReadsAs row e
    · exact ⟨_, hsame hreads⟩
    · exact ⟨_, hother hreads⟩
  · have hfresh : ∀ r ∈ t, r.eventId ≠ e.eventId := fun r hr hid => hknown ⟨r, hr, hid⟩
    obtain ⟨row, hof, hexport⟩ : ∃ row, RowOf sha256 e (lastHash t) row ∧
        ∀ now, auditExport sha256 t e now = (t ++ [row], .ok (.str row.eventHash)) :=
      auditExport_fresh he hfresh
    exact Or.inl ⟨row, hof, hfresh, hexport⟩

/-- The time that the log could fill in changes nothing. -/
theorem auditExport_now (ht : Written sha256 t) {e : NewAuditEvent} (he : Exportable e)
    (now now' : String) : auditExport sha256 t e now = auditExport sha256 t e now' := by
  rcases auditExport_cases ht he with ⟨row, -, -, hexport⟩ | ⟨row, -, -, answer, hsame⟩
  · rw [hexport, hexport]
  · rw [hsame, hsame]

theorem written_export (ht : Written sha256 t) {e : NewAuditEvent} (he : Exportable e)
    (now : String) : Written sha256 (auditExport sha256 t e now).1 := by
  rcases auditExport_cases ht he with ⟨row, hof, hfresh, hexport⟩ | ⟨row, -, -, answer, hsame⟩
  · rw [hexport]
    refine Written.snoc ht hof ?_
    rw [hof.eventId]
    exact hfresh
  · rw [hsame]
    exact ht

theorem subset_export (ht : Written sha256 t) {e : NewAuditEvent} (he : Exportable e) (now : String)
    {row : AuditRow} (hrow : row ∈ t) : row ∈ (auditExport sha256 t e now).1 := by
  rcases auditExport_cases ht he with ⟨new, -, -, hexport⟩ | ⟨_, -, -, answer, hsame⟩
  · rw [hexport]
    exact List.mem_append_left _ hrow
  · rw [hsame]
    exact hrow

/-- The row an export was answered from. -/
theorem row_of_export (ht : Written sha256 t) {e : NewAuditEvent} (he : Exportable e)
    {now : String} {eventHash : Json} (h : (auditExport sha256 t e now).2 = .ok eventHash) :
    ∃ row ∈ (auditExport sha256 t e now).1, row.eventId = e.eventId ∧ ReadsAs row e ∧
      eventHash = .str row.eventHash := by
  rcases auditExport_cases ht he with ⟨row, hof, -, hexport⟩ | ⟨row, hrow, hid, answer, hsame⟩
  · rw [hexport] at h ⊢
    exact ⟨row, by simp, hof.eventId, readsAs_of_rowOf hof, (Except.ok.inj h).symm⟩
  · obtain ⟨hok, hconflict⟩ := auditExport_known ht he hrow hid
    rw [hsame]
    by_cases hreads : ReadsAs row e
    · rw [hok hreads] at h
      exact ⟨row, hrow, hid, hreads, (Except.ok.inj h).symm⟩
    · rw [hconflict hreads] at h
      cases h

/-- An export made again is answered as if it had not been made before. -/
theorem auditExport_again (ht : Written sha256 t) {e : NewAuditEvent} (he : Exportable e)
    (now now' : String) :
    auditExport sha256 (auditExport sha256 t e now).1 e now' = auditExport sha256 t e now' := by
  have hwritten := written_export ht he now
  rcases auditExport_cases ht he with ⟨row, hof, hfresh, hexport⟩ | ⟨row, hrow, hid, answer, hsame⟩
  · rw [hexport] at hwritten ⊢
    have hknown := auditExport_known hwritten he (List.mem_append_right t (List.mem_singleton_self row))
      hof.eventId
    rw [hknown.1 (readsAs_of_rowOf hof), hexport]
  · rw [hsame]

/-- An export that the log answered from a row is answered so whatever is exported
meanwhile. -/
theorem auditExport_kept (ht : Written sha256 t) {e e' : NewAuditEvent} (he : Exportable e)
    (he' : Exportable e') {now now' now'' : String} {eventHash : Json}
    (h : auditExport sha256 t e now = (t, .ok eventHash)) :
    auditExport sha256 (auditExport sha256 t e' now').1 e now'' =
      ((auditExport sha256 t e' now').1, .ok eventHash) := by
  obtain ⟨row, hrow, hid, hreads, rfl⟩ := row_of_export ht he (congrArg Prod.snd h)
  rw [h] at hrow
  have hknown := auditExport_known (written_export ht he' now') he (subset_export ht he' now' hrow) hid
  exact hknown.1 hreads now''

end

/-! ### The state store under repetition -/

section
variable {sha256 : String → String} {db : SqliteDb}
  {j : List (WorkflowLifecycleEvent × WorkflowRecord)}

/-- The answer to an event that was accepted before. -/
def replayOf (e : WorkflowLifecycleEvent) (record : WorkflowRecord) :
    Except StateError WorkflowTransitionResult :=
  .ok ⟨record, e.eventId, e.idempotencyKey, true⟩

/-- A journal that holds an event answers it from there. -/
theorem replayed_of_mem (h : Represents sha256 db j) {p : WorkflowLifecycleEvent × WorkflowRecord}
    (hp : p ∈ j) {e : WorkflowLifecycleEvent} (hv : e.validate = none)
    (hs : (lifecycleRules sha256 id).Same p.1 e) :
    applyWorkflowEvent sha256 db e = (db, replayOf e p.2) :=
  applyWorkflowEvent_replay h hp hv hs

/-- What the store has in its journal once it answered an event. -/
theorem entry_of_applied (h : Represents sha256 db j) {e : WorkflowLifecycleEvent}
    {res : WorkflowTransitionResult} (hres : (applyWorkflowEvent sha256 db e).2 = .ok res) :
    e.validate = none ∧ ∃ p ∈ (journalApply sha256 id true j e).1,
      (lifecycleRules sha256 id).Same p.1 e ∧ p.2 = res.record := by
  rw [(applyWorkflowEvent_refines h e).2] at hres
  obtain ⟨hv, -, -, hentry⟩ := journalApply_answered hres
  exact ⟨hv, hentry⟩

/-- An event applied again is answered from its receipt. -/
theorem apply_again (h : Represents sha256 db j) {e : WorkflowLifecycleEvent}
    {res : WorkflowTransitionResult} (hres : (applyWorkflowEvent sha256 db e).2 = .ok res) :
    applyWorkflowEvent sha256 (applyWorkflowEvent sha256 db e).1 e =
      ((applyWorkflowEvent sha256 db e).1, replayOf e res.record) := by
  obtain ⟨hv, p, hp, hsame, hrecord⟩ := entry_of_applied h hres
  rw [← hrecord]
  exact replayed_of_mem (applyWorkflowEvent_refines h e).1 hp hv hsame

/-- An event that changes nothing was in the journal. -/
theorem entry_of_unchanged (h : Represents sha256 db j) {e : WorkflowLifecycleEvent}
    {res : WorkflowTransitionResult} (happly : applyWorkflowEvent sha256 db e = (db, .ok res)) :
    e.validate = none ∧ ∃ p ∈ j, (lifecycleRules sha256 id).Same p.1 e ∧ p.2 = res.record := by
  obtain ⟨hv, p, hp, hentry⟩ := entry_of_applied h (congrArg Prod.snd happly)
  have hafter := (applyWorkflowEvent_refines h e).1
  rw [happly] at hafter
  have hlength : j.length = (journalApply sha256 id true j e).1.length := by
    have hreceipts := h.receipts.symm.trans hafter.receipts
    simpa using congrArg List.length hreceipts
  have hsame : j = (journalApply sha256 id true j e).1 :=
    (journalApply_grows e).eq_of_length hlength
  exact ⟨hv, p, hsame ▸ hp, hentry⟩

/-- A replayed event is still replayed after another one. -/
theorem apply_kept (h : Represents sha256 db j) {e e' : WorkflowLifecycleEvent}
    {res : WorkflowTransitionResult} (happly : applyWorkflowEvent sha256 db e = (db, .ok res)) :
    applyWorkflowEvent sha256 (applyWorkflowEvent sha256 db e').1 e =
      ((applyWorkflowEvent sha256 db e').1, replayOf e res.record) := by
  obtain ⟨hv, p, hp, hsame, hrecord⟩ := entry_of_unchanged h happly
  rw [← hrecord]
  exact replayed_of_mem (applyWorkflowEvent_refines h e').1 ((journalApply_grows e').subset hp) hv
    hsame

end

/-! ### The bridge under repetition -/

section
variable {sha256 : String → String} {s : BridgeStores}

/-- The state store holds a journal, and the audit log a chain. -/
structure BridgeStores.Sound (sha256 : String → String) (s : BridgeStores) : Prop where
  journal : ∃ j, Represents sha256 s.state j
  chain : Written sha256 s.audit

theorem BridgeStores.sound_empty : BridgeStores.empty.Sound sha256 :=
  ⟨⟨[], represents_empty⟩, .nil⟩

/-- A call that the state store refuses leaves both stores. -/
theorem deliver_refused {c : LifecycleCall} {x : StateError}
    (h : (applyWorkflowEvent sha256 s.state c.event).2 = .error x) (d : Delivery) :
    (deliver sha256 d s c).1 = s ∧ ∃ y, (deliver sha256 d s c).2 = .error y := by
  have hpair : applyWorkflowEvent sha256 s.state c.event = (s.state, .error x) :=
    Prod.ext (applyWorkflowEvent_raises h) h
  unfold deliver persistWorkflowLifecycle
  rw [hpair]
  cases d.cut with
  | none => exact ⟨rfl, _, rfl⟩
  | some cut =>
    cases cut with
    | stateStore => exact ⟨rfl, _, rfl⟩
    | auditLog => exact ⟨rfl, _, rfl⟩
    | answer => exact ⟨rfl, _, rfl⟩

theorem deliver_smooth {c : LifecycleCall} {db : SqliteDb} {res : WorkflowTransitionResult}
    (h : applyWorkflowEvent sha256 s.state c.event = (db, .ok res)) {d : Delivery} (hd : d.Smooth) :
    let exported := auditExport sha256 s.audit (auditEvent sha256 c.event res.record) d.now
    deliver sha256 d s c =
      (⟨db, exported.1⟩, (conclude c.event res exported.2).map (·.settled)) := by
  have hcut : d.cut = none := hd
  simp only [deliver, hcut, persistWorkflowLifecycle, h]

/-- How far a call can get in each of the stores. -/
theorem deliver_reaches (sha256 : String → String) (d : Delivery) (s : BridgeStores) (c : LifecycleCall) :
    ((deliver sha256 d s c).1.state = s.state ∨
      (deliver sha256 d s c).1.state = (applyWorkflowEvent sha256 s.state c.event).1) ∧
    ((deliver sha256 d s c).1.audit = s.audit ∨ ∃ record now, (deliver sha256 d s c).1.audit =
      (auditExport sha256 s.audit (auditEvent sha256 c.event record) now).1) := by
  unfold deliver persistWorkflowLifecycle
  obtain ⟨db, answer⟩ := applyWorkflowEvent sha256 s.state c.event
  cases d.cut with
  | none =>
    cases answer with
    | error x => exact ⟨Or.inr rfl, Or.inl rfl⟩
    | ok res => exact ⟨Or.inr rfl, Or.inr ⟨res.record, d.now, rfl⟩⟩
  | some cut =>
    cases cut with
    | stateStore => exact ⟨Or.inl rfl, Or.inl rfl⟩
    | auditLog =>
      cases answer with
      | error x => exact ⟨Or.inr rfl, Or.inl rfl⟩
      | ok res => exact ⟨Or.inr rfl, Or.inl rfl⟩
    | answer =>
      cases answer with
      | error x => exact ⟨Or.inr rfl, Or.inl rfl⟩
      | ok res => exact ⟨Or.inr rfl, Or.inr ⟨res.record, d.now, rfl⟩⟩

/-- A call that gets past the state store stops before the audit log, or after it. -/
theorem deliver_stops {c : LifecycleCall} {db : SqliteDb} {res : WorkflowTransitionResult}
    (h : applyWorkflowEvent sha256 s.state c.event = (db, .ok res)) (d : Delivery) :
    (deliver sha256 d s c).1 = s ∨ (deliver sha256 d s c).1 = ⟨db, s.audit⟩ ∨
      (deliver sha256 d s c).1 =
        ⟨db, (auditExport sha256 s.audit (auditEvent sha256 c.event res.record) d.now).1⟩ := by
  unfold deliver persistWorkflowLifecycle
  rw [h]
  cases d.cut with
  | none => exact Or.inr (Or.inr rfl)
  | some cut =>
    cases cut with
    | stateStore => exact Or.inl rfl
    | auditLog => exact Or.inr (Or.inl rfl)
    | answer => exact Or.inr (Or.inr rfl)

/-- Apart from the replay flag, an answer depends on the record alone. -/
theorem settled_conclude (e : WorkflowLifecycleEvent) (res : WorkflowTransitionResult)
    (exported : Except AuditError Json) :
    (conclude e ⟨res.record, e.eventId, e.idempotencyKey, true⟩ exported).map (·.settled) =
      (conclude e res exported).map (·.settled) := by
  cases exported with
  | error x => rfl
  | ok eventHash =>
    by_cases htruthy : eventHash.truthy = true
    · simp only [conclude, htruthy, if_true, Except.map, WorkflowLifecycleActivityResult.settled]
    · simp only [conclude, htruthy, Bool.false_eq_true, if_false, Except.map]

/-- Only a call that nothing cut short is answered. -/
theorem smooth_of_answered {d : Delivery} {c : LifecycleCall} {r : WorkflowLifecycleActivityResult}
    (h : (deliver sha256 d s c).2 = .ok r) : d.Smooth := by
  unfold deliver at h
  cases hcut : d.cut with
  | none => exact hcut
  | some cut =>
    rw [hcut] at h
    cases cut with
    | stateStore => cases h
    | auditLog =>
      dsimp only at h
      split at h <;> cases h
    | answer => cases h

theorem deliver_sound {d : Delivery} {c : LifecycleCall} (hs : s.Sound sha256) :
    (deliver sha256 d s c).1.Sound sha256 := by
  obtain ⟨j, hj⟩ := hs.journal
  obtain ⟨hstate, haudit⟩ := deliver_reaches sha256 d s c
  constructor
  · rcases hstate with hstate | hstate
    · rw [hstate]
      exact ⟨j, hj⟩
    · rw [hstate]
      exact ⟨_, (applyWorkflowEvent_refines hj c.event).1⟩
  · rcases haudit with haudit | ⟨record, now, haudit⟩
    · rw [haudit]
      exact hs.chain
    · rw [haudit]
      exact written_export hs.chain (exportable_auditEvent c record) now

theorem deliver_resumed {d d' : Delivery} {c : LifecycleCall} (hs : s.Sound sha256)
    (hd' : d'.Smooth) :
    deliver sha256 d' (deliver sha256 d s c).1 c = deliver sha256 d' s c := by
  obtain ⟨j, hj⟩ := hs.journal
  cases happly : (applyWorkflowEvent sha256 s.state c.event).2 with
  | error x => rw [(deliver_refused happly d).1]
  | ok res =>
    have hpair : applyWorkflowEvent sha256 s.state c.event =
        ((applyWorkflowEvent sha256 s.state c.event).1, .ok res) := Prod.ext rfl happly
    have hagain := apply_again hj happly
    have hconclude := settled_conclude c.event res
    rcases deliver_stops hpair d with hstop | hstop | hstop
    · rw [hstop]
    · rw [hstop, deliver_smooth hpair hd', deliver_smooth hagain hd']
      exact Prod.ext rfl (hconclude _)
    · rw [hstop, deliver_smooth hpair hd', deliver_smooth hagain hd']
      simp only [auditExport_again hs.chain (exportable_auditEvent c res.record)]
      exact Prod.ext rfl (hconclude _)

theorem deliver_answered {d d' : Delivery} {c : LifecycleCall}
    {r : WorkflowLifecycleActivityResult} (hs : s.Sound sha256) (hd' : d'.Smooth)
    (h : (deliver sha256 d s c).2 = .ok r) : deliver sha256 d' s c = deliver sha256 d s c := by
  have hd : d.Smooth := smooth_of_answered h
  cases happly : (applyWorkflowEvent sha256 s.state c.event).2 with
  | error x =>
    obtain ⟨-, y, hy⟩ := deliver_refused happly d
    rw [hy] at h
    cases h
  | ok res =>
    have hpair : applyWorkflowEvent sha256 s.state c.event =
        ((applyWorkflowEvent sha256 s.state c.event).1, .ok res) := Prod.ext rfl happly
    rw [deliver_smooth hpair hd, deliver_smooth hpair hd']
    simp only [auditExport_now hs.chain (exportable_auditEvent c res.record) d'.now d.now]

/-- What a call that changes nothing rests on. -/
theorem deliver_unchanged {d : Delivery} {c : LifecycleCall} {r : WorkflowLifecycleActivityResult}
    (h : deliver sha256 d s c = (s, .ok r)) :
    ∃ res eventHash, applyWorkflowEvent sha256 s.state c.event = (s.state, .ok res) ∧
      auditExport sha256 s.audit (auditEvent sha256 c.event res.record) d.now =
        (s.audit, .ok eventHash) ∧
      (conclude c.event res (.ok eventHash)).map (·.settled) = .ok r := by
  have hd : d.Smooth := smooth_of_answered (congrArg Prod.snd h)
  cases happly : (applyWorkflowEvent sha256 s.state c.event).2 with
  | error x =>
    obtain ⟨-, y, hy⟩ := deliver_refused happly d
    rw [h] at hy
    cases hy
  | ok res =>
    have hpair : applyWorkflowEvent sha256 s.state c.event =
        ((applyWorkflowEvent sha256 s.state c.event).1, .ok res) := Prod.ext rfl happly
    rw [deliver_smooth hpair hd] at h
    obtain ⟨hstores, hanswer⟩ := Prod.mk.inj h
    have hstate : (applyWorkflowEvent sha256 s.state c.event).1 = s.state :=
      congrArg BridgeStores.state hstores
    have haudit := congrArg BridgeStores.audit hstores
    cases hexport : (auditExport sha256 s.audit (auditEvent sha256 c.event res.record) d.now).2 with
    | error x =>
      rw [hexport] at hanswer
      cases hanswer
    | ok eventHash =>
      rw [hexport] at hanswer
      exact ⟨res, eventHash, Prod.ext hstate happly, Prod.ext haudit hexport, hanswer⟩

theorem deliver_kept {d d' : Delivery} {c c' : LifecycleCall} {r : WorkflowLifecycleActivityResult}
    (hs : s.Sound sha256) (hd' : d'.Smooth) (h : deliver sha256 d' s c = (s, .ok r)) :
    deliver sha256 d' (deliver sha256 d s c').1 c = ((deliver sha256 d s c').1, .ok r) := by
  obtain ⟨j, hj⟩ := hs.journal
  obtain ⟨res, eventHash, happly, hexport, hanswer⟩ := deliver_unchanged h
  obtain ⟨hstate, haudit⟩ := deliver_reaches sha256 d s c'
  set s' := (deliver sha256 d s c').1
  have happly' : applyWorkflowEvent sha256 s'.state c.event = (s'.state, replayOf c.event res.record) := by
    rcases hstate with hstate | hstate
    · obtain ⟨hv, p, hp, hsame, hrecord⟩ := entry_of_unchanged hj happly
      rw [hstate, ← hrecord]
      exact replayed_of_mem hj hp hv hsame
    · rw [hstate]
      exact apply_kept hj happly
  have hexport' : auditExport sha256 s'.audit (auditEvent sha256 c.event res.record) d'.now =
      (s'.audit, .ok eventHash) := by
    rcases haudit with haudit | ⟨record, now, haudit⟩
    · rw [haudit]
      exact hexport
    · rw [haudit]
      exact auditExport_kept hs.chain (exportable_auditEvent c _) (exportable_auditEvent c' _) hexport
  rw [deliver_smooth happly' hd']
  simp only [hexport']
  exact Prod.ext rfl ((settled_conclude c.event res _).trans hanswer)

/-- The bridge can be retried. -/
theorem bridge_retryable (sha256 : String → String) :
    Retryable (deliver sha256) Delivery.Smooth (BridgeStores.Sound sha256) :=
  ⟨deliver_sound, deliver_resumed, deliver_answered, deliver_kept⟩

end

end EngineeringIntelligence.Orchestration
