import EngineeringIntelligence.Framework.Fallible
import EngineeringIntelligence.Orchestration.BridgeRetries

namespace EngineeringIntelligence.Orchestration

open EngineeringIntelligence.Framework EngineeringIntelligence.State

/-! Event ids are told apart within a workflow by the state store, and over all workflows by
the audit log. -/

/-- A call of the bridge, and how it goes. -/
abbrev BridgeOp := LifecycleCall × Delivery

def bridgeStep (sha256 : String → String) (s : BridgeStores) (op : BridgeOp) :
    BridgeStores × Except BridgeError WorkflowLifecycleActivityResult :=
  deliver sha256 op.2 s op.1

def bridgeAfter (sha256 : String → String) (ops : List BridgeOp) : BridgeStores :=
  runState (bridgeStep sha256) .empty ops

/-- No two workflows share an event id. -/
def IdsApart (ops : List BridgeOp) : Prop :=
  ∀ op ∈ ops, ∀ op' ∈ ops, op.1.event.eventId = op'.1.event.eventId →
    op.1.event.workflowId = op'.1.event.workflowId

section
variable {sha256 : String → String}

/-- Equal fingerprints name equal payloads, up to the order of keys. -/
theorem canonicalPayload_of_fingerprint (hinj : Function.Injective sha256) (c c' : LifecycleCall)
    (h : c.event.fingerprint sha256 = c'.event.fingerprint sha256) :
    (Json.obj c.event.canonicalPayload).sortKeys = (Json.obj c'.event.canonicalPayload).sortKeys := by
  have hprinted : ∀ c : LifecycleCall, (Json.obj c.event.canonicalPayload).Printed := by
    intro c
    have hstr : ∀ o, (Json.optStr o).Printed := fun o =>
      PyValue.printed_of_proper _ (proper_optStr o)
    have hint : ∀ o, (Json.optInt o).Printed := fun o =>
      PyValue.printed_of_proper _ (proper_optInt o)
    have hattributes := PyValue.printed_of_proper _ c.proper
    exact ⟨trivial, trivial, trivial, trivial, trivial, trivial, trivial, trivial, trivial, hstr _,
      trivial, trivial, hstr _, trivial, hint _, hstr _, trivial, hattributes, trivial, trivial⟩
  have hdigest : sha256 (Json.obj c.event.canonicalPayload).dumps =
      sha256 (Json.obj c'.event.canonicalPayload).dumps := by
    have hlist := congrArg String.toList h
    simp only [WorkflowLifecycleEvent.fingerprint, String.toList_append] at hlist
    exact String.toList_inj.mp (List.append_cancel_left hlist)
  exact Json.dumps_injective (hprinted c) (hprinted c') (hinj hdigest)

/-- Events with one fingerprint have one content to be audited. -/
theorem hasContent_of_fingerprint (hinj : Function.Injective sha256) {c c' : LifecycleCall}
    (h : c.event.fingerprint sha256 = c'.event.fingerprint sha256) {record : WorkflowRecord}
    {s : StoredAuditEvent} (hs : (auditEvent sha256 c.event record).HasContent s) :
    (auditEvent sha256 c'.event record).HasContent s := by
  have hentry : ∀ f ∈ c'.event.canonicalPayload, ∃ g ∈ c.event.canonicalPayload,
      g.1 = f.1 ∧ g.2.sortKeys = f.2.sortKeys := fun f hf =>
    Json.mem_of_sortKeys_obj (canonicalPayload_of_fingerprint hinj c c' h).symm hf
  simp [WorkflowLifecycleEvent.canonicalPayload, Json.sortKeys, optStr_sortKeys] at hentry
  obtain ⟨hschema, hid, hkey, hworkflow, htenant, hservice, henvironment, hkind, hcorrelation,
    hcausation, hactor, haction, hfrom, hto, hexpected, -, hconsequential, hattributes, htime⟩ := hentry
  have hpayload : (Json.obj (auditPayload sha256 c.event record)).sortKeys =
      (Json.obj (auditPayload sha256 c'.event record)).sortKeys := by
    simp only [auditPayload, Json.sortKeys, Json.sortKeysFields, optStr_sortKeys, hschema, hid, hkey,
      htenant, hservice, henvironment, hkind, hcausation, hfrom, hto, hexpected, hconsequential,
      hattributes, h]
  have hstored : ∀ payload, (auditEvent sha256 c.event record).stored payload none none =
      (auditEvent sha256 c'.event record).stored payload none none := by
    intro payload
    have hname : (auditEvent sha256 c.event record).eventId =
        (auditEvent sha256 c'.event record).eventId := congrArg ("workflow-lifecycle:" ++ ·) hid
    unfold NewAuditEvent.stored
    rw [hname]
    change (⟨_, .str c.event.correlationId, .str c.event.actor, .str c.event.action,
      .str c.event.workflowId, _, .str c.event.occurredAt, _, _⟩ : StoredAuditEvent) = _
    rw [hcorrelation, hactor, haction, hworkflow, htime]
    rfl
  obtain ⟨payload, hdoc, hsame⟩ := hs
  refine ⟨payload, ?_, ?_⟩
  · rw [document_auditEvent, ← hpayload, ← document_auditEvent]
    exact hdoc
  · rw [← hstored]
    exact hsame

theorem readsAs_of_fingerprint (hinj : Function.Injective sha256) {c c' : LifecycleCall}
    (h : c.event.fingerprint sha256 = c'.event.fingerprint sha256) {record : WorkflowRecord}
    {row : AuditRow} (hrow : ReadsAs row (auditEvent sha256 c.event record)) :
    ReadsAs row (auditEvent sha256 c'.event record) := by
  obtain ⟨s, hrestored, hcontent⟩ := hrow
  exact ⟨s, hrestored, hasContent_of_fingerprint hinj h hcontent⟩

/-- A row was exported for one of the calls, with the record of its entry in the journal. -/
def RowFor (sha256 : String → String) (calls : List LifecycleCall)
    (j : List (WorkflowLifecycleEvent × WorkflowRecord)) (row : AuditRow) : Prop :=
  ∃ c ∈ calls, ∃ p ∈ j, (lifecycleRules sha256 id).Same p.1 c.event ∧
    row.eventId = "workflow-lifecycle:" ++ c.event.eventId ∧
    ReadsAs row (auditEvent sha256 c.event p.2)

/-- Both stores tell of the calls and of nothing else. -/
structure Traced (sha256 : String → String) (calls : List LifecycleCall) (s : BridgeStores) :
    Prop where
  chain : Written sha256 s.audit
  rows : ∃ j, Represents sha256 s.state j ∧ ∀ row ∈ s.audit, RowFor sha256 calls j row

variable {calls : List LifecycleCall} {s : BridgeStores}

theorem traced_empty : Traced sha256 calls .empty :=
  ⟨.nil, [], represents_empty, by simp [BridgeStores.empty]⟩

theorem RowFor.grown {j j' : List (WorkflowLifecycleEvent × WorkflowRecord)} (hj : j <+: j')
    {row : AuditRow} (h : RowFor sha256 calls j row) : RowFor sha256 calls j' row := by
  obtain ⟨c, hc, p, hp, hrest⟩ := h
  exact ⟨c, hc, p, hj.subset hp, hrest⟩

theorem traced_step (h : Traced sha256 calls s) {c : LifecycleCall} (hc : c ∈ calls) (d : Delivery) :
    Traced sha256 calls (deliver sha256 d s c).1 := by
  obtain ⟨j, hj, hrows⟩ := h.rows
  cases happly : (applyWorkflowEvent sha256 s.state c.event).2 with
  | error x =>
    rw [(deliver_refused happly d).1]
    exact h
  | ok res =>
    have hpair : applyWorkflowEvent sha256 s.state c.event =
        ((applyWorkflowEvent sha256 s.state c.event).1, .ok res) := Prod.ext rfl happly
    have hafter := (applyWorkflowEvent_refines hj c.event).1
    have hgrown : ∀ row ∈ s.audit, RowFor sha256 calls (journalApply sha256 id true j c.event).1 row :=
      fun row hrow => (hrows row hrow).grown (journalApply_grows c.event)
    have hexportable : Exportable (auditEvent sha256 c.event res.record) :=
      exportable_auditEvent c res.record
    rcases deliver_stops hpair d with hstop | hstop | hstop
    · rw [hstop]
      exact h
    · rw [hstop]
      exact ⟨h.chain, _, hafter, hgrown⟩
    · rw [hstop]
      refine ⟨written_export h.chain hexportable d.now, _, hafter, ?_⟩
      rcases auditExport_cases h.chain hexportable with
        ⟨new, hof, -, hexport⟩ | ⟨_, -, -, answer, hsame⟩
      · rw [hexport]
        intro row hrow
        rcases List.mem_append.mp hrow with hrow | hrow
        · exact hgrown row hrow
        · obtain ⟨-, p, hp, hsame, hrecord⟩ := entry_of_applied hj happly
          rw [List.mem_singleton.mp hrow]
          exact ⟨c, hc, p, hp, hsame, hof.eventId, hrecord ▸ readsAs_of_rowOf hof⟩
      · rw [hsame]
        exact hgrown

theorem auditId_injective {i i' : String}
    (h : "workflow-lifecycle:" ++ i = "workflow-lifecycle:" ++ i') : i = i' := by
  have htext := congrArg String.toList h
  simp only [String.toList_append] at htext
  exact String.toList_inj.mp (List.append_cancel_left htext)

/-- A hash in the log is a digest. -/
theorem hash_truthy (hdigest : ∀ text, sha256 text ≠ "") {e : NewAuditEvent} {previous : Option String}
    {row : AuditRow} (h : RowOf sha256 e previous row) : (Json.str row.eventHash).truthy = true := by
  obtain ⟨text, -, hhash⟩ := Option.map_eq_some_iff.mp h.hashed
  simp only [Json.truthy, ← hhash]
  simpa using hdigest text

/-- Entries of one workflow under one event id are one entry. -/
theorem entry_unique {j : List (WorkflowLifecycleEvent × WorkflowRecord)} {db : SqliteDb}
    (hj : Represents sha256 db j) {p q : WorkflowLifecycleEvent × WorkflowRecord} (hp : p ∈ j)
    (hq : q ∈ j) (hworkflow : p.1.workflowId = q.1.workflowId) (hid : p.1.eventId = q.1.eventId) :
    p = q := by
  have hnodup := hj.lawful.ident_nodup q.1.workflowId
  apply List.inj_on_of_nodup_map hnodup
  · exact List.mem_filter.mpr ⟨hp, decide_eq_true hworkflow⟩
  · exact List.mem_filter.mpr ⟨hq, decide_eq_true rfl⟩
  · exact hid

/-- An event that the state store takes is audited, if no other workflow's call carries its
event id. -/
theorem audited_of_applied (hinj : Function.Injective sha256) (hdigest : ∀ text, sha256 text ≠ "")
    (h : Traced sha256 calls s) {c : LifecycleCall}
    (hapart : ∀ c' ∈ calls, c'.event.eventId = c.event.eventId →
      c'.event.workflowId = c.event.workflowId)
    {res : WorkflowTransitionResult}
    (happly : (applyWorkflowEvent sha256 s.state c.event).2 = .ok res) (now : String) :
    (persistWorkflowLifecycle sha256 now s c).2.isOk = true := by
  obtain ⟨j, hj, hrows⟩ := h.rows
  have hexportable : Exportable (auditEvent sha256 c.event res.record) :=
    exportable_auditEvent c res.record
  have hpair : applyWorkflowEvent sha256 s.state c.event =
      ((applyWorkflowEvent sha256 s.state c.event).1, .ok res) := Prod.ext rfl happly
  obtain ⟨eventHash, hexport, htruthy⟩ : ∃ eventHash,
      (auditExport sha256 s.audit (auditEvent sha256 c.event res.record) now).2 = .ok eventHash ∧
        eventHash.truthy = true := by
    rcases auditExport_cases h.chain hexportable with ⟨row, hof, -, hexport⟩ | ⟨row, hrow, hid, -⟩
    · exact ⟨_, by rw [hexport], hash_truthy hdigest hof⟩
    · -- the row under the event's id was written for the same entry of the journal
      obtain ⟨c', hc', p', hp', hsame', hname, hreads⟩ := hrows row hrow
      obtain ⟨-, p, hp, hsame, hrecord⟩ := entry_of_applied hj happly
      have hevent : c'.event.eventId = c.event.eventId := auditId_injective (hname.symm.trans hid)
      have hworkflow := hapart c' hc' hevent
      have hentry : p' = p :=
        entry_unique (applyWorkflowEvent_refines hj c.event).1
          ((journalApply_grows c.event).subset hp') hp
          (hsame'.stream.trans (hworkflow.trans hsame.stream.symm))
          (hsame'.ident.trans (hevent.trans hsame.ident.symm))
      rw [hentry] at hsame' hreads
      have hfingerprint : c'.event.fingerprint sha256 = c.event.fingerprint sha256 :=
        hsame'.digest.symm.trans hsame.digest
      rw [hrecord] at hreads
      have hknown := auditExport_known h.chain hexportable hrow hid
      obtain ⟨e, previous, hof⟩ := h.chain.row hrow
      exact ⟨_, by rw [hknown.1 (readsAs_of_fingerprint hinj hfingerprint hreads)],
        hash_truthy hdigest hof⟩
  rw [persistWorkflowLifecycle, hpair]
  simp only [hexport, conclude, htruthy, if_true]
  rfl

theorem state_of_auditDown (s : BridgeStores) (c : LifecycleCall) {d : Delivery}
    (h : d.cut = some .auditLog) :
    (deliver sha256 d s c).1.state = (applyWorkflowEvent sha256 s.state c.event).1 := by
  unfold deliver
  rw [h]
  obtain ⟨db, answer⟩ := applyWorkflowEvent sha256 s.state c.event
  cases answer with
  | error x => rfl
  | ok res => rfl

/-- An event whose id another workflow's event was audited under is refused by the log, after
the state store took it. -/
theorem conflict_of_shared_id (hs : s.Sound sha256) {c c' : LifecycleCall} {record : WorkflowRecord}
    {row : AuditRow} (hrow : row ∈ s.audit)
    (hid : row.eventId = "workflow-lifecycle:" ++ c'.event.eventId)
    (hreads : ReadsAs row (auditEvent sha256 c.event record))
    (hother : c.event.workflowId ≠ c'.event.workflowId) {res : WorkflowTransitionResult}
    (happly : (applyWorkflowEvent sha256 s.state c'.event).2 = .ok res) {d : Delivery}
    (hd : d.Smooth) :
    (deliver sha256 d s c').2 = .error (.auditExportFailure retained (some auditConflict)) := by
  have hconflict : ¬ ReadsAs row (auditEvent sha256 c'.event res.record) := by
    intro hreads'
    obtain ⟨stored, hrestored, payload, -, hsame⟩ := hreads
    obtain ⟨other, hother', payload', -, hsame'⟩ := hreads'
    obtain rfl : stored = other := Option.some.inj ((hrestored _).symm.trans ( hother' ""))
    have hresource := hsame.resource.trans hsame'.resource.symm
    have hworkflow : Json.str c.event.workflowId = .str c'.event.workflowId := hresource
    exact hother (Json.str.inj hworkflow)
  have hexportable : Exportable (auditEvent sha256 c'.event res.record) :=
    exportable_auditEvent c' res.record
  have hknown := auditExport_known hs.chain hexportable hrow hid
  have hpair : applyWorkflowEvent sha256 s.state c'.event =
      ((applyWorkflowEvent sha256 s.state c'.event).1, .ok res) := Prod.ext rfl happly
  rw [deliver_smooth hpair hd]
  simp only [hknown.2 hconflict]
  rfl

theorem runActivity_persist_error {setup : ActivitySetup} {c : LifecycleCall} {calls : Nat → Delivery}
    {x : BridgeError} (h : (deliver sha256 (calls 0) s c).2 = .error x) :
    (runActivity sha256 setup (.persistWorkflowLifecycle c) s calls).2 = .error (.bridge x) := by
  unfold runActivity
  rw [BridgeActivity.script, attempt_of_error _ h]

/-- The row of the first event. -/
theorem audited_first {c : LifecycleCall} {d : Delivery} (hd : d.Smooth)
    {res : WorkflowTransitionResult} (happly : (applyWorkflowEvent sha256 .empty c.event).2 = .ok res) :
    ∃ row ∈ (bridgeAfter sha256 [(c, d)]).audit,
      row.eventId = "workflow-lifecycle:" ++ c.event.eventId ∧
        ReadsAs row (auditEvent sha256 c.event res.record) := by
  have hpair : applyWorkflowEvent sha256 BridgeStores.empty.state c.event =
      ((applyWorkflowEvent sha256 .empty c.event).1, .ok res) := Prod.ext rfl happly
  have hexportable : Exportable (auditEvent sha256 c.event res.record) :=
    exportable_auditEvent c res.record
  obtain ⟨row, hof, hexport⟩ : ∃ row, RowOf sha256 (auditEvent sha256 c.event res.record)
      (lastHash []) row ∧ ∀ now, auditExport sha256 [] (auditEvent sha256 c.event res.record) now =
        ([] ++ [row], .ok (.str row.eventHash)) :=
    auditExport_fresh hexportable (by simp)
  have haudit : (bridgeAfter sha256 [(c, d)]).audit = [row] := by
    change (deliver sha256 d .empty c).1.audit = [row]
    rw [deliver_smooth hpair hd]
    exact congrArg Prod.fst (hexport d.now)
  rw [haudit]
  exact ⟨row, List.mem_singleton_self row, hof.eventId, readsAs_of_rowOf hof⟩

end

/-- In a run in which no two workflows share an event id, every event that the state store
takes, when it comes or at any later time, is audited when the bridge is called with it. -/
theorem accepted_events_audited (sha256 : String → String) (hinj : Function.Injective sha256)
    (hdigest : ∀ text, sha256 text ≠ "") (ops : List BridgeOp) (hapart : IdsApart ops)
    (before : List BridgeOp) (hbefore : before <+: ops) (op : BridgeOp) (hop : op ∈ ops)
    (res : WorkflowTransitionResult)
    (happly : (applyWorkflowEvent sha256 (bridgeAfter sha256 before).state op.1.event).2 = .ok res)
    (now : String) :
    (persistWorkflowLifecycle sha256 now (bridgeAfter sha256 before) op.1).2.isOk = true := by
  have hmem : ∀ o ∈ before, o.1 ∈ ops.map (·.1) := fun o ho =>
    List.mem_map_of_mem (hbefore.subset ho)
  have hadmissible : ∀ (l : List BridgeOp) (s : BridgeStores), (∀ o ∈ l, o.1 ∈ ops.map (·.1)) →
      Admissible (bridgeStep sha256) (fun _ o => o.1 ∈ ops.map (·.1)) s l := by
    intro l
    induction l with
    | nil => intro s _; trivial
    | cons o l ih =>
      intro s hl
      exact ⟨hl o List.mem_cons_self, ih _ fun o' ho' => hl o' (List.mem_cons_of_mem _ ho')⟩
  have htraced : Traced sha256 (ops.map (·.1)) (bridgeAfter sha256 before) :=
    run_guarded (bridgeStep sha256) (P := Traced sha256 (ops.map (·.1)))
      (fun _ o hs ho => traced_step hs ho o.2) traced_empty (hadmissible before .empty hmem)
  apply audited_of_applied hinj hdigest htraced ?_ happly now
  intro c' hc' hid
  obtain ⟨op', hop', rfl⟩ := List.mem_map.mp hc'
  exact hapart op' hop' op hop hid

/-- SHA-256 on the two texts that are hashed for `receivedEvent`, and an injective digest
elsewhere. -/
def receivedDigests : String → String :=
  digestsAt
    [((Json.obj receivedEvent.canonicalPayload).dumps,
        "d9d0b86d252b3731fadde2acec32a2af2f95e7c3994bbc1e518ad56fa6b9b935"),
      (((auditEvent receivedSha256 receivedEvent ⟨"wf-1", "checkout", "production", "remediation",
          .received, "corr-1", none, 1, "2026-01-01T00:00:00+00:00", "default"⟩).canonical none).getD "",
        "40a78085d28025090eb63ac376dc6b1fb5ca12f69ae307c2e7b291f888be413f")]

theorem receivedDigests_injective : Function.Injective receivedDigests :=
  digestsAt_injective (by simp) (by simp)

theorem receivedDigests_ne_blank : ∀ text, receivedDigests text ≠ "" :=
  digestsAt_ne_blank (by simp)

/-- The audit log is down when the first event of a workflow comes; the state store has the
event, and it can still be audited. -/
theorem received_audited :
    (persistWorkflowLifecycle receivedDigests ""
      (bridgeAfter receivedDigests [(receivedCall, ⟨"", some .auditLog⟩)]) receivedCall).2.isOk =
        true := by
  obtain ⟨res, hres⟩ := isOk_iff.mp
    (show (applyWorkflowEvent receivedDigests .empty receivedEvent).2.isOk = true by decide +kernel)
  have hstate : (bridgeAfter receivedDigests [(receivedCall, ⟨"", some .auditLog⟩)]).state =
      (applyWorkflowEvent receivedDigests .empty receivedEvent).1 :=
    state_of_auditDown .empty receivedCall rfl
  have happly := apply_again represents_empty hres
  rw [← hstate] at happly
  refine accepted_events_audited receivedDigests receivedDigests_injective receivedDigests_ne_blank
    [(receivedCall, ⟨"", some .auditLog⟩)] ?_ _ List.prefix_rfl (receivedCall, ⟨"", some .auditLog⟩)
    List.mem_cons_self _ (congrArg Prod.snd happly) ""
  intro op hop op' hop' _
  rw [List.mem_singleton.mp hop, List.mem_singleton.mp hop']

/-- The first event of a workflow, under an event id that is only unique within it. -/
def sharedEvent (workflowId : String) : WorkflowLifecycleEvent :=
  { receivedEvent with eventId := "evt-1", idempotencyKey := "evt-1", workflowId := workflowId }

def sharedCall (workflowId : String) : LifecycleCall :=
  ⟨sharedEvent workflowId, receivedCall.proper⟩

def sharedFingerprint (text : String) : String :=
  if text = (Json.obj (sharedEvent "wf-1").canonicalPayload).dumps then
    "12448693b32d5dd912fb29d0f467dad3dbb47bd8463034d0c55db6b4c471cfc0"
  else "9b1de7de181a3e8ac913966ff3dac0c766ed0e40b07453570761468e554a09f0"

/-- SHA-256 on the texts that are hashed for the event in two workflows. -/
def sharedSha256 (text : String) : String :=
  if text = (Json.obj (sharedEvent "wf-1").canonicalPayload).dumps ∨
      text = (Json.obj (sharedEvent "wf-2").canonicalPayload).dumps then sharedFingerprint text
  else if some text = (auditEvent sharedFingerprint (sharedEvent "wf-1") ⟨"wf-1", "checkout",
      "production", "remediation", .received, "corr-1", none, 1, "2026-01-01T00:00:00+00:00",
      "default"⟩).canonical none then
    "29a182736ffeb41d980d4e30190f2e13c16da13143757fa7e2ad49c248b0a9f5"
  else "b3518e4fdbf5689832ec2929e3f7b079186f65b0fc63d2fef9a929aab2adb7a9"

/-- Two workflows use one event id: the state store takes both events, and the second is never
audited, however often it is tried. -/
theorem shared_event_id_never_audited :
    (applyWorkflowEvent sharedSha256 (bridgeAfter sharedSha256
      [(sharedCall "wf-1", ⟨"", none⟩)]).state (sharedCall "wf-2").event).2.isOk = true ∧
    ∀ tries, (runActivity sharedSha256 noPlans (.persistWorkflowLifecycle (sharedCall "wf-2"))
      (retried sharedSha256 noPlans (.persistWorkflowLifecycle (sharedCall "wf-2"))
        (bridgeAfter sharedSha256 [(sharedCall "wf-1", ⟨"", none⟩)]) tries)
      (fun _ => ⟨"", none⟩)).2 =
        .error (.bridge (.auditExportFailure retained (some auditConflict))) := by
  have hsound : (bridgeAfter sharedSha256 [(sharedCall "wf-1", ⟨"", none⟩)]).Sound sharedSha256 :=
    deliver_sound BridgeStores.sound_empty
  have hsmooth : ∀ n : Nat, ((fun _ => ⟨"", none⟩ : Nat → Delivery) n).Smooth := fun _ => rfl
  have hfirst : (applyWorkflowEvent sharedSha256 .empty (sharedCall "wf-1").event).2.isOk = true := by
    decide +kernel
  have hsecond : (applyWorkflowEvent sharedSha256 (bridgeAfter sharedSha256
      [(sharedCall "wf-1", ⟨"", none⟩)]).state (sharedCall "wf-2").event).2.isOk = true := by
    decide +kernel
  refine ⟨hsecond, ?_⟩
  intro tries
  obtain ⟨first, hfirst⟩ := isOk_iff.mp hfirst
  obtain ⟨second, hsecond⟩ := isOk_iff.mp hsecond
  obtain ⟨row, hrow, hid, hreads⟩ := audited_first (c := sharedCall "wf-1") (hsmooth 0) hfirst
  have hname : row.eventId = "workflow-lifecycle:" ++ (sharedCall "wf-2").event.eventId := hid
  have hconflict : (deliver sharedSha256 ⟨"", none⟩ (bridgeAfter sharedSha256
      [(sharedCall "wf-1", ⟨"", none⟩)]) (sharedCall "wf-2")).2 =
        .error (.auditExportFailure retained (some auditConflict)) :=
    conflict_of_shared_id hsound hrow hname hreads (by decide) hsecond (hsmooth 0)
  rw [runActivity_eq (retried_resumed hsound hsmooth _ tries)]
  exact runActivity_persist_error hconflict

end EngineeringIntelligence.Orchestration
