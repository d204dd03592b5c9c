import EngineeringIntelligence.Framework.Fallible
import EngineeringIntelligence.State.AuditChain

namespace EngineeringIntelligence.State

open EngineeringIntelligence.Framework

namespace NewAuditEvent

/-- The fields of an event in the order they are written, with the payload's document. -/
def written (e : NewAuditEvent) (payload : Json) (previousHash eventHash : Option String) :
    List (String × Json) :=
  [("action", .str e.action), ("actor", .str e.actor), ("correlation_id", .str e.correlationId),
    ("event_hash", .optStr eventHash), ("event_id", .str e.eventId),
    ("occurred_at", .str e.occurredAt), ("payload", payload),
    ("previous_hash", .optStr previousHash), ("resource", .str e.resource)]

theorem document_asdict (e : NewAuditEvent) (copy : Serialisation)
    (previousHash eventHash : Option String) :
    (e.asdict previousHash eventHash).document copy =
      (e.payload.document copy).map (fun p => .obj (e.written p previousHash eventHash)) := by
  cases hp : e.payload.document copy with
  | none => simp [asdict, PyValue.document, PyValue.documentEntries, hp]
  | some p =>
    cases previousHash <;> cases eventHash <;>
    simp only [asdict, PyValue.document, PyValue.documentEntries, hp, written]
    all_goals rfl

/-- The event as it reads once it is stored. -/
def stored (e : NewAuditEvent) (payload : Json) (previousHash eventHash : Option String) :
    StoredAuditEvent where
  eventId := .str e.eventId
  correlationId := .str e.correlationId
  actor := .str e.actor
  action := .str e.action
  resource := .str e.resource
  payload := payload
  occurredAt := .str e.occurredAt
  previousHash := .optStr previousHash
  eventHash := .optStr eventHash

theorem restore_written (e : NewAuditEvent) (payload : Json) (previousHash eventHash : Option String)
    (now : String) :
    StoredAuditEvent.restore now (.obj (e.written payload previousHash eventHash)) =
      some (e.stored payload previousHash eventHash) := by
  rfl

theorem sortKeys_fields (e : NewAuditEvent) {payload : Json} (hp : payload.sortKeys = payload)
    (previousHash eventHash : Option String) :
    (Json.obj (e.stored payload previousHash eventHash).fields).sortKeys =
      .obj (e.written payload previousHash eventHash) := by
  simp only [Json.sortKeys, Json.sortKeysFields, StoredAuditEvent.fields, stored, hp,
    optStr_sortKeys]
  simp [List.insertionSort, List.orderedInsert, written]

/-- What is hashed for an event is what verification hashes for the stored one. -/
theorem canonical_stored (e : NewAuditEvent) {payload : Json} (hp : payload.sortKeys = payload)
    (hsteady : e.payload.Steady) (hdoc : e.payload.document .storing = some payload)
    (previousHash eventHash : Option String) :
    e.canonical previousHash = some (e.stored payload previousHash eventHash).canonical := by
  have hfields := e.sortKeys_fields hp previousHash none
  rw [canonical, PyValue.dumps, document_asdict, PyValue.document_copy _ _ hsteady, hdoc]
  simp only [Option.map_some, Option.some.injEq]
  apply String.toList_inj.mp
  rw [String.toList_ofList, StoredAuditEvent.canonical, Json.dumps_eq_write]
  exact congrArg Json.write hfields.symm

/-- An event has the content of a stored one: equal texts, and payloads equal up to the order
of keys. -/
def HasContent (e : NewAuditEvent) (s : StoredAuditEvent) : Prop :=
  ∃ payload ∈ e.payload.document .storing,
    (e.stored payload none none).SameContent { s with previousHash := .null }

theorem identity_iff (e : NewAuditEvent) {payload : Json} (hp : payload.sortKeys = payload)
    (hsteady : e.payload.Steady) (hdoc : e.payload.document .storing = some payload)
    {s : StoredAuditEvent} (hs : Json.PrintedFields { s with eventHash := .null }.fields) :
    e.identity = some s.identity ↔ e.HasContent s := by
  have hfields := e.sortKeys_fields hp none none
  have hidentity : e.identity = some (Json.obj (e.stored payload none none).fields).dumps := by
    rw [identity, PyValue.dumps, document_asdict, PyValue.document_copy _ _ hsteady, hdoc]
    simp only [Option.map_some, Option.some.injEq]
    apply String.toList_inj.mp
    rw [String.toList_ofList, Json.dumps_eq_write, hfields]
  have hprinted : Json.PrintedFields (e.stored payload none none).fields :=
    ⟨trivial, trivial, trivial, trivial, trivial, PyValue.printed_document _ _ hdoc, trivial,
      trivial, trivial, trivial⟩
  have hprinted' : Json.PrintedFields { s with previousHash := .null, eventHash := .null }.fields := by
    obtain ⟨h1, h2, h3, h4, h5, h6, h7, -⟩ := hs
    exact ⟨h1, h2, h3, h4, h5, h6, h7, trivial, trivial, trivial⟩
  rw [hidentity, Option.some.injEq]
  constructor
  · intro h
    refine ⟨payload, hdoc, StoredAuditEvent.sameContent_of_fields ?_⟩
    exact Json.dumps_injective hprinted hprinted' h
  · intro h
    obtain ⟨payload', hdoc', hsame⟩ := h
    obtain rfl := Option.some.inj (hdoc.symm.trans hdoc')
    have hkeys := StoredAuditEvent.fields_of_sameContent hsame
    exact Json.dumps_eq_of_sortKeys hkeys

end NewAuditEvent

section
variable {sha256 : String → String}

/-- A row that was written for an event whose predecessor had the given hash. -/
structure RowOf (sha256 : String → String) (e : NewAuditEvent) (previous : Option String)
    (row : AuditRow) : Prop where
  steady : e.payload.Steady
  eventId : row.eventId = e.eventId
  hashed : (e.canonical previous).map sha256 = some row.eventHash
  payload : row.payload = (e.payload.document .storing).map
    (fun p => .obj (e.written p previous (some row.eventHash)))

/-- What a written row reads back as. -/
theorem RowOf.reads {e : NewAuditEvent} {previous : Option String} {row : AuditRow}
    (h : RowOf sha256 e previous row) :
    ∃ p, e.payload.document .storing = some p ∧ p.sortKeys = p ∧
      ∀ now, row.restored now = some (e.stored p previous (some row.eventHash)) := by
  cases hdoc : e.payload.document .storing with
  | none =>
    have hhashed := h.hashed
    rw [NewAuditEvent.canonical, PyValue.dumps, NewAuditEvent.document_asdict,
      PyValue.document_copy _ _ h.steady, hdoc] at hhashed
    cases hhashed
  | some p =>
    refine ⟨p, rfl, PyValue.sortKeys_document _ _ h.steady hdoc, ?_⟩
    intro now
    have hpayload := h.payload
    rw [hdoc, Option.map_some] at hpayload
    rw [AuditRow.restored, hpayload, Option.bind_some]
    exact e.restore_written p previous (some row.eventHash) now

/-- The tables that appending steady events builds: every row links to the one before, and no
event id stands twice. -/
inductive Written (sha256 : String → String) : AuditTable → Prop
  | nil : Written sha256 []
  | snoc {t : AuditTable} {e : NewAuditEvent} {row : AuditRow} : Written sha256 t →
      RowOf sha256 e (lastHash t) row → (∀ r ∈ t, r.eventId ≠ row.eventId) →
      Written sha256 (t ++ [row])

theorem Written.verified {t : AuditTable} (h : Written sha256 t) (clock : Nat → String) :
    verifyChain sha256 clock t = true := by
  induction h with
  | nil => rfl
  | @snoc t e row hwritten hrow hfresh ih =>
    obtain ⟨p, hdoc, hsorted, hreads⟩ := hrow.reads
    refine (verifyChain_snoc t row).mpr ⟨ih, _, hreads _, isHash_eq_true.mpr rfl, ?_⟩
    have hhashed := hrow.hashed
    rw [e.canonical_stored hsorted hrow.steady hdoc (lastHash t) (some row.eventHash)] at hhashed
    exact Option.some.inj hhashed

theorem Written.row {t : AuditTable} (h : Written sha256 t) {row : AuditRow} (hrow : row ∈ t) :
    ∃ e previous, RowOf sha256 e previous row := by
  induction h with
  | nil => cases hrow
  | @snoc t e new hwritten hnew hfresh ih =>
    rcases List.mem_append.mp hrow with hrow | hrow
    · exact ih hrow
    · rw [List.mem_singleton.mp hrow]
      exact ⟨e, _, hnew⟩

theorem Written.unique {t : AuditTable} (h : Written sha256 t) {row row' : AuditRow}
    (hrow : row ∈ t) (hrow' : row' ∈ t) (hid : row.eventId = row'.eventId) : row = row' := by
  induction h with
  | nil => cases hrow
  | @snoc t e new hwritten hnew hfresh ih =>
    rcases List.mem_append.mp hrow with hrow | hrow
    · rcases List.mem_append.mp hrow' with hrow' | hrow'
      · exact ih hrow hrow'
      · rw [List.mem_singleton.mp hrow'] at hid
        exact absurd hid (hfresh row hrow)
    · rcases List.mem_append.mp hrow' with hrow' | hrow'
      · rw [List.mem_singleton.mp hrow] at hid
        exact absurd hid.symm (hfresh row' hrow')
      · rw [List.mem_singleton.mp hrow, List.mem_singleton.mp hrow']

theorem Written.countP_id {t : AuditTable} (h : Written sha256 t) {row : AuditRow} (hrow : row ∈ t) :
    t.countP (fun r => r.eventId = row.eventId) = 1 := by
  induction h with
  | nil => cases hrow
  | @snoc t e new hwritten hnew hfresh ih =>
    rw [List.countP_append]
    rcases List.mem_append.mp hrow with hrow | hrow
    · have hother : ¬ new.eventId = row.eventId := fun hid => hfresh row hrow hid.symm
      rw [ih hrow]
      simp [hother]
    · rw [List.mem_singleton.mp hrow]
      have hnone : t.countP (fun r => r.eventId = new.eventId) = 0 :=
        List.countP_eq_zero.mpr fun r hr => by simpa using hfresh r hr
      rw [hnone]
      simp

/-- The row `append` prepares for an event, before it is known whether its id is new. -/
theorem prepared_row {e : NewAuditEvent} {p : Json} (hdoc : e.payload.document .storing = some p)
    (previous : Option String) (eventHash : String) :
    ∃ row, AuditRow.store e.eventId (e.asdict previous (some eventHash)) eventHash = some row ∧
      row.eventId = e.eventId ∧ row.eventHash = eventHash ∧
      row.payload = some (.obj (e.written p previous (some eventHash))) := by
  have hdocument : (e.asdict previous (some eventHash)).document .storing =
      some (.obj (e.written p previous (some eventHash))) := by
    rw [NewAuditEvent.document_asdict, hdoc]
    rfl
  unfold AuditRow.store
  split
  · next hnone =>
    rw [hdocument] at hnone
    cases hnone
  · next j hj =>
    obtain rfl := Option.some.inj (hdocument.symm.trans hj)
    exact ⟨_, rfl, rfl, rfl, rfl⟩

/-- An event that `json.dumps` refuses leaves the table as it is. -/
theorem auditAppend_refused {t : AuditTable} {e : NewAuditEvent} {now : String}
    (h : e.payload.document .hashing = none) :
    auditAppend sha256 t e now = (t, .error .unserialisable) := by
  have hcanonical : ∀ previous, e.canonical previous = none := by
    intro previous
    rw [NewAuditEvent.canonical, PyValue.dumps, NewAuditEvent.document_asdict, h]
    rfl
  unfold auditAppend
  simp only [hcanonical]

/-- An event under a new id becomes the next row. -/
theorem auditAppend_fresh {t : AuditTable} {e : NewAuditEvent} {p : Json} {now : String}
    (hsteady : e.payload.Steady) (hdoc : e.payload.document .storing = some p)
    (hfresh : ∀ r ∈ t, r.eventId ≠ e.eventId) :
    ∃ row, RowOf sha256 e (lastHash t) row ∧ auditAppend sha256 t e now =
      (t ++ [row], .ok (.finalized e (lastHash t) row.eventHash)) := by
  have hsorted := PyValue.sortKeys_document _ _ hsteady hdoc
  have hcanonical := e.canonical_stored hsorted hsteady hdoc (lastHash t) none
  obtain ⟨row, hstore, hid, hhash, hpayload⟩ := prepared_row hdoc (lastHash t)
    (sha256 (e.stored p (lastHash t) none).canonical)
  have hfind : t.find? (fun r => r.eventId = e.eventId) = none := by
    apply List.find?_eq_none.mpr
    intro r hr
    simpa using hfresh r hr
  refine ⟨row, ⟨hsteady, hid, ?_, ?_⟩, ?_⟩
  · rw [hcanonical, hhash]
    rfl
  · rw [hpayload, hdoc, hhash]
    rfl
  · unfold auditAppend
    simp only [hcanonical, hstore, hfind, hhash]

/-- An event under a known id is answered from its row: replayed if it has the row's
content, refused otherwise. The table stays as it is. -/
theorem auditAppend_known {t : AuditTable} {e : NewAuditEvent} {p : Json}
    (hwritten : Written sha256 t) (hsteady : e.payload.Steady)
    (hdoc : e.payload.document .storing = some p) {row : AuditRow} (hrow : row ∈ t)
    (hid : row.eventId = e.eventId) :
    ∃ s, (∀ now, row.restored now = some s) ∧
      (e.HasContent s → ∀ now, auditAppend sha256 t e now = (t, .ok (.replayed s))) ∧
      (¬ e.HasContent s → ∀ now, auditAppend sha256 t e now = (t, .error auditConflict)) := by
  have hsorted := PyValue.sortKeys_document _ _ hsteady hdoc
  have hcanonical := e.canonical_stored hsorted hsteady hdoc (lastHash t) none
  obtain ⟨new, hstore, -⟩ := prepared_row hdoc (lastHash t)
    (sha256 (e.stored p (lastHash t) none).canonical)
  have hfind : t.find? (fun r => r.eventId = e.eventId) = some row := by
    cases hf : t.find? (fun r => r.eventId = e.eventId) with
    | none =>
      have hnone := List.find?_eq_none.mp hf row hrow
      simp [hid] at hnone
    | some found =>
      have hfound : found.eventId = e.eventId := by simpa using List.find?_some hf
      rw [hwritten.unique (List.mem_of_find?_eq_some hf) hrow (hfound.trans hid.symm)]
  obtain ⟨e', previous, hof⟩ := hwritten.row hrow
  obtain ⟨p', -, -, hrestored⟩ := hof.reads
  have hprinted : Json.PrintedFields { e'.stored p' previous (some row.eventHash) with
      eventHash := .null }.fields := by
    obtain ⟨j, hj, hrestore⟩ := Option.bind_eq_some_iff.mp (hrestored "")
    exact StoredAuditEvent.printed_restore (row.printed j hj) hrestore
  have hiff := e.identity_iff hsorted hsteady hdoc hprinted
  obtain ⟨identity, hidentity⟩ : ∃ identity, e.identity = some identity := by
    rw [NewAuditEvent.identity, PyValue.dumps, NewAuditEvent.document_asdict,
      PyValue.document_copy _ _ hsteady, hdoc]
    exact ⟨_, rfl⟩
  rw [hidentity, Option.some.injEq] at hiff
  refine ⟨_, hrestored, ?_, ?_⟩
  · intro hcontent now
    have hsame := hiff.mpr hcontent
    unfold auditAppend
    simp only [hcanonical, hstore, hfind, hrestored, hidentity, hsame, ne_eq, not_true_eq_false, if_false]
  · intro hcontent now
    have hother : (e'.stored p' previous (some row.eventHash)).identity ≠ identity :=
      fun h => hcontent (hiff.mp h.symm)
    unfold auditAppend
    simp only [hcanonical, hstore, hfind, hrestored, hidentity]
    rw [if_pos hother]

/-- A call of `append`: the event, and the time it would fill in. -/
abbrev AuditOp := NewAuditEvent × String

def auditStep (sha256 : String → String) (t : AuditTable) (op : AuditOp) :
    AuditTable × Except AuditError AppendedEvent :=
  auditAppend sha256 t op.1 op.2

def tableAfter (sha256 : String → String) (ops : List AuditOp) : AuditTable :=
  runState (auditStep sha256) [] ops

/-- The payload reads back as it was written, unless `json.dumps` refuses it anyway. -/
def AuditOp.Sound (op : AuditOp) : Prop :=
  op.1.payload.Steady ∨ op.1.payload.document .hashing = none

/-- The table holds an event: a row under its id that reads back with its content. -/
def Holds (t : AuditTable) (e : NewAuditEvent) : Prop :=
  ∃ row ∈ t, row.eventId = e.eventId ∧ ∃ s, (∀ now, row.restored now = some s) ∧ e.HasContent s

/-- What a call does to a table: it leaves it alone, or adds the event's row. -/
theorem auditStep_cases {t : AuditTable} {op : AuditOp} (h : Written sha256 t) (hop : op.Sound) :
    ((auditStep sha256 t op).1 = t ∧ ∀ r, (auditStep sha256 t op).2 = .ok r → Holds t op.1) ∨
      ∃ row, RowOf sha256 op.1 (lastHash t) row ∧ (∀ r ∈ t, r.eventId ≠ row.eventId) ∧
        auditStep sha256 t op = (t ++ [row], .ok (.finalized op.1 (lastHash t) row.eventHash)) := by
  obtain ⟨e, now⟩ := op
  have hunchanged : ∀ {answer}, auditAppend sha256 t e now = (t, answer) →
      (∀ r, answer = .ok r → Holds t e) →
      (auditStep sha256 t (e, now)).1 = t ∧
        ∀ r, (auditStep sha256 t (e, now)).2 = .ok r → Holds t e := by
    intro answer happend hholds
    change (auditAppend sha256 t e now).1 = t ∧ ∀ r, (auditAppend sha256 t e now).2 = .ok r → _
    rw [happend]
    exact ⟨rfl, hholds⟩
  rcases hop with hsteady | hnone
  · cases hdoc : e.payload.document .storing with
    | none =>
      have hnone : e.payload.document .hashing = none := by
        rw [PyValue.document_copy _ _ hsteady, hdoc]
      exact Or.inl (hunchanged (auditAppend_refused hnone) (fun r hr => by cases hr))
    | some p =>
      by_cases hknown : ∃ row ∈ t, row.eventId = e.eventId
      · obtain ⟨row, hrow, hid⟩ := hknown
        obtain ⟨s, hrestored, hsame, hother⟩ := auditAppend_known h hsteady hdoc hrow hid
        by_cases hcontent : e.HasContent s
        · exact Or.inl (hunchanged (hsame hcontent now)
            (fun _ _ => ⟨row, hrow, hid, s, hrestored, hcontent⟩))
        · exact Or.inl (hunchanged (hother hcontent now) (fun r hr => by cases hr))
      · have hfresh : ∀ r ∈ t, r.eventId ≠ e.eventId := fun r hr hid => hknown ⟨r, hr, hid⟩
        obtain ⟨row, hof, happend⟩ : ∃ row, RowOf sha256 e (lastHash t) row ∧
            auditAppend sha256 t e now =
              (t ++ [row], .ok (.finalized e (lastHash t) row.eventHash)) :=
          auditAppend_fresh hsteady hdoc hfresh
        refine Or.inr ⟨row, hof, ?_, happend⟩
        intro r hr
        rw [hof.eventId]
        exact hfresh r hr
  · exact Or.inl (hunchanged (auditAppend_refused hnone) (fun r hr => by cases hr))

theorem written_step {t : AuditTable} {op : AuditOp} (h : Written sha256 t) (hop : op.Sound) :
    Written sha256 (auditStep sha256 t op).1 := by
  rcases auditStep_cases h hop with ⟨hsame, -⟩ | ⟨row, hof, hfresh, hstep⟩
  · rw [hsame]
    exact h
  · rw [hstep]
    exact Written.snoc h hof hfresh

theorem holds_of_ok {t : AuditTable} {op : AuditOp} (h : Written sha256 t) (hop : op.Sound)
    {r : AppendedEvent} (hr : (auditStep sha256 t op).2 = .ok r) :
    Holds (auditStep sha256 t op).1 op.1 := by
  rcases auditStep_cases h hop with ⟨hsame, hholds⟩ | ⟨row, hof, -, hstep⟩
  · rw [hsame]
    exact hholds r hr
  · rw [hstep]
    obtain ⟨p, hdoc, -, hreads⟩ := hof.reads
    exact ⟨row, by simp, hof.eventId, _, hreads, p, hdoc, rfl, rfl, rfl, rfl, rfl, rfl, rfl, rfl⟩

theorem holds_step {t : AuditTable} {op : AuditOp} (h : Written sha256 t) (hop : op.Sound)
    {e : NewAuditEvent} (he : Holds t e) : Holds (auditStep sha256 t op).1 e := by
  rcases auditStep_cases h hop with ⟨hsame, -⟩ | ⟨row, -, -, hstep⟩
  · rw [hsame]
    exact he
  · rw [hstep]
    obtain ⟨row', hrow', hrest⟩ := he
    exact ⟨row', List.mem_append_left _ hrow', hrest⟩

/-- The table after a run, with everything it says to one more call. -/
structure AuditLaw (sha256 : String → String) (ops : List AuditOp) : Prop where
  verified : ∀ clock, verifyChain sha256 clock (tableAfter sha256 ops) = true
  replayed : ∀ before op after, ops = before ++ op :: after →
    ∀ r, (auditStep sha256 (tableAfter sha256 before) op).2 = .ok r →
      ∃ row ∈ tableAfter sha256 ops, row.eventId = op.1.eventId ∧ ∃ s, op.1.HasContent s ∧
        ∀ now, row.restored now = some s ∧ auditAppend sha256 (tableAfter sha256 ops) op.1 now =
          (tableAfter sha256 ops, .ok (.replayed s))
  conflicts : ∀ e : NewAuditEvent, e.payload.Steady → (e.payload.document .storing).isSome = true →
    ∀ row ∈ tableAfter sha256 ops, row.eventId = e.eventId → ∃ s, ∀ now, row.restored now = some s ∧
      (¬ e.HasContent s → auditAppend sha256 (tableAfter sha256 ops) e now =
        (tableAfter sha256 ops, .error auditConflict))

theorem admissible_of_sound {ops : List AuditOp} (h : ∀ op ∈ ops, op.Sound) (t : AuditTable) :
    Admissible (auditStep sha256) (fun _ op => op.Sound) t ops := by
  induction ops generalizing t with
  | nil => trivial
  | cons op ops ih =>
    exact ⟨h op List.mem_cons_self, ih (fun o ho => h o (List.mem_cons_of_mem _ ho)) _⟩

theorem written_after {ops : List AuditOp} (h : ∀ op ∈ ops, op.Sound) :
    Written sha256 (tableAfter sha256 ops) :=
  run_guarded (auditStep sha256) (fun _ _ => written_step) Written.nil (admissible_of_sound h [])

/-- After any run of appends whose payloads read back as they were written, the chain
verifies, an event that was accepted is replayed, and other content under a known id is
refused; neither changes the table. -/
theorem audit_log_law (sha256 : String → String) (ops : List AuditOp)
    (h : ∀ op ∈ ops, op.Sound) : AuditLaw sha256 ops := by
  have hwritten : Written sha256 (tableAfter sha256 ops) := written_after h
  refine ⟨hwritten.verified, ?_, ?_⟩
  · intro before op after hops r hr
    have hbefore : Written sha256 (tableAfter sha256 before) :=
      written_after (fun o ho => h o (by rw [hops]; exact List.mem_append_left _ ho))
    have hop : op.Sound := h op (by rw [hops]; simp)
    have hafter : ∀ o ∈ after, o.Sound := fun o ho => h o (by rw [hops]; simp [ho])
    have hrun : tableAfter sha256 ops =
        runState (auditStep sha256) (auditStep sha256 (tableAfter sha256 before) op).1 after := by
      rw [tableAfter, hops, runState_append]
      rfl
    -- the rows of an event stay, whatever is appended later
    have hholds : Written sha256 (tableAfter sha256 ops) ∧ Holds (tableAfter sha256 ops) op.1 := by
      rw [hrun]
      exact run_guarded (auditStep sha256) (P := fun t => Written sha256 t ∧ Holds t op.1)
        (fun t o ht ho => ⟨written_step ht.1 ho, holds_step ht.1 ho ht.2⟩)
        ⟨written_step hbefore hop, holds_of_ok hbefore hop hr⟩ (admissible_of_sound hafter _)
    have hsteady : op.1.payload.Steady := by
      rcases hop with hsteady | hnone
      · exact hsteady
      · have hrefused : auditStep sha256 (tableAfter sha256 before) op =
            (tableAfter sha256 before, .error .unserialisable) := auditAppend_refused hnone
        rw [hrefused] at hr
        cases hr
    obtain ⟨row, hrow, hid, s, hrestored, hcontent⟩ := hholds.2
    have hdocument := hcontent
    obtain ⟨p, hdoc, -⟩ := hdocument
    obtain ⟨s', hreads, hsame, -⟩ := auditAppend_known hwritten hsteady hdoc hrow hid
    obtain rfl : s = s' := Option.some.inj ((hrestored "").symm.trans (hreads ""))
    exact ⟨row, hrow, hid, s, hcontent, fun now => ⟨hrestored now, hsame hcontent now⟩⟩
  · intro e hsteady hsome row hrow hid
    obtain ⟨p, hdoc⟩ := Option.isSome_iff_exists.mp hsome
    obtain ⟨s, hrestored, -, hother⟩ := auditAppend_known hwritten hsteady hdoc hrow hid
    exact ⟨s, fun now => ⟨hrestored now, fun hcontent => hother hcontent now⟩⟩

end

/-- A planning step, audited. -/
def plannedEvent : NewAuditEvent where
  eventId := "evt-1"
  correlationId := "corr-1"
  actor := "agent:auditor"
  action := "workflow.planned"
  resource := "workflow:wf-1"
  payload := .dict [(.str "version", .int 2), (.str "status", .str "planned")]
  occurredAt := "2026-01-01T00:00:00+00:00"

theorem plannedEvent_steady : plannedEvent.payload.Steady :=
  ⟨⟨by decide, by simp [PyKey.number]⟩, trivial, trivial, trivial⟩

/-- Appended twice, the planning step is stored once. -/
theorem planned_replayed :
    (tableAfter plannedSha256 [(plannedEvent, ""), (plannedEvent, "")]).length = 1 ∧
      AuditLaw plannedSha256 [(plannedEvent, ""), (plannedEvent, "")] := by
  have hsound : ∀ n, ∀ op ∈ List.replicate n (plannedEvent, ""), AuditOp.Sound op := by
    intro n op hop
    rw [List.eq_of_mem_replicate hop]
    exact Or.inl plannedEvent_steady
  have honce : (tableAfter plannedSha256 [(plannedEvent, "")]).length = 1 := by decide +kernel
  have htaken : (auditAppend plannedSha256 [] plannedEvent "").2.isOk = true := by decide +kernel
  -- the second call meets the table of the first
  obtain ⟨r, hfirst⟩ := isOk_iff.mp htaken
  obtain ⟨_, -, -, s, -, hagain⟩ :=
    (audit_log_law plannedSha256 [(plannedEvent, "")] (hsound 1)).replayed [] (plannedEvent, "") [] rfl r hfirst
  have hstep : ∀ t, (auditStep plannedSha256 t (plannedEvent, "")).1 =
      (auditAppend plannedSha256 t plannedEvent "").1 := fun _ => rfl
  have htwice : tableAfter plannedSha256 ([(plannedEvent, "")] ++ [(plannedEvent, "")]) =
      tableAfter plannedSha256 [(plannedEvent, "")] := by
    rw [tableAfter, runState_append, runState_cons, runState_nil, ← tableAfter, hstep, (hagain "").2]
  refine ⟨?_, audit_log_law plannedSha256 _ (hsound 2)⟩
  rw [← honce, ← htwice]
  rfl

/-- The planning step with a mapping keyed by numbers in its payload. -/
def numberedEvent : NewAuditEvent :=
  { plannedEvent with
    payload := .dict [(.str "attempts", .dict [(.int 2, .str "timeout"), (.int 10, .str "ok")])] }

/-- SHA-256 on what is hashed for `numberedEvent`, and on what is hashed once it is read back
with its keys in the order of their texts. -/
def numberedSha256 (text : String) : String :=
  if some text = numberedEvent.canonical none then
    "e5ba440988c36364e91f5a75861f0fdda5d6f4ba520a27c72de9298f58b3b326"
  else "78cff6154cd7e428cc8cfbba3bedf454f04482a055fd8844df0a9f8def492aa9"

theorem numbered_keys_break_chain :
    (auditAppend numberedSha256 [] numberedEvent "").2.isOk = true ∧
      verifyChain numberedSha256 (fun _ => "") (tableAfter numberedSha256 [(numberedEvent, "")]) =
        false := by
  decide +kernel

end EngineeringIntelligence.State
