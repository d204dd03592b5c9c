import EngineeringIntelligence.CompanyBrain.EvidencePairs
import EngineeringIntelligence.CompanyBrain.Lifecycle

namespace EngineeringIntelligence.CompanyBrain

open EngineeringIntelligence.Framework

/-! What `audit_events` tells about one record. -/

namespace BrainAuditEvent

/-- The event without its place in the table. -/
def unnumbered (e : BrainAuditEvent) : BrainAuditEvent := { e with sequence := 0 }

def address (e : BrainAuditEvent) : String × String × String := (e.tenantId, e.recordType, e.recordKey)

end BrainAuditEvent

/-- The event of a write to a record, before it is numbered. -/
def StoreAnswer.event (r : StoreAnswer) (ref : RecordRef) (operation : String) : BrainAuditEvent :=
  ⟨0, ref.tenant, ref.recordType, ref.recordKey, operation, r.life.version, r.life.updatedAt,
    r.life.provenance, r.life.deletionReason⟩

@[simp] theorem StoreAnswer.address_event (r : StoreAnswer) (ref : RecordRef) (operation : String) :
    (r.event ref operation).address = ref.address := rfl

/-- What the write that left a row is called. -/
def writeName (first : Bool) (r : StoreAnswer) : String :=
  if first then "created" else if r.life.isActive then "updated" else "tombstoned"

/-- The events of the writes to a list of records. -/
def eventsOf (s s' : Store) (refs : List RecordRef) : List BrainAuditEvent :=
  refs.filterMap fun ref =>
    (s'.row ref).map fun new => new.event ref (writeName (s.row ref).isNone new)

theorem unnumbered_appendEvent {α : Type} (s : Store) (recordType recordKey operation : String)
    (r : Stored α) :
    (s.appendEvent recordType recordKey operation r).auditEvents.map BrainAuditEvent.unnumbered =
      s.auditEvents.map BrainAuditEvent.unnumbered ++ [⟨0, r.tenantId, recordType, recordKey, operation,
        r.version, r.updatedAt, r.provenance, r.deletionReason⟩] := by
  simp [Store.appendEvent, BrainAuditEvent.unnumbered]

section
variable (s : Store)

theorem row_entity (tenant entityId : String) :
    s.row (.entity tenant entityId) = (s.entityRow tenant entityId).map .entity := rfl

theorem row_evidence (tenant evidenceId : String) :
    s.row (.evidence tenant evidenceId) = (s.evidenceRow tenant evidenceId).map .evidence := rfl

theorem row_relationship (tenant : String) (k : EdgeKey) :
    s.row (.relationship tenant k) = (s.relationshipRow tenant k).map .relationship := rfl

theorem row_writeEntity {tenant entityId : String} {r : StoredEntity}
    (h : r.rowKey = (tenant, entityId)) :
    (s.writeEntity r).row (.entity tenant entityId) = some (.entity r) := by
  rw [row_entity, Store.entityRow_writeEntity, if_pos h.symm, Option.map_some]

theorem row_writeEvidence {tenant evidenceId : String} {r : StoredEvidence}
    (h : r.rowKey = (tenant, evidenceId)) :
    (s.writeEvidence r).row (.evidence tenant evidenceId) = some (.evidence r) := by
  rw [row_evidence, Store.evidenceRow_writeEvidence, if_pos h.symm, Option.map_some]

theorem row_writeRelationship {tenant : String} {k : EdgeKey} {r : StoredRelationship}
    (h : r.rowKey = (tenant, k)) :
    (s.writeRelationship r).row (.relationship tenant k) = some (.relationship r) := by
  rw [row_relationship, Store.relationshipRow_writeRelationship, if_pos h.symm, Option.map_some]

end

@[simp] theorem auditEvents_writeEntity (s : Store) (r : StoredEntity) :
    (s.writeEntity r).auditEvents = s.auditEvents := rfl

theorem writeName_active {first : Bool} {r : StoreAnswer} (h : r.life.isActive = true) :
    writeName first r = if first then "created" else "updated" := by
  simp [writeName, h]

theorem writeName_dead {r : StoreAnswer} (h : r.life.isActive = false) :
    writeName false r = "tombstoned" := by
  simp [writeName, h]

@[simp] theorem eventsOf_nil (s s' : Store) : eventsOf s s' [] = [] := rfl

theorem eventsOf_cons {s s' : Store} {ref : RecordRef} {new : StoreAnswer}
    (h : s'.row ref = some new) (refs : List RecordRef) :
    eventsOf s s' (ref :: refs) =
      new.event ref (writeName (s.row ref).isNone new) :: eventsOf s s' refs := by
  simp [eventsOf, h]

/-- An accepted write appends the events of the records it changes, in their order. -/
theorem step_events {s s' : Store} {op : StoreOp} {a : StoreAnswer} (h : s.step op = (s', .ok a)) :
    s'.auditEvents.map BrainAuditEvent.unnumbered =
      s.auditEvents.map BrainAuditEvent.unnumbered ++ eventsOf s s' op.writes := by
  cases op with
  | putEntity tenant entity terms now =>
    obtain ⟨stored, hstored, -⟩ := Store.answered h
    obtain ⟨-, hrevise, hs'⟩ := Store.putEntity_ok_iff.mp hstored
    obtain ⟨-, -, rfl⟩ := revise_ok_iff.mp hrevise
    have hrow : s'.row (.entity tenant entity.entityId) =
        some (.entity (revised (s.entityRow tenant entity.entityId) tenant entity terms now)) := by
      rw [hs']
      exact row_writeEntity s rfl
    rw [StoreOp.writes, eventsOf_cons hrow, eventsOf_nil, hs', unnumbered_appendEvent,
      writeName_active rfl, row_entity, Option.isNone_map]
    rfl
  | putEvidence tenant evidence terms now entityNow =>
    obtain ⟨stored, hstored, -⟩ := Store.answered h
    obtain ⟨-, hrevise, entity, structural, hentity, hstructural, hs'⟩ :=
      Store.putEvidence_ok_iff.mp hstored
    obtain ⟨-, -, rfl⟩ := revise_ok_iff.mp hrevise
    obtain ⟨-, -, hrevised⟩ := revise_ok_iff.mp hstructural
    have hid := (BrainEntity.make_eq_ok hentity).1
    have hkey : StoredEntity.rowKey structural = (tenant, evidence.evidenceId) := by
      rw [hrevised, ← hid]
      rfl
    have hactive : (StoreAnswer.entity structural).life.isActive = true := by rw [hrevised]; rfl
    have hrow : s'.row (.evidence tenant evidence.evidenceId) = some (.evidence
        (revised (s.evidenceRow tenant evidence.evidenceId) tenant evidence terms now)) := by
      rw [hs']
      exact row_writeEvidence s rfl
    have hrow' : s'.row (.entity tenant evidence.evidenceId) = some (.entity structural) := by
      rw [hs']
      exact row_writeEntity _ hkey
    have htenant : structural.tenantId = tenant := (Prod.mk.inj hkey).1
    rw [StoreOp.writes, eventsOf_cons hrow, eventsOf_cons hrow', eventsOf_nil, hs',
      unnumbered_appendEvent, auditEvents_writeEntity, unnumbered_appendEvent, writeName_active rfl,
      writeName_active hactive, row_entity, row_evidence, Option.isNone_map, Option.isNone_map,
      List.append_assoc, htenant]
    rfl
  | putRelationship tenant relationship terms now =>
    obtain ⟨stored, hstored, -⟩ := Store.answered h
    obtain ⟨-, -, hrevise, hs'⟩ := Store.putRelationship_ok_iff.mp hstored
    obtain ⟨-, -, rfl⟩ := revise_ok_iff.mp hrevise
    have hrow : s'.row (.relationship tenant relationship.key) = some (.relationship
        (revised (s.relationshipRow tenant relationship.key) tenant relationship terms now)) := by
      rw [hs']
      exact row_writeRelationship s rfl
    rw [StoreOp.writes, eventsOf_cons hrow, eventsOf_nil, hs', unnumbered_appendEvent,
      writeName_active rfl, row_relationship, Option.isNone_map]
    rfl
  | deleteEntity tenant entityId terms now =>
    obtain ⟨stored, hstored, -⟩ := Store.answered h
    obtain ⟨-, time, current, -, hcurrent, rfl, hs'⟩ := Store.deleteEntity_ok_iff.mp hstored
    have hfound := (deletable_ok_iff.mp hcurrent).1
    have hkey := entityRow_key hfound
    have hrow : s'.row (.entity tenant entityId) =
        some (.entity (tombstone current terms.reason time)) := by
      rw [hs']
      exact row_writeEntity s hkey
    have htenant : (tombstone current terms.reason time).tenantId = tenant := (Prod.mk.inj hkey).1
    rw [StoreOp.writes, eventsOf_cons hrow, eventsOf_nil, hs', unnumbered_appendEvent, row_entity,
      hfound, Option.map_some, Option.isNone_some, writeName_dead rfl, htenant]
    rfl
  | deleteEvidence tenant evidenceId terms now =>
    obtain ⟨stored, hstored, -⟩ := Store.answered h
    obtain ⟨-, time, current, structural, -, hcurrent, hstructural, rfl, hs'⟩ :=
      Store.deleteEvidence_ok_iff.mp hstored
    have hfound := (deletable_ok_iff.mp hcurrent).1
    have hfound' := (Store.structuralEntity_ok_iff.mp hstructural).1
    have hkey := evidenceRow_key hfound
    have hkey' := entityRow_key hfound'
    have hrow : s'.row (.evidence tenant evidenceId) =
        some (.evidence (tombstone current terms.reason time)) := by
      rw [hs']
      exact row_writeEvidence s hkey
    have hrow' : s'.row (.entity tenant evidenceId) =
        some (.entity (tombstone structural terms.reason time)) := by
      rw [hs']
      exact row_writeEntity _ hkey'
    have htenant : (tombstone current terms.reason time).tenantId = tenant := (Prod.mk.inj hkey).1
    have htenant' : (tombstone structural terms.reason time).tenantId = tenant :=
      (Prod.mk.inj hkey').1
    rw [StoreOp.writes, eventsOf_cons hrow, eventsOf_cons hrow', eventsOf_nil, hs',
      unnumbered_appendEvent, auditEvents_writeEntity, unnumbered_appendEvent, row_entity, row_evidence,
      hfound, hfound', Option.map_some, Option.map_some, Option.isNone_some, Option.isNone_some,
      writeName_dead rfl, writeName_dead rfl, List.append_assoc, htenant, htenant']
    rfl
  | deleteRelationship tenant k terms now =>
    obtain ⟨stored, hstored, -⟩ := Store.answered h
    obtain ⟨-, time, current, -, hcurrent, rfl, hs'⟩ := Store.deleteRelationship_ok_iff.mp hstored
    have hfound := (deletable_ok_iff.mp hcurrent).1
    have hkey := relationshipRow_key hfound
    have hrow : s'.row (.relationship tenant k) =
        some (.relationship (tombstone current terms.reason time)) := by
      rw [hs']
      exact row_writeRelationship s hkey
    have htenant : (tombstone current terms.reason time).tenantId = tenant := (Prod.mk.inj hkey).1
    have hedge : current.record.key = k := (Prod.mk.inj hkey).2
    rw [StoreOp.writes, eventsOf_cons hrow, eventsOf_nil, hs', unnumbered_appendEvent, row_relationship,
      hfound, Option.map_some, Option.isNone_some, writeName_dead rfl, htenant, hedge]
    rfl

/-! ### The trail of one record -/

/-- The row an operation leaves of a record, if it is an accepted write to it. -/
def rowWritten (ref : RecordRef) (s : Store) (op : StoreOp) : List StoreAnswer :=
  if (s.step op).2.isOk = true ∧ ref ∈ op.writes then ((s.step op).1.row ref).toList else []

/-- The rows a record went through in a run, one for each accepted write to it. -/
def lifeOf (ref : RecordRef) (s : Store) : List StoreOp → List StoreAnswer
  | [] => []
  | op :: ops => rowWritten ref s op ++ lifeOf ref (s.step op).1 ops

/-- The audit events these rows call for. -/
def trail (ref : RecordRef) (rows : List StoreAnswer) : List BrainAuditEvent :=
  rows.mapIdx fun i r => r.event ref (writeName (i == 0) r)

theorem lifeOf_append (ref : RecordRef) (s : Store) (ops : List StoreOp) (op : StoreOp) :
    lifeOf ref s (ops ++ [op]) = lifeOf ref s ops ++ rowWritten ref (runState Store.step s ops) op := by
  induction ops generalizing s with
  | nil => simp [lifeOf]
  | cons first ops ih =>
    rw [List.cons_append, lifeOf, lifeOf, ih, List.append_assoc]
    rfl

theorem trail_append (ref : RecordRef) (rows : List StoreAnswer) (r : StoreAnswer) :
    trail ref (rows ++ [r]) = trail ref rows ++ [r.event ref (writeName rows.isEmpty r)] := by
  have hfirst : (rows.length == 0) = rows.isEmpty := by
    cases rows <;> rfl
  rw [trail, List.mapIdx_append, trail, ← hfirst]
  simp

section
variable {s : Store} {op : StoreOp} {ref : RecordRef}

theorem rowWritten_of_not (h : ¬ ((s.step op).2.isOk = true ∧ ref ∈ op.writes)) :
    rowWritten ref s op = [] := if_neg h

theorem rowWritten_of {new : StoreAnswer} (h : (s.step op).2.isOk = true ∧ ref ∈ op.writes)
    (hnew : (s.step op).1.row ref = some new) : rowWritten ref s op = [new] := by
  rw [rowWritten, if_pos h, hnew, Option.toList_some]

/-- The rows of a record's life end with the present one, count up from 1 and are active until
the last. -/
structure LivedThrough (ref : RecordRef) (s : Store) (rows : List StoreAnswer) : Prop where
  present : rows.getLast? = s.row ref
  versions : rows.map (·.life.version) = (List.range rows.length).map fun i : Nat => (i : Int) + 1
  active : ∀ r ∈ rows.dropLast, r.life.isActive = true

theorem LivedThrough.version {rows : List StoreAnswer} (h : LivedThrough ref s rows) :
    (s.row ref).elim 0 (·.life.version) = rows.length := by
  rw [← h.present]
  obtain rfl | ⟨init, last, rfl⟩ := List.eq_nil_or_concat rows
  · rfl
  · have hversions := h.versions
    rw [List.concat_eq_append, List.length_append, List.length_singleton, List.range_succ,
      List.map_append, List.map_append] at hversions
    have hlast := (List.append_inj' hversions rfl).2
    simpa using hlast

theorem LivedThrough.active_of_alive {rows : List StoreAnswer} (h : LivedThrough ref s rows)
    (halive : ∀ r, s.row ref = some r → r.life.isActive = true) :
    ∀ r ∈ rows, r.life.isActive = true := by
  obtain rfl | ⟨init, last, rfl⟩ := List.eq_nil_or_concat rows
  · simp
  · have hlast : s.row ref = some last := by rw [← h.present]; simp
    intro r hr
    rw [List.concat_eq_append, List.mem_append, List.mem_singleton] at hr
    obtain hr | rfl := hr
    · exact h.active r (by simpa using hr)
    · exact halive r hlast

theorem Rewrites.alive {old : Option StoreAnswer} {new : StoreAnswer} (h : Rewrites old new) :
    ∀ r, old = some r → r.life.isActive = true := by
  cases h with
  | created =>
    intro r hr
    cases hr
  | updated hmutable =>
    intro r hr
    cases hr
    exact hmutable.1
  | tombstoned halive =>
    intro r hr
    cases hr
    exact halive

theorem LivedThrough.step {rows : List StoreAnswer} (h : LivedThrough ref s rows) (op : StoreOp) :
    LivedThrough ref (s.step op).1 (rows ++ rowWritten ref s op) := by
  by_cases hwrite : (s.step op).2.isOk = true ∧ ref ∈ op.writes
  · obtain ⟨new, hnew, hrewrites⟩ := row_rewritten hwrite
    have hversion : new.life.version = rows.length + 1 := by
      rw [hrewrites.version, h.version]
    rw [rowWritten_of hwrite hnew]
    refine ⟨by rw [hnew]; simp, ?_, ?_⟩
    · rw [List.map_append, h.versions, List.length_append, List.length_singleton, List.range_succ,
        List.map_append, List.map_singleton, List.map_singleton, hversion]
    · rw [List.dropLast_concat]
      exact h.active_of_alive hrewrites.alive
  · rw [rowWritten_of_not hwrite, List.append_nil]
    exact ⟨h.present.trans (row_kept hwrite).symm, h.versions, h.active⟩

end

theorem row_empty (ref : RecordRef) : Store.empty.row ref = none := by
  cases ref <;> rfl

theorem livedThrough_run (ref : RecordRef) (ops : List StoreOp) :
    LivedThrough ref (runState Store.step Store.empty ops) (lifeOf ref Store.empty ops) := by
  induction ops using List.reverseRecOn with
  | nil => exact ⟨(row_empty ref).symm, rfl, by simp [lifeOf]⟩
  | append_singleton ops op ih =>
    rw [lifeOf_append, runState_append]
    exact ih.step op

/-! ### The events at an address -/

/-- The events `audit_events` selects for a record. -/
def Store.eventsAt (s : Store) (ref : RecordRef) : List BrainAuditEvent :=
  s.auditEvents.filter fun e => e.address = ref.address

/-- No other stored record is audited under the same key. -/
def SoleAt (ref : RecordRef) (s : Store) : Prop :=
  ∀ ref', (s.row ref').isSome = true → ref'.address = ref.address → ref' = ref

theorem eventsOf_filter (s s' : Store) (address : String × String × String) (refs : List RecordRef) :
    (eventsOf s s' refs).filter (fun e => e.address = address) =
      eventsOf s s' (refs.filter fun ref => ref.address = address) := by
  induction refs with
  | nil => rfl
  | cons ref refs ih =>
    cases hrow : s'.row ref with
    | none =>
      have hcons : eventsOf s s' (ref :: refs) = eventsOf s s' refs := by simp [eventsOf, hrow]
      rw [hcons, ih, List.filter_cons]
      split
      · simp [eventsOf, hrow]
      · rfl
    | some new =>
      rw [eventsOf_cons hrow, List.filter_cons, List.filter_cons, ih, StoreAnswer.address_event]
      split
      · rw [eventsOf_cons hrow]
      · rfl

theorem unnumbered_eventsAt (s : Store) (ref : RecordRef) :
    (s.eventsAt ref).map BrainAuditEvent.unnumbered =
      (s.auditEvents.map BrainAuditEvent.unnumbered).filter fun e => e.address = ref.address := by
  rw [List.filter_map]
  rfl

section
variable {s : Store} {op : StoreOp} {ref : RecordRef}

theorem eventsAt_refused (h : (s.step op).2.isOk = false) : (s.step op).1.eventsAt ref = s.eventsAt ref := by
  generalize hstep : s.step op = out at h ⊢
  obtain ⟨s', answer⟩ := out
  cases answer with
  | error x => rw [Store.step_error hstep]
  | ok a => cases h

theorem eventsAt_accepted (ref : RecordRef) (h : (s.step op).2.isOk = true) :
    ((s.step op).1.eventsAt ref).map BrainAuditEvent.unnumbered =
      (s.eventsAt ref).map BrainAuditEvent.unnumbered ++
        eventsOf s (s.step op).1 (op.writes.filter fun ref' => ref'.address = ref.address) := by
  generalize hstep : s.step op = out at h ⊢
  obtain ⟨s', answer⟩ := out
  cases answer with
  | error x => cases h
  | ok a =>
    rw [unnumbered_eventsAt, unnumbered_eventsAt, step_events hstep, List.filter_append, eventsOf_filter]

theorem isSome_step {ref' : RecordRef} (h : (s.row ref').isSome = true) :
    ((s.step op).1.row ref').isSome = true := by
  obtain ⟨r, hr⟩ := Option.isSome_iff_exists.mp h
  obtain ⟨r', hr', -⟩ := later_step hr op
  rw [hr']
  rfl

theorem isSome_of_writes (h : (s.step op).2.isOk = true) {ref' : RecordRef} (hmem : ref' ∈ op.writes) :
    ((s.step op).1.row ref').isSome = true := by
  obtain ⟨new, hnew, -⟩ := row_rewritten ⟨h, hmem⟩
  rw [hnew]
  rfl

theorem StoreOp.writes_nodup (op : StoreOp) : op.writes.Nodup := by
  cases op <;> simp [writes]

theorem SoleAt.filter_writes (hsole : SoleAt ref (s.step op).1) (h : (s.step op).2.isOk = true) :
    (op.writes.filter fun ref' => ref'.address = ref.address) =
      if ref ∈ op.writes then [ref] else [] := by
  have hsame : (op.writes.filter fun ref' => ref'.address = ref.address) =
      op.writes.filter fun ref' => ref' = ref := by
    refine List.filter_congr fun ref' hmem => ?_
    rw [decide_eq_decide]
    exact ⟨hsole ref' (isSome_of_writes h hmem), fun heq => by rw [heq]⟩
  rw [hsame, List.filter_eq]
  split
  · next hmem => rw [List.count_eq_one_of_mem op.writes_nodup hmem]; rfl
  · next hmem => rw [List.count_eq_zero_of_not_mem hmem]; rfl

end

/-- The events at the address of a record that has it to itself are the record's trail. -/
theorem eventsAt_run (ref : RecordRef) (ops : List StoreOp)
    (hsole : SoleAt ref (runState Store.step Store.empty ops)) :
    ((runState Store.step Store.empty ops).eventsAt ref).map BrainAuditEvent.unnumbered =
      trail ref (lifeOf ref Store.empty ops) := by
  induction ops using List.reverseRecOn with
  | nil => rfl
  | append_singleton ops op ih =>
    have hlived := livedThrough_run ref ops
    rw [runState_append, runState_cons, runState_nil] at hsole ⊢
    rw [lifeOf_append]
    generalize runState Store.step Store.empty ops = s at hsole hlived ih ⊢
    have hbefore := ih fun ref' hstored => hsole ref' (isSome_step hstored)
    by_cases hok : (s.step op).2.isOk = true
    · rw [eventsAt_accepted ref hok, hbefore, hsole.filter_writes hok]
      by_cases hmem : ref ∈ op.writes
      · obtain ⟨new, hnew, -⟩ := row_rewritten ⟨hok, hmem⟩
        have hfirst : (s.row ref).isNone = (lifeOf ref Store.empty ops).isEmpty := by
          rw [← hlived.present]
          cases lifeOf ref Store.empty ops <;> simp
        rw [if_pos hmem, rowWritten_of ⟨hok, hmem⟩ hnew, trail_append, eventsOf_cons hnew, hfirst,
          eventsOf_nil]
      · rw [if_neg hmem, rowWritten_of_not fun h => hmem h.2, eventsOf_nil, List.append_nil,
          List.append_nil]
    · rw [eventsAt_refused (Bool.eq_false_iff.mpr hok), hbefore, rowWritten_of_not fun h => hok h.1,
        List.append_nil]

/-! ### What a reader of the audit table gets -/

/-- A write is accepted only for a valid tenant. -/
theorem step_tenant {s s' : Store} {op : StoreOp} {a : StoreAnswer} (h : s.step op = (s', .ok a)) :
    required 200 op.tenant = true := by
  cases op with
  | putEntity | putEvidence | putRelationship =>
    obtain ⟨stored, hstored, -⟩ := Store.answered h
    exact (putting_ok_iff.mp hstored).1
  | deleteEntity | deleteEvidence | deleteRelationship =>
    obtain ⟨stored, hstored, -⟩ := Store.answered h
    exact (deleting_ok_iff.mp hstored).1.1

theorem tenant_of_row {ref : RecordRef} {ops : List StoreOp}
    (h : ((runState Store.step Store.empty ops).row ref).isSome = true) :
    required 200 ref.tenant = true := by
  induction ops using List.reverseRecOn with
  | nil =>
    rw [runState_nil, row_empty] at h
    cases h
  | append_singleton ops op ih =>
    rw [runState_append, runState_cons, runState_nil] at h
    by_cases hwrite : ((runState Store.step Store.empty ops).step op).2.isOk = true ∧ ref ∈ op.writes
    · obtain ⟨a, ha⟩ := isOk_iff.mp hwrite.1
      rw [StoreOp.tenant_of_writes hwrite.2]
      exact step_tenant (Prod.ext rfl ha)
    · rw [row_kept hwrite] at h
      exact ih h

theorem auditEventsOf_ok (s : Store) (ref : RecordRef) (htenant : required 200 ref.tenant = true)
    (hkey : required 500 ref.recordKey = true) :
    s.auditEventsOf ref.tenant (some ref.recordType) (some ref.recordKey) = .ok (s.eventsAt ref) := by
  have htype : required 50 ref.recordType = true := by
    cases ref <;> simp only [RecordRef.recordType] <;> decide
  refine reading_eq_ok.mpr ⟨by simp [htenant, htype, hkey], List.filter_congr fun e _ => ?_⟩
  simp only [BrainAuditEvent.address, RecordRef.address, Prod.mk.injEq, Option.all_some,
    Bool.decide_and, eq_comm, Bool.and_assoc]

theorem entityProblem_eq_none {entityId label : String} {attributes : List (String × String)}
    (h : entityProblem entityId label attributes = none) : required 500 entityId = true := by
  unfold entityProblem at h
  exact invalid_eq_none.mp (Option.or_eq_none_iff.mp h).1

theorem evidenceProblem_eq_none {evidenceId sourceKind citation revision : String}
    {aclGroups aclUsers : List String}
    (h : evidenceProblem evidenceId sourceKind citation revision aclGroups aclUsers = none) :
    required 500 evidenceId = true := by
  unfold evidenceProblem at h
  exact invalid_eq_none.mp (Option.or_eq_none_iff.mp h).1

/-- The record is an entity or a piece of evidence. -/
def RecordRef.IsNode : RecordRef → Prop
  | entity .. | evidence .. => True
  | relationship .. => False

theorem RecordRef.IsNode.sole {ref : RecordRef} (h : ref.IsNode) (s : Store) : SoleAt ref s := by
  intro ref' _ haddress
  simp only [RecordRef.address, Prod.mk.injEq] at haddress
  obtain ⟨htenant, htype, hkey⟩ := haddress
  cases ref with
  | entity tenant entityId =>
    cases ref' with
    | entity tenant' entityId' => exact congrArg₂ _ htenant hkey
    | evidence | relationship => exact absurd htype (by simp [RecordRef.recordType])
  | evidence tenant evidenceId =>
    cases ref' with
    | evidence tenant' evidenceId' => exact congrArg₂ _ htenant hkey
    | entity | relationship => exact absurd htype (by simp [RecordRef.recordType])
  | relationship tenant k => exact h.elim

theorem RecordRef.IsNode.recordKey_valid {ref : RecordRef} (h : ref.IsNode) {s : Store}
    (hrow : (s.row ref).isSome = true) : required 500 ref.recordKey = true := by
  cases ref with
  | entity tenant entityId =>
    rw [row_entity, Option.isSome_map] at hrow
    obtain ⟨row, hget⟩ := Option.isSome_iff_exists.mp hrow
    have hid : row.record.entityId = entityId := (Prod.mk.inj (entityRow_key hget)).2
    rw [RecordRef.recordKey, ← hid]
    exact entityProblem_eq_none row.record.valid
  | evidence tenant evidenceId =>
    rw [row_evidence, Option.isSome_map] at hrow
    obtain ⟨row, hget⟩ := Option.isSome_iff_exists.mp hrow
    have hid : row.record.evidenceId = evidenceId := (Prod.mk.inj (evidenceRow_key hget)).2
    rw [RecordRef.recordKey, ← hid]
    exact evidenceProblem_eq_none row.record.valid
  | relationship tenant k => exact h.elim

/-- `audit_events` answers for a stored entity or piece of evidence with the trail of its accepted
writes: created at version 1, then updated, up to the present version, tombstoned only there. -/
theorem audit_follows_the_record {ref : RecordRef} (hnode : ref.IsNode) {ops : List StoreOp}
    (hrow : ((runState Store.step Store.empty ops).row ref).isSome = true) :
    LivedThrough ref (runState Store.step Store.empty ops) (lifeOf ref Store.empty ops) ∧
      ∃ events, (runState Store.step Store.empty ops).auditEventsOf ref.tenant (some ref.recordType)
          (some ref.recordKey) = .ok events ∧
        events.map BrainAuditEvent.unnumbered = trail ref (lifeOf ref Store.empty ops) :=
  ⟨livedThrough_run ref ops, _, auditEventsOf_ok _ ref (tenant_of_row hrow) (hnode.recordKey_valid hrow),
    eventsAt_run ref ops (hnode.sole _)⟩

namespace Sample

/-- A service is described, described again and deleted. -/
def retired : List StoreOp :=
  [.putEntity "acme" service terms 1, .putEntity "acme" service terms 2,
    .deleteEntity "acme" "service:payments" ⟨2, "superseded", none⟩ 3]

end Sample

theorem retired_service_audited :
    ∃ events, (runState Store.step Store.empty Sample.retired).auditEventsOf "acme" (some "entity")
        (some "service:payments") = .ok events ∧
      events.map BrainAuditEvent.unnumbered =
        trail (.entity "acme" "service:payments")
          (lifeOf (.entity "acme" "service:payments") Store.empty Sample.retired) :=
  (audit_follows_the_record
    (show (RecordRef.entity "acme" "service:payments").IsNode from trivial) (by decide)).2

/-! ### Relationships, whose key joins three fields -/

/-- The key of a relationship fits the query, and no other stored relationship reads the same. -/
def Traceable (s : Store) (tenant : String) (k : EdgeKey) : Prop :=
  k.sourceId.toList.length + k.kind.value.toList.length + k.targetId.toList.length ≤ 498 ∧
    ∀ k', k' ≠ k → (s.relationshipRow tenant k').isSome = true → auditKey k' ≠ auditKey k

theorem required_auditKey {k : EdgeKey} (hsource : required 500 k.sourceId = true)
    (htarget : required 500 k.targetId = true) :
    required 500 (auditKey k) = true ↔
      k.sourceId.toList.length + k.kind.value.toList.length + k.targetId.toList.length ≤ 498 := by
  have hkind : '\n' ∉ k.kind.value.toList := by
    cases k.kind <;> decide
  have hlist : (auditKey k).toList =
      k.sourceId.toList ++ '|' :: (k.kind.value.toList ++ '|' :: k.targetId.toList) := by
    simp [auditKey]
  have hne : auditKey k ≠ "" := fun h => by simp [h] at hlist
  simp only [required, Bool.and_eq_true, decide_eq_true_eq, Bool.not_eq_true', List.contains_eq_mem,
    decide_eq_false_iff_not] at hsource htarget ⊢
  have hline : '\n' ∉ (auditKey k).toList := by
    simp [hlist, hsource.2, htarget.2, hkind]
  have hlength : (auditKey k).toList.length =
      k.sourceId.toList.length + k.kind.value.toList.length + k.targetId.toList.length + 2 := by
    simp only [hlist, List.length_append, List.length_cons]
    omega
  constructor
  · intro h
    omega
  · intro h
    exact ⟨⟨hne, by omega⟩, hline⟩

theorem soleAt_relationship {s : Store} {tenant : String} {k : EdgeKey} :
    SoleAt (.relationship tenant k) s ↔
      ∀ k', k' ≠ k → (s.relationshipRow tenant k').isSome = true → auditKey k' ≠ auditKey k := by
  constructor
  · intro h k' hne hrow hkey
    have hsame := h (.relationship tenant k') (by rw [row_relationship, Option.isSome_map]; exact hrow)
      (by simp [RecordRef.address, RecordRef.tenant, RecordRef.recordType, RecordRef.recordKey, hkey])
    exact hne (RecordRef.relationship.inj hsame).2
  · intro h ref' hrow haddress
    simp only [RecordRef.address, Prod.mk.injEq] at haddress
    obtain ⟨htenant, htype, hkey⟩ := haddress
    cases ref' with
    | entity | evidence => exact absurd htype (by simp [RecordRef.recordType])
    | relationship tenant' k' =>
      have htenant' : tenant' = tenant := htenant
      subst htenant'
      rw [row_relationship, Option.isSome_map] at hrow
      by_cases hk : k' = k
      · rw [hk]
      · exact absurd hkey (h k' hk hrow)

theorem count_add_count_le {α : Type} [DecidableEq α] {p : α → Bool} {a b : α} (hne : a ≠ b)
    (ha : p a = true) (hb : p b = true) (l : List α) :
    l.count a + l.count b ≤ (l.filter p).length := by
  induction l with
  | nil => simp
  | cons x l ih =>
    rw [List.count_cons, List.count_cons, List.filter_cons]
    by_cases hxa : x = a
    · subst hxa
      simp only [beq_self_eq_true, if_true, beq_eq_false_iff_ne.mpr hne, ha, List.length_cons]
      simp
      omega
    · by_cases hxb : x = b
      · subst hxb
        simp only [beq_self_eq_true, if_true, beq_eq_false_iff_ne.mpr hxa, hb, List.length_cons]
        simp
        omega
      · cases hp : p x with
        | true =>
          simp [hxa, hxb]
          omega
        | false => simpa [hxa, hxb] using ih

section
variable {s : Store} {op : StoreOp}

theorem length_rowWritten (ref : RecordRef) (h : (s.step op).2.isOk = true) :
    (rowWritten ref s op).length = op.writes.count ref := by
  by_cases hmem : ref ∈ op.writes
  · obtain ⟨new, hnew, -⟩ := row_rewritten ⟨h, hmem⟩
    rw [rowWritten_of ⟨h, hmem⟩ hnew, List.count_eq_one_of_mem op.writes_nodup hmem,
      List.length_singleton]
  · rw [rowWritten_of_not fun hwrite => hmem hwrite.2, List.count_eq_zero_of_not_mem hmem,
      List.length_nil]

theorem length_eventsOf (h : (s.step op).2.isOk = true) {refs : List RecordRef}
    (hrefs : ∀ ref ∈ refs, ref ∈ op.writes) : (eventsOf s (s.step op).1 refs).length = refs.length := by
  induction refs with
  | nil => rfl
  | cons ref refs ih =>
    obtain ⟨new, hnew, -⟩ := row_rewritten ⟨h, hrefs ref List.mem_cons_self⟩
    rw [eventsOf_cons hnew, List.length_cons, List.length_cons,
      ih fun ref' hmem => hrefs ref' (List.mem_cons_of_mem ref hmem)]

end

/-- Two records audited under one key: the events at it are at least those of both. -/
theorem length_shared {ref ref' : RecordRef} (hne : ref ≠ ref') (haddress : ref'.address = ref.address)
    (ops : List StoreOp) :
    (lifeOf ref Store.empty ops).length + (lifeOf ref' Store.empty ops).length ≤
      ((runState Store.step Store.empty ops).eventsAt ref).length := by
  induction ops using List.reverseRecOn with
  | nil => simp [lifeOf]
  | append_singleton ops op ih =>
    rw [runState_append, runState_cons, runState_nil, lifeOf_append, lifeOf_append, List.length_append,
      List.length_append]
    generalize runState Store.step Store.empty ops = s at ih ⊢
    by_cases hok : (s.step op).2.isOk = true
    · have hevents := congrArg List.length (eventsAt_accepted ref hok)
      have hwrites := count_add_count_le (p := fun r => decide (r.address = ref.address)) hne
        (by simp) (by simp [haddress]) op.writes
      rw [List.length_map, List.length_append, List.length_map,
        length_eventsOf hok fun r hr => (List.mem_filter.mp hr).1] at hevents
      rw [length_rowWritten ref hok, length_rowWritten ref' hok, hevents]
      omega
    · rw [eventsAt_refused (Bool.eq_false_iff.mpr hok), rowWritten_of_not fun h => hok h.1,
        rowWritten_of_not fun h => hok h.1]
      simpa using ih

/-- `audit_events` answers for a stored relationship with its own trail exactly when the joined
key is short enough and no other relationship of the tenant joins to the same text. -/
theorem relationship_audited_iff {tenant : String} {k : EdgeKey} {ops : List StoreOp}
    (hrow : ((runState Store.step Store.empty ops).relationshipRow tenant k).isSome = true) :
    (∃ events, (runState Store.step Store.empty ops).auditEventsOf tenant (some "relationship")
        (some (auditKey k)) = .ok events ∧
      events.map BrainAuditEvent.unnumbered =
        trail (.relationship tenant k) (lifeOf (.relationship tenant k) Store.empty ops)) ↔
      Traceable (runState Store.step Store.empty ops) tenant k := by
  have hstored : ((runState Store.step Store.empty ops).row (.relationship tenant k)).isSome = true := by
    rw [row_relationship, Option.isSome_map]
    exact hrow
  have htenant : required 200 tenant = true := tenant_of_row hstored
  obtain ⟨row, hget⟩ := Option.isSome_iff_exists.mp hrow
  have hedge : row.record.key = k := (Prod.mk.inj (relationshipRow_key hget)).2
  obtain ⟨hsource, htarget, -⟩ := relationshipProblem_eq_none.mp row.record.valid
  have hkey := required_auditKey (k := k) (by rw [← hedge]; exact hsource)
    (by rw [← hedge]; exact htarget)
  unfold Traceable
  rw [← hkey, ← soleAt_relationship]
  constructor
  · rintro ⟨events, hanswer, htrail⟩
    have hvalid : required 500 (auditKey k) = true := by
      simpa using (reading_eq_ok.mp hanswer).1 (_, "record_key") (by simp)
    refine ⟨hvalid, fun ref' hrow' haddress => ?_⟩
    by_contra hne
    have hown : events = (runState Store.step Store.empty ops).eventsAt (.relationship tenant k) :=
      Except.ok.inj (hanswer.symm.trans (auditEventsOf_ok _ (.relationship tenant k) htenant hvalid))
    have hlength := congrArg List.length htrail
    rw [hown, List.length_map, trail, List.length_mapIdx] at hlength
    have hshared := length_shared (Ne.symm hne) haddress ops
    have hother : (lifeOf ref' Store.empty ops).length ≠ 0 := by
      intro hzero
      rw [← (livedThrough_run ref' ops).present, List.length_eq_zero_iff.mp hzero] at hrow'
      cases hrow'
    omega
  · rintro ⟨hvalid, hsole⟩
    exact ⟨_, auditEventsOf_ok _ (.relationship tenant k) htenant hvalid,
      eventsAt_run (.relationship tenant k) ops hsole⟩

namespace Sample

def named (entityId : String) (h : entityProblem entityId "payments" [] = none) : BrainEntity :=
  ⟨entityId, .service, "payments", [], h⟩

def owned : List StoreOp :=
  [.putEntity "acme" service terms 1, .putEntity "acme" (named "team:core" (by decide +kernel)) terms 2,
    .putRelationship "acme" ⟨"team:core", "service:payments", .owns, [], by decide +kernel⟩ terms 3]

/-- Two relationships whose ids and kind join to `a|owns|b|owns|c`. -/
def entwined : List StoreOp :=
  [.putEntity "acme" (named "a" (by decide +kernel)) terms 1,
    .putEntity "acme" (named "b|owns|c" (by decide +kernel)) terms 2,
    .putEntity "acme" (named "a|owns|b" (by decide +kernel)) terms 3,
    .putEntity "acme" (named "c" (by decide +kernel)) terms 4,
    .putRelationship "acme" ⟨"a", "b|owns|c", .owns, [], by decide +kernel⟩ terms 5,
    .putRelationship "acme" ⟨"a|owns|b", "c", .owns, [], by decide +kernel⟩ terms 6]

end Sample

theorem owned_service_audited :
    ∃ events, (runState Store.step Store.empty Sample.owned).auditEventsOf "acme" (some "relationship")
        (some (auditKey ⟨"team:core", .owns, "service:payments"⟩)) = .ok events ∧
      events.map BrainAuditEvent.unnumbered =
        trail (.relationship "acme" ⟨"team:core", .owns, "service:payments"⟩)
          (lifeOf (.relationship "acme" ⟨"team:core", .owns, "service:payments"⟩) Store.empty
            Sample.owned) := by
  refine (relationship_audited_iff (by decide)).mpr ⟨by decide, ?_⟩
  intro k' hne hrow
  have hkeys : (runState Store.step Store.empty Sample.owned).relationships.rows.map
      StoredRelationship.rowKey = [("acme", ⟨"team:core", .owns, "service:payments"⟩)] := by
    decide
  obtain ⟨row, hget⟩ := Option.isSome_iff_exists.mp hrow
  have hmem := List.mem_map_of_mem (f := StoredRelationship.rowKey) (Table.mem_of_get hget)
  rw [hkeys, relationshipRow_key hget, List.mem_singleton] at hmem
  exact absurd (Prod.mk.inj hmem).2 hne

/-- Each of two relationships is answered with the events of both. -/
theorem entwined_relationships_share_their_audit :
    ((runState Store.step Store.empty Sample.entwined).relationshipRow "acme"
        ⟨"a", .owns, "b|owns|c"⟩).isSome = true ∧
      ¬ ∃ events, (runState Store.step Store.empty Sample.entwined).auditEventsOf "acme"
          (some "relationship") (some (auditKey ⟨"a", .owns, "b|owns|c"⟩)) = .ok events ∧
        events.map BrainAuditEvent.unnumbered = trail (.relationship "acme" ⟨"a", .owns, "b|owns|c"⟩)
          (lifeOf (.relationship "acme" ⟨"a", .owns, "b|owns|c"⟩) Store.empty Sample.entwined) := by
  refine ⟨by decide, ?_⟩
  rintro ⟨events, hanswer, htrail⟩
  have hlength : ((runState Store.step Store.empty Sample.entwined).auditEventsOf "acme"
      (some "relationship") (some (auditKey ⟨"a", .owns, "b|owns|c"⟩))).map List.length = .ok 2 := by
    decide
  have hlife : (lifeOf (.relationship "acme" ⟨"a", .owns, "b|owns|c"⟩) Store.empty
      Sample.entwined).length = 1 := by
    decide
  have hsame := congrArg List.length htrail
  rw [List.length_map, trail, List.length_mapIdx, hlife] at hsame
  rw [hanswer, Except.map, hsame] at hlength
  cases hlength

end EngineeringIntelligence.CompanyBrain
