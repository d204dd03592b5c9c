import EngineeringIntelligence.CompanyBrain.AuditTrail
import EngineeringIntelligence.CompanyBrain.Snapshot

namespace EngineeringIntelligence.CompanyBrain

open EngineeringIntelligence.Framework

/-! What one tenant gets from the store does not depend on the calls of the others. -/

/-- A call of the store. -/
inductive StoreRequest where
  | write (op : StoreOp)
  | getEntity (tenant entityId : String) (includeDeleted : Bool)
  | getEvidence (tenant evidenceId : String) (includeDeleted : Bool)
  | getRelationship (tenant : String) (key : EdgeKey) (includeDeleted : Bool)
  | listEntities (tenant : String) (includeDeleted : Bool)
  | listEvidence (tenant : String) (includeDeleted : Bool)
  | listRelationships (tenant : String) (includeDeleted : Bool)
  | auditEvents (tenant : String) (recordType recordKey : Option String)
  | snapshot (tenant : String)

/-- What a call returns or raises. -/
inductive StoreReply where
  | written (answer : Except BrainError StoreAnswer)
  | entity (found : Except BrainError (Option StoredEntity))
  | evidence (found : Except BrainError (Option StoredEvidence))
  | relationship (found : Except BrainError (Option StoredRelationship))
  | entities (found : Except BrainError (List StoredEntity))
  | evidences (found : Except BrainError (List StoredEvidence))
  | relationships (found : Except BrainError (List StoredRelationship))
  | events (found : Except BrainError (List BrainAuditEvent))
  | brain (found : Except BrainError CompanyBrain)

def StoreRequest.tenant : StoreRequest → String
  | write op => op.tenant
  | getEntity tenant .. | getEvidence tenant .. | getRelationship tenant .. => tenant
  | listEntities tenant _ | listEvidence tenant _ | listRelationships tenant _ => tenant
  | auditEvents tenant .. | snapshot tenant => tenant

def Store.serve (s : Store) : StoreRequest → Store × StoreReply
  | .write op => ((s.step op).1, .written (s.step op).2)
  | .getEntity tenant entityId deleted => (s, .entity (s.getEntity tenant entityId deleted))
  | .getEvidence tenant evidenceId deleted => (s, .evidence (s.getEvidence tenant evidenceId deleted))
  | .getRelationship tenant key deleted => (s, .relationship (s.getRelationship tenant key deleted))
  | .listEntities tenant deleted => (s, .entities (s.listEntities tenant deleted))
  | .listEvidence tenant deleted => (s, .evidences (s.listEvidence tenant deleted))
  | .listRelationships tenant deleted => (s, .relationships (s.listRelationships tenant deleted))
  | .auditEvents tenant recordType recordKey => (s, .events (s.auditEventsOf tenant recordType recordKey))
  | .snapshot tenant => (s, .brain (s.snapshot tenant))

/-- A reply without the places its events have in the shared audit table. -/
def StoreReply.unnumbered : StoreReply → StoreReply
  | events found => events (found.map (List.map BrainAuditEvent.unnumbered))
  | reply => reply

/-- All of the store that is the tenant's. -/
def Store.view (tenant : String) (s : Store) : Rows × List BrainAuditEvent :=
  (s.rows tenant, (s.auditEvents.filter fun e => e.tenantId = tenant).map BrainAuditEvent.unnumbered)

/-! ### Writes -/

section
variable {α β : Type} {tenant : String} {s t : Store}

theorem transaction_snd (body : Store → Store × Except BrainError α) (s : Store) :
    (transaction body s).2 = (body s).2 := by
  unfold transaction
  split
  · next h => rw [h]
  · next h => rw [h]

theorem putting_congr {body : Store → Store × Except BrainError α} (h : (body s).2 = (body t).2) :
    (putting tenant body s).2 = (putting tenant body t).2 := by
  unfold putting
  split
  · rfl
  · rw [transaction_snd, transaction_snd, h]

theorem deleting_congr {keys : List (Bool × String)} {terms : DeleteTerms} {now : Int}
    {body : Int → Store → Store × Except BrainError α} (h : ∀ time, (body time s).2 = (body time t).2) :
    (deleting tenant keys terms now body s).2 = (deleting tenant keys terms now body t).2 := by
  unfold deleting
  split
  · rfl
  · split
    · rfl
    · rw [transaction_snd, transaction_snd, h]

theorem putRow_snd {read : Store → Option (Stored α)} {write : Store → Stored α → Store}
    {recordType recordKey : String} {record : α} {terms : PutTerms} {now : Int} :
    (putRow read write recordType recordKey tenant record terms now s).2 =
      revise (read s) tenant record terms now := by
  unfold putRow
  split
  · next h => rw [h]
  · next h => rw [h]

theorem andThen_snd_congr {first : Store → Store × Except BrainError α}
    {next : α → Store → Store × Except BrainError β} (hfirst : (first s).2 = (first t).2)
    (hnext : ∀ a, (first s).2 = .ok a → (next a (first s).1).2 = (next a (first t).1).2) :
    (andThen first next s).2 = (andThen first next t).2 := by
  unfold andThen
  generalize first s = out, first t = out' at hfirst hnext ⊢
  obtain ⟨s', r⟩ := out
  obtain ⟨t', r'⟩ := out'
  cases hfirst
  cases r with
  | error x => rfl
  | ok a => exact hnext a rfl

end

/-- What a write answers depends on the rows of its tenant alone. -/
theorem step_answer_congr {s t : Store} {op : StoreOp} (h : s.rows op.tenant = t.rows op.tenant) :
    (s.step op).2 = (t.step op).2 := by
  have hentity : ∀ i, s.entityRow op.tenant i = t.entityRow op.tenant i :=
    fun i => congrFun (congrArg Rows.entity h) i
  have hevidence : ∀ i, s.evidenceRow op.tenant i = t.evidenceRow op.tenant i :=
    fun i => congrFun (congrArg Rows.evidence h) i
  have hedge : ∀ k, s.relationshipRow op.tenant k = t.relationshipRow op.tenant k :=
    fun k => congrFun (congrArg Rows.relationship h) k
  cases op with
  | putEntity tenant entity terms now =>
    simp only [StoreOp.tenant] at hentity
    refine congrArg (Except.map _) (putting_congr ?_)
    rw [Store.putEntityRow, putRow_snd, putRow_snd, hentity]
  | putEvidence tenant evidence terms now entityNow =>
    simp only [StoreOp.tenant] at hentity hevidence
    have hfirst : (Store.putEvidenceRow tenant evidence terms now s).2 =
        (Store.putEvidenceRow tenant evidence terms now t).2 := by
      rw [Store.putEvidenceRow, putRow_snd, putRow_snd, hevidence]
    refine congrArg (Except.map _) (putting_congr (andThen_snd_congr hfirst ?_))
    intro stored hstored
    -- writing the evidence leaves the entities as they were
    have hkept : ∀ u, (Store.putEvidenceRow tenant evidence terms now u).2 = .ok stored →
        ∀ i, (Store.putEvidenceRow tenant evidence terms now u).1.entityRow tenant i =
          u.entityRow tenant i := by
      intro u hu i
      obtain ⟨-, hmid⟩ := putRow_ok_iff.mp (Prod.ext rfl hu)
      exact congrArg (fun mid => mid.entityRow tenant i) hmid
    have hs := hkept s hstored
    have ht := hkept t (hfirst ▸ hstored)
    cases evidenceEntity evidence with
    | error x => rfl
    | ok entity =>
      simp only [hs, ht, hentity]
      refine andThen_snd_congr ?_ fun _ _ => rfl
      rw [Store.putEntityRow, putRow_snd, putRow_snd, hs, ht, hentity]
  | putRelationship tenant relationship terms now =>
    simp only [StoreOp.tenant] at hentity hevidence hedge
    have hlinkable : s.assertLinkable tenant relationship = t.assertLinkable tenant relationship := by
      simp only [Store.assertLinkable, hentity, hevidence]
    refine congrArg (Except.map _) (putting_congr ?_)
    rw [hlinkable]
    cases t.assertLinkable tenant relationship with
    | error x => rfl
    | ok u =>
      show (Store.putRelationshipRow tenant relationship terms now s).2 =
        (Store.putRelationshipRow tenant relationship terms now t).2
      rw [Store.putRelationshipRow, putRow_snd, putRow_snd, hedge]
  | deleteEntity tenant entityId terms now =>
    simp only [StoreOp.tenant] at hentity
    refine congrArg (Except.map _) (deleting_congr fun time => ?_)
    rw [hentity]
    cases deletable "entity" Store.notEvidence (t.entityRow tenant entityId) terms.expectedVersion with
    | error x => rfl
    | ok current => rfl
  | deleteEvidence tenant evidenceId terms now =>
    simp only [StoreOp.tenant] at hentity hevidence
    refine congrArg (Except.map _) (deleting_congr fun time => ?_)
    rw [hevidence, hentity]
    cases deletable "evidence" (fun _ => none) (t.evidenceRow tenant evidenceId)
        terms.expectedVersion with
    | error x => rfl
    | ok current =>
      cases Store.structuralEntity (t.entityRow tenant evidenceId) with
      | error x => rfl
      | ok structural => rfl
  | deleteRelationship tenant k terms now =>
    simp only [StoreOp.tenant] at hedge
    refine congrArg (Except.map _) (deleting_congr fun time => ?_)
    rw [hedge]
    cases deletable "relationship" (fun _ => none) (t.relationshipRow tenant k)
        terms.expectedVersion with
    | error x => rfl
    | ok current => rfl

/-- The record a write is named after. -/
def StoreOp.subject : StoreOp → RecordRef
  | putEntity tenant entity .. => .entity tenant entity.entityId
  | putEvidence tenant evidence .. => .evidence tenant evidence.evidenceId
  | putRelationship tenant relationship .. => .relationship tenant relationship.key
  | deleteEntity tenant entityId .. => .entity tenant entityId
  | deleteEvidence tenant evidenceId .. => .evidence tenant evidenceId
  | deleteRelationship tenant key .. => .relationship tenant key

/-- A write returns the row it leaves. -/
theorem step_returns {s s' : Store} {op : StoreOp} {a : StoreAnswer} (h : s.step op = (s', .ok a)) :
    s'.row op.subject = some a := by
  cases op with
  | putEntity tenant entity terms now =>
    obtain ⟨stored, hstored, rfl⟩ := Store.answered h
    obtain ⟨-, hrevise, rfl⟩ := Store.putEntity_ok_iff.mp hstored
    obtain ⟨-, -, rfl⟩ := revise_ok_iff.mp hrevise
    exact row_writeEntity s rfl
  | putEvidence tenant evidence terms now entityNow =>
    obtain ⟨stored, hstored, rfl⟩ := Store.answered h
    obtain ⟨-, hrevise, entity, structural, -, -, rfl⟩ := Store.putEvidence_ok_iff.mp hstored
    obtain ⟨-, -, rfl⟩ := revise_ok_iff.mp hrevise
    exact row_writeEvidence s rfl
  | putRelationship tenant relationship terms now =>
    obtain ⟨stored, hstored, rfl⟩ := Store.answered h
    obtain ⟨-, -, hrevise, rfl⟩ := Store.putRelationship_ok_iff.mp hstored
    obtain ⟨-, -, rfl⟩ := revise_ok_iff.mp hrevise
    exact row_writeRelationship s rfl
  | deleteEntity tenant entityId terms now =>
    obtain ⟨stored, hstored, rfl⟩ := Store.answered h
    obtain ⟨-, time, current, -, hcurrent, rfl, rfl⟩ := Store.deleteEntity_ok_iff.mp hstored
    have hkey := entityRow_key (deletable_ok_iff.mp hcurrent).1
    exact row_writeEntity s hkey
  | deleteEvidence tenant evidenceId terms now =>
    obtain ⟨stored, hstored, rfl⟩ := Store.answered h
    obtain ⟨-, time, current, structural, -, hcurrent, -, rfl, rfl⟩ :=
      Store.deleteEvidence_ok_iff.mp hstored
    have hkey := evidenceRow_key (deletable_ok_iff.mp hcurrent).1
    exact row_writeEvidence s hkey
  | deleteRelationship tenant k terms now =>
    obtain ⟨stored, hstored, rfl⟩ := Store.answered h
    obtain ⟨-, time, current, -, hcurrent, rfl, rfl⟩ := Store.deleteRelationship_ok_iff.mp hstored
    have hkey := relationshipRow_key (deletable_ok_iff.mp hcurrent).1
    exact row_writeRelationship s hkey

/-- The rows and what was returned tell the rows a write leaves. -/
theorem wrote_unique {r r₁ r₂ : Rows} {op : StoreOp} (h₁ : Wrote r r₁ op) (h₂ : Wrote r r₂ op)
    (h : r₁.at op.subject = r₂.at op.subject) : r₁ = r₂ := by
  cases op with
  | putEntity tenant entity terms now => exact h₁.2.trans h₂.2.symm
  | putEvidence tenant evidence terms now entityNow =>
    obtain ⟨-, -, entity, hentity, rfl⟩ := h₁
    obtain ⟨-, -, entity', hentity', rfl⟩ := h₂
    rw [hentity, Except.ok.injEq] at hentity'
    rw [hentity']
  | putRelationship tenant relationship terms now => exact h₁.2.2.trans h₂.2.2.symm
  | deleteEntity tenant entityId terms now =>
    obtain ⟨row, time, hrow, -, -, rfl⟩ := h₁
    obtain ⟨row', time', hrow', -, -, rfl⟩ := h₂
    rw [hrow, Option.some.injEq] at hrow'
    subst hrow'
    simp only [StoreOp.subject, Rows.at_setEntity_self, Option.some.injEq, StoreAnswer.entity.injEq] at h
    rw [h]
  | deleteEvidence tenant evidenceId terms now =>
    obtain ⟨row, structural, time, hrow, -, hentity, -, -, -, rfl⟩ := h₁
    obtain ⟨row', structural', time', hrow', -, hentity', -, -, -, rfl⟩ := h₂
    rw [hrow, Option.some.injEq] at hrow'
    rw [hentity, Option.some.injEq] at hentity'
    subst hrow' hentity'
    rw [StoreOp.subject, Rows.at_setEntity _ (by simp), Rows.at_setEntity _ (by simp),
      Rows.at_setEvidence_self, Rows.at_setEvidence_self, Option.some.injEq,
      StoreAnswer.evidence.injEq] at h
    have htime : time = time' := congrArg Stored.updatedAt h
    rw [htime]
  | deleteRelationship tenant k terms now =>
    obtain ⟨row, time, hrow, -, rfl⟩ := h₁
    obtain ⟨row', time', hrow', -, rfl⟩ := h₂
    rw [hrow, Option.some.injEq] at hrow'
    subst hrow'
    simp only [StoreOp.subject, Rows.at_setRelationship_self, Option.some.injEq,
      StoreAnswer.relationship.injEq] at h
    rw [h]

theorem StoreOp.tenant_subject (op : StoreOp) : op.subject.tenant = op.tenant := by
  cases op <;> rfl

theorem tenant_of_eventsOf {s s' : Store} {refs : List RecordRef} {e : BrainAuditEvent}
    (h : e ∈ eventsOf s s' refs) : ∃ ref ∈ refs, e.tenantId = ref.tenant := by
  obtain ⟨ref, href, hevent⟩ := List.mem_filterMap.mp h
  obtain ⟨new, -, rfl⟩ := Option.map_eq_some_iff.mp hevent
  exact ⟨ref, href, rfl⟩

theorem eventsOf_congr {s s' t t' : Store} {refs : List RecordRef}
    (h : ∀ ref ∈ refs, s.row ref = t.row ref ∧ s'.row ref = t'.row ref) :
    eventsOf s s' refs = eventsOf t t' refs := by
  refine List.filterMap_congr fun ref href => ?_
  obtain ⟨hbefore, hafter⟩ := h ref href
  rw [hbefore, hafter]

/-- The events of a tenant, before and after they lose their numbers. -/
theorem tenant_events (s : Store) (tenant : String) :
    (s.auditEvents.filter fun e => e.tenantId = tenant).map BrainAuditEvent.unnumbered =
      (s.auditEvents.map BrainAuditEvent.unnumbered).filter fun e => e.tenantId = tenant := by
  rw [List.filter_map]
  rfl

/-- A write of another tenant leaves the view. -/
theorem view_other {s : Store} {op : StoreOp} {tenant : String} (h : op.tenant ≠ tenant) :
    (s.step op).1.view tenant = s.view tenant := by
  generalize hstep : s.step op = out
  obtain ⟨s', answer⟩ := out
  cases answer with
  | error x => rw [Store.step_error hstep]
  | ok a =>
    have hrows : s'.rows tenant = s.rows tenant := (step_rows hstep).1 tenant (Ne.symm h)
    have hevents : (eventsOf s s' op.writes).filter (fun e => e.tenantId = tenant) = [] := by
      rw [List.filter_eq_nil_iff]
      intro e he
      obtain ⟨ref, href, htenant⟩ := tenant_of_eventsOf he
      rw [htenant, StoreOp.tenant_of_writes href]
      simpa using h
    unfold Store.view
    rw [hrows, tenant_events, tenant_events, step_events hstep, List.filter_append, hevents,
      List.append_nil]

/-- A write of the tenant depends on its view, and so does the view it leaves. -/
theorem view_own {s t : Store} {op : StoreOp} (h : s.view op.tenant = t.view op.tenant) :
    (s.step op).1.view op.tenant = (t.step op).1.view op.tenant ∧ (s.step op).2 = (t.step op).2 := by
  obtain ⟨hrows, hevents⟩ := Prod.mk.inj h
  have hanswer := step_answer_congr hrows
  refine ⟨?_, hanswer⟩
  generalize hs : s.step op = out at hanswer ⊢
  generalize ht : t.step op = out' at hanswer ⊢
  obtain ⟨s', answer⟩ := out
  obtain ⟨t', answer'⟩ := out'
  cases hanswer
  cases answer with
  | error x =>
    rw [Store.step_error hs, Store.step_error ht]
    exact h
  | ok a =>
    have hwrote := (step_rows hs).2
    rw [hrows] at hwrote
    have hrows' : s'.rows op.tenant = t'.rows op.tenant := by
      refine wrote_unique hwrote (step_rows ht).2 ?_
      have hreturned := (step_returns hs).trans (step_returns ht).symm
      rwa [Store.row, Store.row, op.tenant_subject] at hreturned
    have hnew : eventsOf s s' op.writes = eventsOf t t' op.writes := by
      refine eventsOf_congr fun ref href => ?_
      rw [Store.row, Store.row, Store.row, Store.row, StoreOp.tenant_of_writes href, hrows, hrows']
      exact ⟨rfl, rfl⟩
    unfold Store.view
    rw [tenant_events, tenant_events] at hevents ⊢
    rw [hrows', step_events hs, step_events ht, List.filter_append, List.filter_append, hevents, hnew]

/-! ### Reads -/

section
variable {ρ κ β : Type} [DecidableEq κ] [LinearOrder β] {key : ρ → String × κ} {t u : Table key}
  {tenant : String} {p : ρ → Bool} {f : ρ → β}

/-- The sorted rows of a tenant are told by what is found under its keys. -/
theorem sorted_rows_congr (h : ∀ k, t.get (tenant, k) = u.get (tenant, k))
    (hp : ∀ r, p r = true → (key r).1 = tenant) (hf : ∀ a b, f a = f b → (key a).2 = (key b).2) :
    sortedBy f (t.rows.filter p) = sortedBy f (u.rows.filter p) := by
  have hget : ∀ r, p r = true → t.get (key r) = u.get (key r) := by
    intro r hr
    have hkey : key r = (tenant, (key r).2) := Prod.ext (hp r hr) rfl
    rw [hkey]
    exact h (key r).2
  have hmem : ∀ r, p r = true → (r ∈ t.rows ↔ r ∈ u.rows) := by
    intro r hr
    constructor
    · intro hrow
      exact Table.mem_of_get ((hget r hr).symm.trans (Table.get_of_mem hrow))
    · intro hrow
      exact Table.mem_of_get ((hget r hr).trans (Table.get_of_mem hrow))
  refine sortedBy_perm ?_ ?_
  · refine (List.perm_ext_iff_of_nodup (t.unique.of_map.filter p) (u.unique.of_map.filter p)).mpr ?_
    intro r
    rw [List.mem_filter, List.mem_filter]
    exact and_congr_left fun hr => hmem r hr
  · intro a ha b hb hab
    obtain ⟨ha, hpa⟩ := List.mem_filter.mp ha
    obtain ⟨hb, hpb⟩ := List.mem_filter.mp hb
    have hkey : key a = key b := Prod.ext ((hp a hpa).trans (hp b hpb).symm) (hf a b hab)
    have hfound := Table.get_of_mem ((hmem a hpa).mp ha)
    rw [hkey, Table.get_of_mem hb] at hfound
    exact (Option.some.inj hfound).symm

end

section
variable {s t : Store} {tenant : String}

theorem listEntities_congr (h : s.rows tenant = t.rows tenant) (deleted : Bool) :
    s.listEntities tenant deleted = t.listEntities tenant deleted := by
  have hsorted := sorted_rows_congr (t := s.entities) (u := t.entities)
    (p := fun r => r.tenantId = tenant && (deleted || r.isActive)) (f := fun r => r.record.entityId)
    (fun i => congrFun (congrArg Rows.entity h) i) (by simp +contextual [StoredEntity.rowKey])
    (fun _ _ hid => hid)
  exact congrArg (reading _) hsorted

theorem listEvidence_congr (h : s.rows tenant = t.rows tenant) (deleted : Bool) :
    s.listEvidence tenant deleted = t.listEvidence tenant deleted := by
  have hsorted := sorted_rows_congr (t := s.evidence) (u := t.evidence)
    (p := fun r => r.tenantId = tenant && (deleted || r.isActive)) (f := fun r => r.record.evidenceId)
    (fun i => congrFun (congrArg Rows.evidence h) i) (by simp +contextual [StoredEvidence.rowKey])
    (fun _ _ hid => hid)
  exact congrArg (reading _) hsorted

theorem listRelationships_congr (h : s.rows tenant = t.rows tenant) (deleted : Bool) :
    s.listRelationships tenant deleted = t.listRelationships tenant deleted := by
  have hjoins : (fun r : StoredRelationship =>
        r.tenantId = tenant && (deleted || r.isActive) && s.joins deleted r) =
      fun r => r.tenantId = tenant && (deleted || r.isActive) && t.joins deleted r := by
    funext r
    by_cases hr : r.tenantId = tenant
    · have hentity : ∀ i, s.entityRow tenant i = t.entityRow tenant i :=
        fun i => congrFun (congrArg Rows.entity h) i
      rw [Store.joins, Store.joins, hr, hentity, hentity]
    · simp [hr]
  have hsorted := sorted_rows_congr (t := s.relationships) (u := t.relationships)
    (p := fun r => r.tenantId = tenant && (deleted || r.isActive) && t.joins deleted r)
    (f := fun r => r.record.key.order)
    (fun k => congrFun (congrArg Rows.relationship h) k)
    (by simp +contextual [StoredRelationship.rowKey]) (fun _ _ hk => EdgeKey.order_injective hk)
  unfold Store.listRelationships
  rw [hjoins]
  exact congrArg (reading _) hsorted

theorem snapshot_congr (h : s.rows tenant = t.rows tenant) : s.snapshot tenant = t.snapshot tenant := by
  unfold Store.snapshot
  rw [listEntities_congr h, listEvidence_congr h, listRelationships_congr h]

theorem reading_map {α β : Type} (checks : List (Bool × String)) (answer : α) (f : α → β) :
    (reading checks answer).map f = reading checks (f answer) := by
  unfold reading
  split <;> rfl

theorem auditEventsOf_congr (h : s.view tenant = t.view tenant) (recordType recordKey : Option String) :
    (s.auditEventsOf tenant recordType recordKey).map (List.map BrainAuditEvent.unnumbered) =
      (t.auditEventsOf tenant recordType recordKey).map (List.map BrainAuditEvent.unnumbered) := by
  have hselect : ∀ u : Store, ((u.auditEvents.filter fun e => e.tenantId = tenant &&
        recordType.all (· = e.recordType) && recordKey.all (· = e.recordKey)).map
        BrainAuditEvent.unnumbered) =
      (u.view tenant).2.filter fun e =>
        recordType.all (· = e.recordType) && recordKey.all (· = e.recordKey) := by
    intro u
    rw [Store.view, List.filter_map, List.filter_filter]
    refine congrArg (List.map _) (List.filter_congr fun e _ => ?_)
    exact (Bool.and_assoc _ _ _).trans (Bool.and_comm _ _)
  rw [Store.auditEventsOf, Store.auditEventsOf, reading_map, reading_map, hselect, hselect, h]

end

/-! ### Runs -/

/-- A call of another tenant leaves the view. -/
theorem serve_other {s : Store} {r : StoreRequest} {tenant : String} (h : r.tenant ≠ tenant) :
    (s.serve r).1.view tenant = s.view tenant := by
  cases r with
  | write op => exact view_other h
  | _ => rfl

/-- A call of the tenant depends on its view alone. -/
theorem serve_own {s t : Store} {r : StoreRequest} (hview : s.view r.tenant = t.view r.tenant) :
    (s.serve r).1.view r.tenant = (t.serve r).1.view r.tenant ∧
      (s.serve r).2.unnumbered = (t.serve r).2.unnumbered := by
  have hrows : s.rows r.tenant = t.rows r.tenant := (Prod.mk.inj hview).1
  cases r with
  | write op =>
    obtain ⟨hnext, hanswer⟩ := view_own hview
    exact ⟨hnext, congrArg StoreReply.written hanswer⟩
  | getEntity u i deleted =>
    refine ⟨hview, congrArg StoreReply.entity ?_⟩
    have hfound : s.entityRow u i = t.entityRow u i := congrFun (congrArg Rows.entity hrows) i
    rw [Store.getEntity, Store.getEntity, hfound]
  | getEvidence u i deleted =>
    refine ⟨hview, congrArg StoreReply.evidence ?_⟩
    have hfound : s.evidenceRow u i = t.evidenceRow u i := congrFun (congrArg Rows.evidence hrows) i
    rw [Store.getEvidence, Store.getEvidence, hfound]
  | getRelationship u k deleted =>
    refine ⟨hview, congrArg StoreReply.relationship ?_⟩
    have hfound : s.relationshipRow u k = t.relationshipRow u k :=
      congrFun (congrArg Rows.relationship hrows) k
    rw [Store.getRelationship, Store.getRelationship, hfound]
  | listEntities u deleted => exact ⟨hview, congrArg StoreReply.entities (listEntities_congr hrows deleted)⟩
  | listEvidence u deleted => exact ⟨hview, congrArg StoreReply.evidences (listEvidence_congr hrows deleted)⟩
  | listRelationships u deleted =>
    exact ⟨hview, congrArg StoreReply.relationships (listRelationships_congr hrows deleted)⟩
  | auditEvents u recordType recordKey =>
    exact ⟨hview, congrArg StoreReply.events (auditEventsOf_congr hview recordType recordKey)⟩
  | snapshot u => exact ⟨hview, congrArg StoreReply.brain (snapshot_congr hrows)⟩
/-- Two runs with the same calls of a tenant, whatever the calls of the others between them:
every one of its calls returns or raises the same, and so does every call it makes next. -/
theorem tenants_do_not_interfere (tenant : String) {requests requests' : List StoreRequest}
    (h : (requests.filter fun r => r.tenant = tenant) = requests'.filter fun r => r.tenant = tenant) :
    observed (fun r => decide (r.tenant = tenant)) StoreReply.unnumbered Store.serve Store.empty requests =
        observed (fun r => decide (r.tenant = tenant)) StoreReply.unnumbered Store.serve Store.empty
          requests' ∧
      ∀ r : StoreRequest, r.tenant = tenant →
        ((runState Store.serve Store.empty requests).serve r).2.unnumbered =
          ((runState Store.serve Store.empty requests').serve r).2.unnumbered := by
  have hother : ∀ (s : Store) (r : StoreRequest), decide (r.tenant = tenant) = false →
      (s.serve r).1.view tenant = s.view tenant :=
    fun s r hr => serve_other (of_decide_eq_false hr)
  have hown : ∀ (s t : Store) (r : StoreRequest), decide (r.tenant = tenant) = true →
      s.view tenant = t.view tenant → (s.serve r).1.view tenant = (t.serve r).1.view tenant ∧
        (s.serve r).2.unnumbered = (t.serve r).2.unnumbered := by
    intro s t r hr hview
    have htenant : r.tenant = tenant := of_decide_eq_true hr
    subst htenant
    exact serve_own hview
  obtain ⟨hview, hobserved⟩ := observed_eq _ StoreReply.unnumbered hother hown Store.empty h
  exact ⟨hobserved, fun r hr => (hown _ _ r (decide_eq_true hr) hview).2⟩

namespace Sample

/-- A service of one tenant, alone and between the calls of another. -/
def alone : List StoreRequest := [.write (.putEntity "acme" service terms 1), .snapshot "acme"]

def shared : List StoreRequest :=
  [.write (.putEntity "globex" service terms 5), .write (.putEntity "acme" service terms 1),
    .write (.deleteEntity "globex" "service:payments" ⟨1, "superseded", none⟩ 6), .snapshot "acme",
    .listEntities "globex" true]

end Sample

theorem acme_does_not_see_globex :
    observed (fun r => decide (r.tenant = "acme")) StoreReply.unnumbered Store.serve Store.empty
        Sample.alone =
      observed (fun r => decide (r.tenant = "acme")) StoreReply.unnumbered Store.serve Store.empty
        Sample.shared :=
  (tenants_do_not_interfere "acme"
    (by simp [Sample.alone, Sample.shared, StoreRequest.tenant, StoreOp.tenant])).1

end EngineeringIntelligence.CompanyBrain
