import EngineeringIntelligence.CompanyBrain.Description
import EngineeringIntelligence.CompanyBrain.Memory
import EngineeringIntelligence.Framework.Plan

namespace EngineeringIntelligence.CompanyBrain

open EngineeringIntelligence.Framework

/-! What a projection is about to write, item by item, and what the store makes of it. -/

/-- A place of the store of one tenant. -/
inductive Place where
  | entity (id : String)
  | evidence (id : String)
  | edge (k : EdgeKey)

/-- One write a projection may have to make. -/
inductive Item where
  | entity (e : BrainEntity)
  | evidence (v : BrainEvidence)
  | edge (k : EdgeKey)
  | retireEvidence (evidenceId : String)
  | retireEntity (entityId : String)

/-- The places an item may write to; evidence comes with its entity. -/
def Item.places : Item → List Place
  | entity e => [.entity e.entityId]
  | evidence v => [.evidence v.evidenceId, .entity v.evidenceId]
  | edge k => [.edge k]
  | retireEvidence id => [.evidence id, .entity id]
  | retireEntity id => [.entity id]

/-- The writes of one projection. -/
structure Plan where
  provenance : BrainProvenance
  entities : List BrainEntity
  evidence : Option BrainEvidence
  edges : List EdgeKey
  retiredEvidence : List String
  retiredEntities : List String
  candidates : List BrainSourceProjection

namespace Plan

def items (p : Plan) : List Item :=
  p.entities.map .entity ++ p.evidence.toList.map .evidence ++ p.edges.map .edge ++
    p.retiredEvidence.map .retireEvidence ++ p.retiredEntities.map .retireEntity

/-- The relationship the candidates contribute under a key. -/
def desired (p : Plan) (k : EdgeKey) : Option BrainRelationship :=
  match relationshipMemberships p.candidates k with
  | [] => none
  | evidenceIds => (BrainRelationship.make k.sourceId k.targetId k.kind evidenceIds).toOption

def round (q : MemoryProjector) (clock : Clock) (p : Plan) : Item → Store → Round
  | .entity e => q.putEntityIfChanged clock p.provenance e
  | .evidence v => q.putEvidenceIfChanged clock p.provenance (some v)
  | .edge k => q.reconcileRelationship clock p.candidates k
  | .retireEvidence id => q.retireEvidence clock p.candidates id
  | .retireEntity id => q.retireEntity clock p.candidates id

/-- The plan carried out on a store. -/
def carryOut (q : MemoryProjector) (clock : Clock) (p : Plan) : Store → Store × Except BrainError Unit :=
  sweep (fun i => perform (p.round q clock i)) p.items

/-- The texts of a plan are in order and its items do not share a place. -/
structure Fits (p : Plan) : Prop where
  edges : ∀ k ∈ p.edges, required 500 k.sourceId = true ∧ required 500 k.targetId = true ∧
    k.sourceId ≠ k.targetId
  retiredEvidence : ∀ id ∈ p.retiredEvidence, required 500 id = true ∧
    id ∉ p.candidates.flatMap (·.evidenceIds)
  retiredEntities : ∀ id ∈ p.retiredEntities, required 500 id = true ∧
    id ∉ p.candidates.flatMap (·.ownedEntityIds)
  apart : p.items.Pairwise fun i j => List.Disjoint i.places j.places

end Plan

/-! ### Rounds and writes -/

section
variable {s : Store} {op : StoreOp}

theorem write_accepted {r' : Rows} (hvalid : op.Valid) (h : Wrote (s.rows op.tenant) r' op) :
    ∃ s', (Round.write op).run s = (s', .ok ()) ∧ Wrote (s.rows op.tenant) (s'.rows op.tenant) op := by
  obtain ⟨s', a, hstep⟩ := step_accepts hvalid h
  exact ⟨s', void_ok_iff.mpr ⟨a, hstep⟩, (step_rows hstep).2⟩

theorem write_refused (h : ∀ r', ¬ Wrote (s.rows op.tenant) r' op) :
    ∃ x, (Round.write op).run s = (s, .error x) := by
  generalize hstep : s.step op = out
  obtain ⟨s', answer⟩ := out
  cases answer with
  | ok a => exact absurd (step_rows hstep).2 (h _)
  | error x =>
    have hsame := Store.step_error hstep
    subst hsame
    exact ⟨x, by simp [Round.run, hstep, void, Except.map]⟩

end

section
variable {α : Type}

/-- A place an ordinary write of a projection may use. -/
def Free (row : Option (Stored α)) : Prop := ∀ x, row = some x → Mutable defaultRetentionPolicy x

/-- The row a projection leaves for a record. -/
def WrittenAs (a : α) (row : Stored α) : Prop :=
  row.record = a ∧ row.isActive = true ∧ row.retention = defaultRetentionPolicy

/-- The row a projection leaves in the place of one that it retires. -/
def RetiredFrom (old row : Stored α) : Prop :=
  row.record = old.record ∧ row.isActive = false ∧ row.retention = old.retention

theorem writable_iff {provenance : BrainProvenance} {row : Option (Stored α)} :
    Writable (projectionTerms provenance) row ↔ Free row :=
  and_iff_right fun _ h => nomatch h

theorem writtenAs_revised (current : Option (Stored α)) (tenant : String) (record : α)
    (provenance : BrainProvenance) (now : Int) :
    WrittenAs record (revised current tenant record (projectionTerms provenance) now) :=
  ⟨rfl, rfl, rfl⟩

theorem retiredFrom_tombstone (old : Stored α) (reason : String) (now : Int) :
    RetiredFrom old (tombstone old reason now) :=
  ⟨rfl, rfl, rfl⟩

theorem active_row {row : Option (Stored α)} (h : Live row) :
    ∃ x, row = some x ∧ row.filter (fun r => false || r.isActive) = some x ∧ x.isActive = true := by
  obtain ⟨x, rfl, hx⟩ := h
  exact ⟨x, rfl, by simp [Option.filter, hx], hx⟩

theorem inactive_row {row : Option (Stored α)} (h : ¬ Live row) :
    row.filter (fun r => false || r.isActive) = none := by
  cases row with
  | none => rfl
  | some x =>
    have hx : x.isActive = false := by simpa [Live] using h
    simp [Option.filter, hx]

theorem content_eq_record (row : Option (Stored α)) :
    (row.filter fun r => false || r.isActive).map (·.record) = Content row := by
  simp [Content]

end

section
variable {s : Store} {tenant : String}

theorem getEntity_eq (htenant : required 200 tenant = true) {id : String}
    (hid : required 500 id = true) : s.getEntity tenant id false =
      .ok ((s.entityRow tenant id).filter fun r => false || r.isActive) :=
  reading_eq_ok.mpr ⟨by simp [htenant, hid], rfl⟩

theorem getEvidence_eq (htenant : required 200 tenant = true) {id : String}
    (hid : required 500 id = true) : s.getEvidence tenant id false =
      .ok ((s.evidenceRow tenant id).filter fun r => false || r.isActive) :=
  reading_eq_ok.mpr ⟨by simp [htenant, hid], rfl⟩

theorem getRelationship_eq (htenant : required 200 tenant = true) {k : EdgeKey}
    (hs : required 500 k.sourceId = true) (ht : required 500 k.targetId = true) :
    s.getRelationship tenant k false =
      .ok ((s.relationshipRow tenant k).filter fun r => false || r.isActive) :=
  reading_eq_ok.mpr ⟨by simp [htenant, hs, ht], rfl⟩

end

theorem BrainEntity.required_id (e : BrainEntity) : required 500 e.entityId = true :=
  invalid_eq_none.mp (Option.or_eq_none_iff.mp e.valid).1

theorem BrainEvidence.required_id (v : BrainEvidence) : required 500 v.evidenceId = true :=
  invalid_eq_none.mp (Option.or_eq_none_iff.mp v.valid).1

/-! ### What is wanted of a relationship -/

section
variable {projections : List BrainSourceProjection} {k : EdgeKey} {v : String}

theorem mem_relationshipMemberships : v ∈ relationshipMemberships projections k ↔
    ∃ p ∈ projections, ∃ r ∈ p.relationships, r.key = k ∧ v ∈ r.evidenceIds := by
  simp only [relationshipMemberships, mem_sortedSet, List.mem_flatMap, List.mem_filter,
    decide_eq_true_eq, and_assoc]

theorem required_membership (h : v ∈ relationshipMemberships projections k) :
    required 200 v = true := by
  obtain ⟨p, -, r, -, -, hv⟩ := mem_relationshipMemberships.mp h
  exact (relationshipProblem_eq_none.mp r.valid).2.2.2.2 v hv

/-- Someone contributes a relationship that has memberships. -/
theorem contributor_of_memberships (h : relationshipMemberships projections k ≠ []) :
    ∃ c, (projections.find? fun p => p.relationships.any (·.key = k)) = some c := by
  obtain ⟨v, hv⟩ := List.exists_mem_of_ne_nil _ h
  obtain ⟨p, hp, r, hr, hkey, -⟩ := mem_relationshipMemberships.mp hv
  have hsome : (projections.find? fun p => p.relationships.any (·.key = k)).isSome = true := by
    rw [List.find?_isSome]
    exact ⟨p, hp, by simpa using ⟨r, hr, hkey⟩⟩
  exact Option.isSome_iff_exists.mp hsome

end

namespace Plan

variable {p : Plan} {k : EdgeKey}

/-- Either nobody contributes the relationship, or it is wanted with all the evidence of those
who do. -/
theorem desired_cases (hs : required 500 k.sourceId = true) (ht : required 500 k.targetId = true)
    (hne : k.sourceId ≠ k.targetId) :
    (relationshipMemberships p.candidates k = [] ∧ p.desired k = none) ∨
    ∃ r, relationshipMemberships p.candidates k ≠ [] ∧ p.desired k = some r ∧ r.key = k ∧
      r.evidenceIds = relationshipMemberships p.candidates k ∧
      BrainRelationship.make k.sourceId k.targetId k.kind (relationshipMemberships p.candidates k) =
        .ok r := by
  unfold desired
  cases hids : relationshipMemberships p.candidates k with
  | nil => exact .inl ⟨rfl, rfl⟩
  | cons v ids =>
    have hvalid : relationshipProblem k.sourceId k.targetId (v :: ids) = none := by
      refine relationshipProblem_eq_none.mpr ⟨hs, ht, hne, ?_, fun w hw => ?_⟩
      · rw [← hids]
        exact pairwise_sortedSet _
      · exact required_membership (hids ▸ hw)
    refine .inr ⟨⟨k.sourceId, k.targetId, k.kind, v :: ids, hvalid⟩, by simp, ?_, rfl, rfl,
      BrainRelationship.make_ok hvalid⟩
    simp [BrainRelationship.make_ok hvalid, Except.toOption]

theorem desired_eq_some {r : BrainRelationship} (h : p.desired k = some r) :
    r.key = k ∧ r.evidenceIds = relationshipMemberships p.candidates k := by
  unfold desired at h
  split at h
  · cases h
  · next ids hids =>
    generalize hmake : BrainRelationship.make k.sourceId k.targetId k.kind
      (relationshipMemberships p.candidates k) = out at h
    cases out with
    | error x => cases h
    | ok r' =>
      cases h
      obtain ⟨hsource, htarget, hkind, hevidence⟩ := BrainRelationship.make_eq_ok hmake
      exact ⟨by simp [BrainRelationship.key, hsource, htarget, hkind], hevidence⟩

end Plan

/-! ### Items on the rows they meet -/

namespace Item

/-- The item has something to write. -/
def pending (p : Plan) (r : Rows) : Item → Prop
  | entity e => Content (r.entity e.entityId) ≠ some e
  | evidence v => Content (r.evidence v.evidenceId) ≠ some v
  | edge k => Content (r.relationship k) ≠ p.desired k
  | retireEvidence id => Live (r.evidence id)
  | retireEntity id => Live (r.entity id)

/-- The store refuses the item: a tombstone, a retention, an end or evidence that is not there. -/
def barred (p : Plan) (reached shown : String → Prop) (r : Rows) : Item → Prop
  | entity e => ¬ Free (r.entity e.entityId)
  | evidence v => ¬ Free (r.evidence v.evidenceId) ∨ ¬ Free (r.entity v.evidenceId) ∨
      ∀ e, evidenceEntity v ≠ .ok e
  | edge k =>
    match p.desired k with
    | none => ∃ row, r.relationship k = some row ∧ row.retention.legalHold = true
    | some relationship => ¬ Free (r.relationship k) ∨ ¬ reached k.sourceId ∨ ¬ reached k.targetId ∨
        ∃ v ∈ relationship.evidenceIds, ¬ shown v
  | retireEvidence id => (∃ row, r.evidence id = some row ∧ row.retention.legalHold = true) ∨
      ¬ ∃ e, r.entity id = some e ∧ e.record.kind = .evidence ∧ e.isActive = true ∧
        e.retention.legalHold = false
  | retireEntity id => ∃ row, r.entity id = some row ∧
      (row.retention.legalHold = true ∨ row.record.kind = .evidence)

/-- The item meets rows on which it is refused. -/
def blocked (p : Plan) (r : Rows) : Item → Prop :=
  barred p (fun id => Live (r.entity id)) (fun id => Live (r.evidence id)) r

/-- What an item that goes through does to the rows. -/
def Effect (p : Plan) (r r' : Rows) : Item → Prop
  | entity e => ∃ row, WrittenAs e row ∧ r' = r.setEntity e.entityId row
  | evidence v => ∃ row e structural, evidenceEntity v = .ok e ∧ WrittenAs v row ∧
      WrittenAs e structural ∧
      r' = (r.setEvidence v.evidenceId row).setEntity v.evidenceId structural
  | edge k =>
    match p.desired k with
    | none => ∃ old row, r.relationship k = some old ∧ RetiredFrom old row ∧
        r' = r.setRelationship k row
    | some relationship => r.Linkable relationship ∧
        ∃ row, WrittenAs relationship row ∧ r' = r.setRelationship k row
  | retireEvidence id => ∃ old structural row tomb, r.evidence id = some old ∧
      r.entity id = some structural ∧ structural.record.kind = .evidence ∧ RetiredFrom old row ∧
      RetiredFrom structural tomb ∧ r' = (r.setEvidence id row).setEntity id tomb
  | retireEntity id => ∃ old row, r.entity id = some old ∧ old.record.kind ≠ .evidence ∧
      RetiredFrom old row ∧ r' = r.setEntity id row

/-- What a round asks on given rows. -/
structure Asks (p : Plan) (tenant : String) (r : Rows) (i : Item) (op : StoreOp) : Prop where
  tenant : op.tenant = tenant
  valid : op.Valid
  refuses : i.blocked p r → ∀ r', ¬ Wrote r r' op
  accepts : ¬ i.blocked p r → ∃ r', Wrote r r' op
  effect : ∀ r', Wrote r r' op → i.Effect p r r'

end Item

section
variable {q : MemoryProjector} {clock : Clock} {p : Plan} {s : Store}

theorem round_entity (e : BrainEntity) :
    (¬ (Item.entity e).pending p (s.rows q.tenantId) → p.round q clock (.entity e) s = .done) ∧
    ((Item.entity e).pending p (s.rows q.tenantId) →
      ∃ op, p.round q clock (.entity e) s = .write op ∧
        (Item.entity e).Asks p q.tenantId (s.rows q.tenantId) op) := by
  simp only [Plan.round]
  unfold MemoryProjector.putEntityIfChanged
  simp only [getEntity_eq q.valid e.required_id,
    content_eq_record, Item.pending, Store.rows]
  refine ⟨fun h => if_pos (not_not.mp h), fun h => ⟨_, if_neg h, rfl, q.valid, ?_, ?_, ?_⟩⟩
  · rintro hblocked r' ⟨hwritable, -⟩
    exact hblocked (writable_iff.mp hwritable)
  · intro hfree
    exact ⟨_, writable_iff.mpr (not_not.mp hfree), rfl⟩
  · rintro r' ⟨-, rfl⟩
    exact ⟨_, writtenAs_revised _ _ _ _ _, rfl⟩

theorem round_evidence (v : BrainEvidence) :
    (¬ (Item.evidence v).pending p (s.rows q.tenantId) → p.round q clock (.evidence v) s = .done) ∧
    ((Item.evidence v).pending p (s.rows q.tenantId) →
      ∃ op, p.round q clock (.evidence v) s = .write op ∧
        (Item.evidence v).Asks p q.tenantId (s.rows q.tenantId) op) := by
  simp only [Plan.round]
  unfold MemoryProjector.putEvidenceIfChanged
  simp only [getEvidence_eq q.valid v.required_id,
    content_eq_record, Item.pending, Store.rows]
  refine ⟨fun h => if_pos (not_not.mp h), fun h => ⟨_, if_neg h, rfl, q.valid, ?_, ?_, ?_⟩⟩
  · rintro (hevidence | hentity | hmake) r' ⟨hwritable, hmutable, e, he, -⟩
    · exact hevidence (writable_iff.mp hwritable)
    · exact hentity hmutable
    · exact hmake e he
  · intro hfree
    simp only [Item.blocked, Item.barred, not_or, not_not, not_forall] at hfree
    obtain ⟨hevidence, hentity, e, he⟩ := hfree
    exact ⟨_, writable_iff.mpr hevidence, hentity, e, he, rfl⟩
  · rintro r' ⟨-, -, e, he, rfl⟩
    exact ⟨_, e, _, he, writtenAs_revised _ _ _ _ _, writtenAs_revised _ _ _ _ _, rfl⟩

/-- The reasons a projection deletes for. -/
theorem required_reason :
    required 500 "source projection no longer contributes this relationship" = true ∧
      required 500 "source projection is superseded or deleted" = true := by
  decide

theorem content_eq_none {α : Type} {row : Option (Stored α)} : Content row = none ↔ ¬ Live row := by
  rw [← content_isSome, Option.not_isSome_iff_eq_none]

theorem round_edge {k : EdgeKey} (hs : required 500 k.sourceId = true)
    (ht : required 500 k.targetId = true) (hne : k.sourceId ≠ k.targetId) :
    (¬ (Item.edge k).pending p (s.rows q.tenantId) → p.round q clock (.edge k) s = .done) ∧
    ((Item.edge k).pending p (s.rows q.tenantId) →
      ∃ op, p.round q clock (.edge k) s = .write op ∧
        (Item.edge k).Asks p q.tenantId (s.rows q.tenantId) op) := by
  have hread := getRelationship_eq (s := s) q.valid hs ht
  obtain ⟨hids, hdesired⟩ | ⟨relationship, hids, hdesired, hkey, hevidence, hmake⟩ :=
    p.desired_cases hs ht hne
  · simp only [Plan.round]
    unfold MemoryProjector.reconcileRelationship
    simp only [hread, hids, Item.pending, hdesired]
    refine ⟨fun h => ?_, fun h => ?_⟩
    · have hgone : ¬ Live (s.relationshipRow q.tenantId k) := content_eq_none.mp (not_not.mp h)
      rw [inactive_row hgone]
    · have hlive : Live (s.relationshipRow q.tenantId k) := not_not.mp (mt content_eq_none.mpr h)
      obtain ⟨row, hrow, hfilter, hactive⟩ := active_row hlive
      refine ⟨.deleteRelationship q.tenantId k ⟨row.version,
        "source projection no longer contributes this relationship", none⟩
        (clock.writes s.auditEvents.length), by rw [hfilter], rfl,
        ⟨⟨q.valid, by simp [hs, ht], required_reason.1⟩, _, rfl⟩, ?_, ?_, ?_⟩
      · simp only [Item.blocked, Item.barred, hdesired]
        rintro ⟨held, hheld, hhold⟩ r' ⟨found, time, hfound, hdeletable, -⟩
        cases hheld.symm.trans hfound
        exact Bool.false_ne_true (hdeletable.2.2.symm.trans hhold)
      · simp only [Item.blocked, Item.barred, hdesired]
        intro hfree
        have hhold : row.retention.legalHold = false := by
          rw [Bool.eq_false_iff]
          exact fun hhold => hfree ⟨row, hrow, hhold⟩
        exact ⟨_, row, 0, hrow, ⟨rfl, hactive, hhold⟩, rfl⟩
      · rintro r' ⟨found, time, hfound, -, rfl⟩
        simp only [Item.Effect, hdesired]
        exact ⟨found, _, hfound, retiredFrom_tombstone _ _ _, rfl⟩
  · obtain ⟨candidate, hcandidate⟩ := contributor_of_memberships hids
    obtain ⟨hsource, htarget, -, -⟩ := BrainRelationship.make_eq_ok hmake
    have hround : p.round q clock (.edge k) s =
        if Content (s.relationshipRow q.tenantId k) = some relationship then .done
        else .write (.putRelationship q.tenantId relationship (projectionTerms candidate.provenance)
          (clock.writes s.auditEvents.length)) := by
      simp only [Plan.round]
      unfold MemoryProjector.reconcileRelationship
      simp only [hread, hcandidate, hmake, content_eq_record]
    rw [hround]
    simp only [Item.pending, hdesired]
    refine ⟨fun h => if_pos (not_not.mp h), fun h => ⟨_, if_neg h, rfl, q.valid, ?_, ?_, ?_⟩⟩
    · simp only [Item.blocked, Item.barred, hdesired]
      rintro (hrow | hend | hend | ⟨v, hv, hgone⟩) r' ⟨hlinkable, hwritable, -⟩
      · rw [hkey] at hwritable
        exact hrow (writable_iff.mp hwritable)
      · exact hend (hsource ▸ hlinkable.1)
      · exact hend (htarget ▸ hlinkable.2.1)
      · exact hgone (hlinkable.2.2 v hv)
    · simp only [Item.blocked, Item.barred, hdesired, not_or, not_not, not_exists, not_and]
      rintro ⟨hfree, hlive, hlive', hall⟩
      refine ⟨_, ⟨?_, ?_, hall⟩, ?_, rfl⟩
      · rwa [hsource]
      · rwa [htarget]
      · rw [hkey]
        exact writable_iff.mpr hfree
    · rintro r' ⟨hlinkable, -, rfl⟩
      simp only [Item.Effect, hdesired]
      rw [hkey]
      exact ⟨hlinkable, _, writtenAs_revised _ _ _ _ _, rfl⟩

theorem round_retireEvidence {id : String} (hid : required 500 id = true)
    (hgone : id ∉ p.candidates.flatMap (·.evidenceIds)) :
    (¬ (Item.retireEvidence id).pending p (s.rows q.tenantId) →
      p.round q clock (.retireEvidence id) s = .done) ∧
    ((Item.retireEvidence id).pending p (s.rows q.tenantId) →
      ∃ op, p.round q clock (.retireEvidence id) s = .write op ∧
        (Item.retireEvidence id).Asks p q.tenantId (s.rows q.tenantId) op) := by
  simp only [Plan.round, MemoryProjector.retireEvidence, if_neg hgone, getEvidence_eq q.valid hid,
    Item.pending]
  refine ⟨fun h => ?_, fun h => ?_⟩
  · rw [inactive_row (show ¬ Live (s.evidenceRow q.tenantId id) from h)]
  · obtain ⟨row, hrow, hfilter, hactive⟩ :=
      active_row (show Live (s.evidenceRow q.tenantId id) from h)
    refine ⟨.deleteEvidence q.tenantId id ⟨row.version, "source projection is superseded or deleted", none⟩
      (clock.writes s.auditEvents.length), by rw [hfilter], rfl,
      ⟨⟨q.valid, by simp [hid], required_reason.2⟩, _, rfl⟩, ?_, ?_, ?_⟩
    · rintro (⟨held, hheld, hhold⟩ | hstructural) r' ⟨found, structural, time, hfound, hdeletable,
        hentity, hkind, hlive, hhold', -⟩
      · cases hheld.symm.trans hfound
        exact Bool.false_ne_true (hdeletable.2.2.symm.trans hhold)
      · exact hstructural ⟨structural, hentity, hkind, hlive, hhold'⟩
    · intro hfree
      simp only [Item.blocked, Item.barred, not_or, not_not] at hfree
      obtain ⟨hheld, structural, hentity, hkind, hlive, hhold'⟩ := hfree
      have hhold : row.retention.legalHold = false := by
        rw [Bool.eq_false_iff]
        exact fun hhold => hheld ⟨row, hrow, hhold⟩
      exact ⟨_, row, structural, 0, hrow, ⟨rfl, hactive, hhold⟩, hentity, hkind, hlive, hhold', rfl⟩
    · rintro r' ⟨found, structural, time, hfound, -, hentity, hkind, -, -, rfl⟩
      exact ⟨found, structural, _, _, hfound, hentity, hkind, retiredFrom_tombstone _ _ _,
        retiredFrom_tombstone _ _ _, rfl⟩

theorem round_retireEntity {id : String} (hid : required 500 id = true)
    (hgone : id ∉ p.candidates.flatMap (·.ownedEntityIds)) :
    (¬ (Item.retireEntity id).pending p (s.rows q.tenantId) →
      p.round q clock (.retireEntity id) s = .done) ∧
    ((Item.retireEntity id).pending p (s.rows q.tenantId) →
      ∃ op, p.round q clock (.retireEntity id) s = .write op ∧
        (Item.retireEntity id).Asks p q.tenantId (s.rows q.tenantId) op) := by
  simp only [Plan.round, MemoryProjector.retireEntity, if_neg hgone, getEntity_eq q.valid hid,
    Item.pending]
  refine ⟨fun h => ?_, fun h => ?_⟩
  · rw [inactive_row (show ¬ Live (s.entityRow q.tenantId id) from h)]
  · obtain ⟨row, hrow, hfilter, hactive⟩ := active_row (show Live (s.entityRow q.tenantId id) from h)
    refine ⟨.deleteEntity q.tenantId id ⟨row.version, "source projection is superseded or deleted", none⟩
      (clock.writes s.auditEvents.length), by rw [hfilter], rfl,
      ⟨⟨q.valid, by simp [hid], required_reason.2⟩, _, rfl⟩, ?_, ?_, ?_⟩
    · rintro ⟨held, hheld, hhold⟩ r' ⟨found, time, hfound, hdeletable, hkind, -⟩
      cases hheld.symm.trans hfound
      cases hhold with
      | inl hhold => exact Bool.false_ne_true (hdeletable.2.2.symm.trans hhold)
      | inr hevidence => exact hkind hevidence
    · intro hfree
      simp only [Item.blocked, Item.barred, not_exists, not_and, not_or] at hfree
      obtain ⟨hhold, hkind⟩ := hfree row hrow
      exact ⟨_, row, 0, hrow, ⟨rfl, hactive, by simpa using hhold⟩, hkind, rfl⟩
    · rintro r' ⟨found, time, hfound, -, hkind, rfl⟩
      exact ⟨found, _, hfound, hkind, retiredFrom_tombstone _ _ _, rfl⟩

/-- What a round comes to: nothing, or one write that the store judges by `blocked`. -/
theorem Plan.Fits.round_cases (h : p.Fits) (q : MemoryProjector) (clock : Clock) (s : Store) {i : Item}
    (hi : i ∈ p.items) :
    (¬ i.pending p (s.rows q.tenantId) → p.round q clock i s = .done) ∧
    (i.pending p (s.rows q.tenantId) → ∃ op, p.round q clock i s = .write op ∧
      i.Asks p q.tenantId (s.rows q.tenantId) op) := by
  simp only [Plan.items, List.mem_append, List.mem_map, Option.mem_toList] at hi
  obtain (((⟨e, -, rfl⟩ | ⟨v, -, rfl⟩) | ⟨k, hk, rfl⟩) | ⟨id, hid, rfl⟩) | ⟨id, hid, rfl⟩ := hi
  · exact round_entity e
  · exact round_evidence v
  · obtain ⟨hs, ht, hne⟩ := h.edges k hk
    exact round_edge hs ht hne
  · obtain ⟨hrequired, hgone⟩ := h.retiredEvidence id hid
    exact round_retireEvidence hrequired hgone
  · obtain ⟨hrequired, hgone⟩ := h.retiredEntities id hid
    exact round_retireEntity hrequired hgone

/-- A call of an item: nothing, a refusal, or its effect. -/
theorem Plan.Fits.item_cases (h : p.Fits) (q : MemoryProjector) (clock : Clock) (s : Store) {i : Item}
    (hi : i ∈ p.items) :
    (¬ i.pending p (s.rows q.tenantId) → perform (p.round q clock i) s = (s, .ok ())) ∧
    (i.pending p (s.rows q.tenantId) → i.blocked p (s.rows q.tenantId) →
      ∃ x, perform (p.round q clock i) s = (s, .error x)) ∧
    (i.pending p (s.rows q.tenantId) → ¬ i.blocked p (s.rows q.tenantId) →
      ∃ s', perform (p.round q clock i) s = (s', .ok ()) ∧
        i.Effect p (s.rows q.tenantId) (s'.rows q.tenantId)) := by
  obtain ⟨hidle, hasks⟩ := h.round_cases q clock s hi
  refine ⟨fun hp => ?_, fun hp hblocked => ?_, fun hp hfree => ?_⟩
  · rw [perform, hidle hp]
    rfl
  · obtain ⟨op, hround, hop⟩ := hasks hp
    rw [perform, hround]
    exact write_refused (hop.tenant.symm ▸ hop.refuses hblocked)
  · obtain ⟨op, hround, hop⟩ := hasks hp
    obtain ⟨r', hwrote⟩ := hop.accepts hfree
    rw [perform, hround]
    obtain ⟨s', hrun, hwrote'⟩ := write_accepted hop.valid (hop.tenant.symm ▸ hwrote)
    rw [hop.tenant] at hwrote'
    exact ⟨s', hrun, hop.effect _ hwrote'⟩

end

/-! ### Items that do not share a place -/

/-- The rows agree outside some places. -/
structure Rows.Agree (places : List Place) (r r' : Rows) : Prop where
  entity : ∀ id, .entity id ∉ places → r'.entity id = r.entity id
  evidence : ∀ id, .evidence id ∉ places → r'.evidence id = r.evidence id
  relationship : ∀ k, .edge k ∉ places → r'.relationship k = r.relationship k

theorem Rows.Agree.refl (places : List Place) (r : Rows) : Rows.Agree places r r :=
  ⟨fun _ _ => rfl, fun _ _ => rfl, fun _ _ => rfl⟩

theorem Rows.Agree.trans {places places' : List Place} {r r' r'' : Rows} (h : Rows.Agree places r r')
    (h' : Rows.Agree places' r' r'') (hsub : places' ⊆ places) : Rows.Agree places r r'' :=
  ⟨fun id hid => (h'.entity id fun hmem => hid (hsub hmem)).trans (h.entity id hid),
    fun id hid => (h'.evidence id fun hmem => hid (hsub hmem)).trans (h.evidence id hid),
    fun k hk => (h'.relationship k fun hmem => hk (hsub hmem)).trans (h.relationship k hk)⟩

section
variable {r : Rows} {x : String}

theorem entity_setEntity_of_ne {id : String} {row : StoredEntity} (h : x ≠ id) :
    (r.setEntity id row).entity x = r.entity x := by
  simp [Rows.setEntity, h]

theorem evidence_setEvidence_of_ne {id : String} {row : StoredEvidence} (h : x ≠ id) :
    (r.setEvidence id row).evidence x = r.evidence x := by
  simp [Rows.setEvidence, h]

theorem relationship_setRelationship_of_ne {k k' : EdgeKey} {row : StoredRelationship} (h : k' ≠ k) :
    (r.setRelationship k row).relationship k' = r.relationship k' := by
  simp [Rows.setRelationship, h]

@[simp] theorem entity_setEntity_self {id : String} {row : StoredEntity} :
    (r.setEntity id row).entity id = some row := by
  simp [Rows.setEntity]

@[simp] theorem evidence_setEvidence_self {id : String} {row : StoredEvidence} :
    (r.setEvidence id row).evidence id = some row := by
  simp [Rows.setEvidence]

@[simp] theorem relationship_setRelationship_self {k : EdgeKey} {row : StoredRelationship} :
    (r.setRelationship k row).relationship k = some row := by
  simp [Rows.setRelationship]

theorem agree_setEntity {id : String} {row : StoredEntity} :
    Rows.Agree [.entity id] r (r.setEntity id row) where
  entity x hx := entity_setEntity_of_ne fun h => hx (by simp [h])
  evidence _ _ := rfl
  relationship _ _ := rfl

theorem agree_setRelationship {k : EdgeKey} {row : StoredRelationship} :
    Rows.Agree [.edge k] r (r.setRelationship k row) where
  entity _ _ := rfl
  evidence _ _ := rfl
  relationship k' hk' := relationship_setRelationship_of_ne fun h => hk' (by simp [h])

theorem agree_setPair {id : String} {row : StoredEvidence} {structural : StoredEntity} :
    Rows.Agree [.evidence id, .entity id] r ((r.setEvidence id row).setEntity id structural) where
  entity x hx := entity_setEntity_of_ne fun h => hx (by simp [h])
  evidence x hx := evidence_setEvidence_of_ne fun h => hx (by simp [h])
  relationship _ _ := rfl

end

section
variable {α : Type} {a : α} {old row : Stored α}

theorem WrittenAs.content (h : WrittenAs a row) : Content (some row) = some a :=
  content_eq_some.mpr ⟨row, rfl, h.2.1, h.1⟩

theorem WrittenAs.live (h : WrittenAs a row) : Live (some row) := ⟨row, rfl, h.2.1⟩

theorem RetiredFrom.not_live (h : RetiredFrom old row) : ¬ Live (some row) := by
  rintro ⟨x, ⟨⟩, hx⟩
  exact Bool.false_ne_true (h.2.1.symm.trans hx)

theorem RetiredFrom.content (h : RetiredFrom old row) : Content (some row) = none :=
  content_eq_none.mpr h.not_live

end

namespace Item

variable {p : Plan} {r r' : Rows} {i : Item}

theorem Effect.agree (h : i.Effect p r r') : Rows.Agree i.places r r' := by
  cases i with
  | entity e =>
    obtain ⟨row, -, rfl⟩ := h
    exact agree_setEntity
  | evidence v =>
    obtain ⟨row, e, structural, -, -, -, rfl⟩ := h
    exact agree_setPair
  | edge k =>
    simp only [Effect] at h
    split at h
    · obtain ⟨old, row, -, -, rfl⟩ := h
      exact agree_setRelationship
    · obtain ⟨-, row, -, rfl⟩ := h
      exact agree_setRelationship
  | retireEvidence id =>
    obtain ⟨old, structural, row, tomb, -, -, -, -, -, rfl⟩ := h
    exact agree_setPair
  | retireEntity id =>
    obtain ⟨old, row, -, -, -, rfl⟩ := h
    exact agree_setEntity

/-- An item that has gone through has nothing left to write. -/
theorem Effect.done (h : i.Effect p r r') : ¬ i.pending p r' := by
  cases i with
  | entity e =>
    obtain ⟨row, hrow, rfl⟩ := h
    simp only [pending, entity_setEntity_self, not_not]
    exact hrow.content
  | evidence v =>
    obtain ⟨row, e, structural, -, hrow, -, rfl⟩ := h
    simp only [pending, not_not]
    exact (congrArg Content evidence_setEvidence_self).trans hrow.content
  | edge k =>
    simp only [Effect] at h
    simp only [pending, not_not]
    split at h
    · next hdesired =>
      obtain ⟨old, row, -, hrow, rfl⟩ := h
      rw [hdesired, relationship_setRelationship_self]
      exact hrow.content
    · next hdesired =>
      obtain ⟨-, row, hrow, rfl⟩ := h
      rw [hdesired, relationship_setRelationship_self]
      exact hrow.content
  | retireEvidence id =>
    obtain ⟨old, structural, row, tomb, -, -, -, hrow, -, rfl⟩ := h
    simp only [pending]
    exact fun hlive => hrow.not_live (evidence_setEvidence_self (r := r) ▸ hlive)
  | retireEntity id =>
    obtain ⟨old, row, -, -, hrow, rfl⟩ := h
    simp only [pending, entity_setEntity_self]
    exact hrow.not_live

theorem pending_agree {places : List Place} (h : Rows.Agree places r r')
    (hdisjoint : List.Disjoint i.places places) : i.pending p r' ↔ i.pending p r := by
  cases i with
  | entity e => simp only [pending, h.entity e.entityId (hdisjoint List.mem_cons_self)]
  | evidence v => simp only [pending, h.evidence v.evidenceId (hdisjoint List.mem_cons_self)]
  | edge k => simp only [pending, h.relationship k (hdisjoint List.mem_cons_self)]
  | retireEvidence id => simp only [pending, h.evidence id (hdisjoint List.mem_cons_self)]
  | retireEntity id => simp only [pending, h.entity id (hdisjoint List.mem_cons_self)]

theorem barred_agree {places : List Place} {reached shown reached' shown' : String → Prop}
    (h : Rows.Agree places r r') (hdisjoint : List.Disjoint i.places places)
    (hends : ∀ k, i = .edge k → ∀ id, (reached' id ↔ reached id) ∧ (shown' id ↔ shown id)) :
    i.barred p reached' shown' r' ↔ i.barred p reached shown r := by
  cases i with
  | entity e => simp only [barred, h.entity e.entityId (hdisjoint List.mem_cons_self)]
  | evidence v =>
    simp only [barred, h.evidence v.evidenceId (hdisjoint List.mem_cons_self),
      h.entity v.evidenceId (hdisjoint (by simp [Item.places]))]
  | edge k =>
    have hreached := fun id => (hends k rfl id).1
    have hshown := fun id => (hends k rfl id).2
    simp only [barred, h.relationship k (hdisjoint List.mem_cons_self), hreached, hshown]
  | retireEvidence id =>
    simp only [barred, h.evidence id (hdisjoint List.mem_cons_self),
      h.entity id (hdisjoint (by simp [Item.places]))]
  | retireEntity id => simp only [barred, h.entity id (hdisjoint List.mem_cons_self)]

/-- The phases of a plan: records, relationships, retirements. -/
def phase : Item → Nat
  | entity _ | evidence _ => 0
  | edge _ => 1
  | retireEvidence _ | retireEntity _ => 2

end Item

namespace Plan

variable {p : Plan} {r r' : Rows}

/-- The entity is active, or will be before the relationships are written. -/
def Reached (p : Plan) (r : Rows) (id : String) : Prop :=
  Live (r.entity id) ∨ id ∈ p.entities.map (·.entityId) ∨
    ∃ v, p.evidence = some v ∧ v.evidenceId = id ∧ Content (r.evidence id) ≠ some v

/-- The evidence is active, or will be before the relationships are written. -/
def Shown (p : Plan) (r : Rows) (id : String) : Prop :=
  Live (r.evidence id) ∨ ∃ v, p.evidence = some v ∧ v.evidenceId = id

/-- The store will refuse the item, as the rows before the plan tell. -/
def refused (p : Plan) (r : Rows) (i : Item) : Prop := i.barred p (p.Reached r) (p.Shown r) r

theorem mem_items {i : Item} : i ∈ p.items ↔
    (((∃ e ∈ p.entities, .entity e = i) ∨ (∃ v, p.evidence = some v ∧ .evidence v = i)) ∨
      (∃ k ∈ p.edges, .edge k = i)) ∨ (∃ id ∈ p.retiredEvidence, .retireEvidence id = i) ∨
      ∃ id ∈ p.retiredEntities, .retireEntity id = i := by
  simp only [items, List.mem_append, List.mem_map, Option.mem_toList, or_assoc]

theorem items_phases (p : Plan) : p.items.Pairwise fun i j => i.phase ≤ j.phase := by
  simp only [items, List.pairwise_append, List.pairwise_map, List.mem_append, List.mem_map]
  refine ⟨⟨⟨⟨List.pairwise_of_forall fun _ _ => le_refl _, List.pairwise_of_forall fun _ _ => le_refl _,
    ?_⟩, List.pairwise_of_forall fun _ _ => le_refl _, ?_⟩,
    List.pairwise_of_forall fun _ _ => le_refl _, ?_⟩,
    List.pairwise_of_forall fun _ _ => le_refl _, ?_⟩
  all_goals rintro a ha b ⟨c, -, rfl⟩
  · obtain ⟨e, -, rfl⟩ := ha
    exact le_refl _
  · obtain ⟨e, -, rfl⟩ | ⟨v, -, rfl⟩ := ha <;> exact Nat.zero_le _
  · obtain (⟨e, -, rfl⟩ | ⟨v, -, rfl⟩) | ⟨k, -, rfl⟩ := ha <;> simp [Item.phase]
  · obtain ((⟨e, -, rfl⟩ | ⟨v, -, rfl⟩) | ⟨k, -, rfl⟩) | ⟨id, -, rfl⟩ := ha <;> simp [Item.phase]

/-- Writing a record or a relationship does not change what will be there for the relationships. -/
theorem ends_kept {i : Item} (hi : i ∈ p.items) (hphase : i.phase ≤ 1) (hp : i.pending p r)
    (h : i.Effect p r r') (id : String) :
    (p.Reached r' id ↔ p.Reached r id) ∧ (p.Shown r' id ↔ p.Shown r id) := by
  obtain ((⟨e, he, rfl⟩ | ⟨v, hv, rfl⟩) | ⟨k, -, rfl⟩) | ⟨x, -, rfl⟩ | ⟨x, -, rfl⟩ := mem_items.mp hi
  · obtain ⟨row, -, rfl⟩ := h
    refine ⟨?_, Iff.rfl⟩
    by_cases hid : id = e.entityId
    · have hmem : id ∈ p.entities.map (·.entityId) := hid ▸ List.mem_map_of_mem he
      exact iff_of_true (.inr (.inl hmem)) (.inr (.inl hmem))
    · rw [Reached, entity_setEntity_of_ne hid]
      exact Iff.rfl
  · obtain ⟨row, e, structural, -, hrow, hstructural, rfl⟩ := h
    by_cases hid : id = v.evidenceId
    · subst hid
      refine ⟨iff_of_true (.inl ?_) (.inr (.inr ⟨v, hv, rfl, hp⟩)), iff_of_true (.inr ⟨v, hv, rfl⟩)
        (.inr ⟨v, hv, rfl⟩)⟩
      rw [entity_setEntity_self]
      exact hstructural.live
    · have hother : ∀ w, p.evidence = some w → w.evidenceId ≠ id := by
        intro w hw heq
        rw [hv] at hw
        cases hw
        exact hid heq.symm
      have hevidence : ((r.setEvidence v.evidenceId row).setEntity v.evidenceId structural).evidence id =
          r.evidence id := evidence_setEvidence_of_ne hid
      rw [Reached, Reached, Shown, Shown, entity_setEntity_of_ne hid, hevidence]
      exact ⟨Iff.rfl, Iff.rfl⟩
  · simp only [Item.Effect] at h
    split at h
    · obtain ⟨old, row, -, -, rfl⟩ := h
      exact ⟨Iff.rfl, Iff.rfl⟩
    · obtain ⟨-, row, -, rfl⟩ := h
      exact ⟨Iff.rfl, Iff.rfl⟩
  · exact absurd hphase (by simp [Item.phase])
  · exact absurd hphase (by simp [Item.phase])

/-- Once the records are written, what will be there for the relationships is there. -/
theorem ends_settled (hentities : ∀ e ∈ p.entities, ¬ (Item.entity e).pending p r)
    (hevidence : ∀ v, p.evidence = some v → ¬ (Item.evidence v).pending p r) (id : String) :
    (p.Reached r id ↔ Live (r.entity id)) ∧ (p.Shown r id ↔ Live (r.evidence id)) := by
  refine ⟨⟨?_, .inl⟩, ⟨?_, .inl⟩⟩
  · rintro (hlive | hmem | ⟨v, hv, rfl, hcontent⟩)
    · exact hlive
    · obtain ⟨e, he, rfl⟩ := List.mem_map.mp hmem
      exact content_isSome.mp (Option.isSome_of_eq_some (not_not.mp (hentities e he)))
    · exact absurd hcontent (hevidence v hv)
  · rintro (hlive | ⟨v, hv, rfl⟩)
    · exact hlive
    · exact content_isSome.mp (Option.isSome_of_eq_some (not_not.mp (hevidence v hv)))

theorem blocked_iff_refused {done : List Item} {i : Item} {rest : List Item}
    (hitems : p.items = done ++ i :: rest) (hdone : ∀ j ∈ done, ¬ j.pending p r) :
    i.blocked p r ↔ p.refused r i := by
  refine Item.barred_agree (Rows.Agree.refl [] r) (by simp) fun k hk id => ?_
  subst hk
  -- the records come before the relationship, so they are done
  have hbefore : ∀ j ∈ p.items, j.phase = 0 → j ∈ done := by
    intro j hj hphase
    have hphases := p.items_phases
    rw [hitems, List.pairwise_append] at hphases
    have hlater := (List.pairwise_cons.mp hphases.2.1).1
    rw [hitems, List.mem_append, List.mem_cons] at hj
    obtain hj | rfl | hj := hj
    · exact hj
    · cases hphase
    · have hle := hlater j hj
      rw [hphase] at hle
      exact absurd hle (by simp [Item.phase])
  obtain ⟨hreached, hshown⟩ := ends_settled (p := p) (r := r)
    (fun e he => hdone _ (hbefore _ (mem_items.mpr (.inl (.inl (.inl ⟨e, he, rfl⟩)))) rfl))
    (fun v hv => hdone _ (hbefore _ (mem_items.mpr (.inl (.inl (.inr ⟨v, hv, rfl⟩)))) rfl)) id
  exact ⟨hreached.symm, hshown.symm⟩

/-- The places a plan may write to. -/
def places (p : Plan) : List Place := p.items.flatMap Item.places

/-- Plans that fit follow the law of plans. -/
theorem Fits.law (h : p.Fits) (q : MemoryProjector) (clock : Clock) (base : Rows) :
    PlanLaw (fun i => perform (p.round q clock i)) (fun i s => i.pending p (s.rows q.tenantId))
      (fun i s => p.refused (s.rows q.tenantId) i)
      (fun s => Rows.Agree p.places base (s.rows q.tenantId)) p.items where
  idle i hi s _ hp := (h.item_cases q clock s hi).1 hp
  refuses done i rest hitems s _ hdone hp hr := by
    have hi : i ∈ p.items := by simp [hitems]
    exact (h.item_cases q clock s hi).2.1 hp ((blocked_iff_refused hitems hdone).mpr hr)
  writes done i rest hitems s hs hdone hp hr := by
    have hi : i ∈ p.items := by simp [hitems]
    obtain ⟨s', hcall, heffect⟩ := (h.item_cases q clock s hi).2.2 hp
      (mt (blocked_iff_refused hitems hdone).mp hr)
    have hagree := heffect.agree
    have hapart := h.apart
    have hphases := p.items_phases
    rw [hitems, List.pairwise_append] at hapart hphases
    refine ⟨s', hcall, hs.trans hagree ?_, heffect.done, fun j hj => ?_, fun j hj => ⟨?_, ?_⟩⟩
    · exact fun x hx => List.mem_flatMap.mpr ⟨i, hi, hx⟩
    · have hdisjoint := hapart.2.2 j hj i List.mem_cons_self
      rw [Item.pending_agree hagree hdisjoint]
      exact hdone j hj
    · exact Item.pending_agree hagree ((List.pairwise_cons.mp hapart.2.1).1 j hj).symm
    · refine Item.barred_agree hagree ((List.pairwise_cons.mp hapart.2.1).1 j hj).symm fun k hk => ?_
      have hphase := (List.pairwise_cons.mp hphases.2.1).1 j hj
      rw [hk] at hphase
      exact ends_kept hi hphase hp heffect

end Plan

end EngineeringIntelligence.CompanyBrain
