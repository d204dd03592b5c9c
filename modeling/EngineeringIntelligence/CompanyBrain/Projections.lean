import EngineeringIntelligence.CompanyBrain.Calls

namespace EngineeringIntelligence.CompanyBrain

open EngineeringIntelligence.Framework EngineeringIntelligence.Ingestion

/-! The projections of the journal, and the plans that calls make from them. -/

/-! ### What a projection's constructor promises -/

theorem identifiersProblem_eq_none {values : List String} {label : String}
    (h : identifiersProblem values label = none) :
    values.Pairwise (· < ·) ∧ ∀ v ∈ values, required 500 v = true := by
  unfold identifiersProblem at h
  split at h
  · cases h
  · next hsorted =>
    rw [not_not] at hsorted
    refine ⟨hsorted ▸ pairwise_sortedSet values, ?_⟩
    rwa [invalid_eq_none, List.all_eq_true] at h

namespace BrainSourceProjection

section
variable {tenantId sourceKey sourceKind fingerprint : String} {state : ProjectionState}
  {provenance : BrainProvenance} {entityIds ownedEntityIds evidenceIds : List String}
  {relationships : List BrainRelationship} {updatedAt : Int} {p : BrainSourceProjection}

theorem make_eq_ok (h : BrainSourceProjection.make tenantId sourceKey sourceKind state fingerprint
      provenance entityIds ownedEntityIds evidenceIds relationships updatedAt = .ok p) :
    p.tenantId = tenantId ∧ p.sourceKey = sourceKey ∧ p.state = state ∧ p.fingerprint = fingerprint ∧
      p.provenance = provenance ∧ p.entityIds = entityIds ∧ p.ownedEntityIds = ownedEntityIds ∧
      p.evidenceIds = evidenceIds ∧ p.relationships = relationships := by
  unfold make at h
  split at h
  · cases h
  · cases h
    exact ⟨rfl, rfl, rfl, rfl, rfl, rfl, rfl, rfl, rfl⟩

end

theorem valid_evidenceIds (p : BrainSourceProjection) :
    p.evidenceIds.Pairwise (· < ·) ∧ ∀ v ∈ p.evidenceIds, required 500 v = true := by
  have h := p.valid
  simp only [projectionProblem, Option.or_eq_none_iff] at h
  exact identifiersProblem_eq_none h.2.2.2.2.2.2.1

theorem valid_ownedEntityIds (p : BrainSourceProjection) :
    p.ownedEntityIds.Pairwise (· < ·) ∧ ∀ v ∈ p.ownedEntityIds, required 500 v = true := by
  have h := p.valid
  simp only [projectionProblem, Option.or_eq_none_iff] at h
  exact identifiersProblem_eq_none h.2.2.2.2.2.1

end BrainSourceProjection

/-! ### The journal -/

namespace Journal

variable {j : Journal} {tenant : String} {p : BrainSourceProjection}

theorem mem_active : p ∈ j.active tenant ↔
    j.get (tenant, p.sourceKey) = some p ∧ p.state = .active := by
  simp only [active, mem_sortedBy, List.mem_filter, Bool.and_eq_true, decide_eq_true_eq]
  rw [Table.get_eq_some_iff]
  constructor
  · rintro ⟨hmem, rfl, hactive⟩
    exact ⟨⟨hmem, rfl⟩, hactive⟩
  · rintro ⟨⟨hmem, hkey⟩, hactive⟩
    exact ⟨hmem, (Prod.mk.inj hkey).1, hactive⟩

theorem get_put_projection (key : String) (h : p.tenantId = tenant) :
    (j.put p).get (tenant, key) = if key = p.sourceKey then some p else j.get (tenant, key) := by
  rw [Table.get_put, BrainSourceProjection.rowKey, h]
  by_cases hk : key = p.sourceKey
  · simp [hk]
  · simp [hk]

end Journal

section
variable {q : MemoryProjector} {j : Journal} {sourceKey : String} {p projection : BrainSourceProjection}

theorem mem_others : p ∈ q.others j sourceKey ↔
    p ∈ j.active q.tenantId ∧ p.sourceKey ≠ sourceKey := by
  simp [MemoryProjector.others]

theorem mem_activeCandidates : p ∈ q.activeCandidates j projection ↔
    p ∈ q.others j projection.sourceKey ∨ p = projection := by
  simp [MemoryProjector.activeCandidates]

theorem mem_affected {previous projection : Option BrainSourceProjection} {k : EdgeKey} :
    k ∈ MemoryProjector.affected previous projection ↔
      (∃ p, previous = some p ∧ ∃ r ∈ p.relationships, r.key = k) ∨
      ∃ p, projection = some p ∧ ∃ r ∈ p.relationships, r.key = k := by
  simp only [MemoryProjector.affected, mem_sortedBy, List.mem_dedup, List.mem_map, List.mem_append]
  cases previous <;> cases projection <;> simp [or_and_right, exists_or]

theorem affected_nodup (previous projection : Option BrainSourceProjection) :
    (MemoryProjector.affected previous projection).Nodup :=
  (perm_sortedBy _ _).nodup_iff.mpr (List.nodup_dedup _)

end

/-- The kinds of entity that no source owns. -/
def EntityKind.shared (kind : EntityKind) : Bool := kind ∈ [repository, service, team, owner]

theorem isSourceOwned_eq (e : BrainEntity) : isSourceOwned e = !e.kind.shared := by
  simp [isSourceOwned, EntityKind.shared]

/-- A projection as the projector writes it: its evidence and its entities are of the kinds that
their identifiers name, and its relationships cite its evidence. -/
structure Kept (p : BrainSourceProjection) : Prop where
  evidence : ∀ id ∈ p.evidenceIds, HasKind .evidence id
  owned : ∀ id ∈ p.ownedEntityIds, ∃ kind : EntityKind, HasKind kind id ∧ kind ≠ .evidence ∧
    kind.shared = false
  shared : ∀ id ∈ p.entityIds, id ∉ p.ownedEntityIds → ∃ kind : EntityKind, HasKind kind id ∧
    kind.shared = true
  cites : ∀ r ∈ p.relationships, r.evidenceIds ≠ [] ∧ r.evidenceIds ⊆ p.evidenceIds

theorem Kept.owned_ne_evidence {p : BrainSourceProjection} (h : Kept p) {id : String}
    (hid : id ∈ p.ownedEntityIds) : ¬ HasKind .evidence id := by
  obtain ⟨kind, hkind, hne, -⟩ := h.owned id hid
  exact fun hevidence => hne (hasKind_unique hkind hevidence)

/-! ### Plans that fit -/

theorem Plan.apart_of {p : Plan} (hentities : (p.entities.map (·.entityId)).Nodup)
    (hkinds : ∀ e ∈ p.entities, ¬ HasKind .evidence e.entityId)
    (hevidence : ∀ v, p.evidence = some v →
      HasKind .evidence v.evidenceId ∧ v.evidenceId ∉ p.retiredEvidence)
    (hedges : p.edges.Nodup)
    (hretired : p.retiredEvidence.Nodup ∧ ∀ id ∈ p.retiredEvidence, HasKind .evidence id)
    (hgone : p.retiredEntities.Nodup ∧ ∀ id ∈ p.retiredEntities, ¬ HasKind .evidence id ∧
      id ∉ p.entities.map (·.entityId)) :
    p.items.Pairwise fun i j => List.Disjoint i.places j.places := by
  have hdisjoint : ∀ {x y : String}, x ≠ y → List.Disjoint [Place.entity x] [Place.entity y] := by
    intro x y hxy
    simpa using hxy.symm
  have hpair : ∀ {x y : String}, x ≠ y →
      List.Disjoint [Place.evidence x, Place.entity x] [Place.evidence y, Place.entity y] := by
    intro x y hxy
    simp [Ne.symm hxy]
  simp only [Plan.items, List.pairwise_append, List.pairwise_map, List.mem_append, List.mem_map,
    Option.mem_toList]
  refine ⟨⟨⟨⟨?_, ?_, ?_⟩, ?_, ?_⟩, ?_, ?_⟩, ?_, ?_⟩
  · exact (List.pairwise_map.mp hentities).imp fun hne => hdisjoint hne
  · cases p.evidence <;> simp
  · rintro _ ⟨e, he, rfl⟩ _ ⟨v, hv, rfl⟩
    have hne : e.entityId ≠ v.evidenceId := fun heq => hkinds e he (heq ▸ (hevidence v hv).1)
    simpa [Item.places] using hne
  · exact hedges.imp fun hne => by simpa [Item.places] using hne.symm
  · rintro _ (⟨e, -, rfl⟩ | ⟨v, -, rfl⟩) _ ⟨k, -, rfl⟩
    · simp [Item.places]
    · simp [Item.places]
  · exact hretired.1.imp fun hne => hpair hne
  · rintro _ ((⟨e, he, rfl⟩ | ⟨v, hv, rfl⟩) | ⟨k, -, rfl⟩) _ ⟨id, hid, rfl⟩
    · have hne : e.entityId ≠ id := fun heq => hkinds e he (heq ▸ hretired.2 id hid)
      simpa [Item.places] using hne
    · exact hpair fun heq => (hevidence v hv).2 (heq ▸ hid)
    · simp [Item.places]
  · exact hgone.1.imp fun hne => hdisjoint hne
  · rintro _ (((⟨e, he, rfl⟩ | ⟨v, hv, rfl⟩) | ⟨k, -, rfl⟩) | ⟨x, hx, rfl⟩) _ ⟨id, hid, rfl⟩
    · exact hdisjoint fun heq => (hgone.2 id hid).2 (heq ▸ List.mem_map_of_mem he)
    · have hne : v.evidenceId ≠ id := fun heq => (hgone.2 id hid).1 (heq ▸ (hevidence v hv).1)
      simpa [Item.places] using hne.symm
    · simp [Item.places]
    · have hne : x ≠ id := fun heq => (hgone.2 id hid).1 (heq ▸ hretired.2 x hx)
      simpa [Item.places] using hne.symm

/-- A plan fits when its own records are of their kinds and those it supersedes were kept. -/
theorem planOf_fits {provenance : BrainProvenance} {entities : List BrainEntity}
    {evidence : Option BrainEvidence} {previous projection : Option BrainSourceProjection}
    {candidates : List BrainSourceProjection} (hkept : ∀ p, previous = some p → Kept p)
    (hentities : (entities.map (·.entityId)).Nodup)
    (hkinds : ∀ e ∈ entities, HasKind e.kind e.entityId ∧ e.kind ≠ .evidence)
    (howned : ∀ e ∈ entities, isSourceOwned e = true →
      e.entityId ∈ candidates.flatMap (·.ownedEntityIds))
    (hevidence : ∀ v, evidence = some v → HasKind .evidence v.evidenceId ∧
      v.evidenceId ∈ candidates.flatMap (·.evidenceIds)) :
    (planOf provenance entities evidence previous projection candidates).Fits := by
  have hnone : ∀ e ∈ entities, ¬ HasKind .evidence e.entityId := fun e he h =>
    (hkinds e he).2 (hasKind_unique (hkinds e he).1 h)
  have hids : ∀ {ids : BrainSourceProjection → List String} {id : String} {keep : String → Bool},
      id ∈ (previous.elim [] ids).filter keep → ∃ p, previous = some p ∧ id ∈ ids p ∧ keep id = true := by
    intro ids id keep hid
    obtain ⟨hmem, hkeep⟩ := List.mem_filter.mp hid
    cases previous with
    | none => cases hmem
    | some p => exact ⟨p, rfl, hmem, hkeep⟩
  have hnodup : ∀ {ids : BrainSourceProjection → List String} {keep : String → Bool},
      (∀ p, (ids p).Pairwise (· < ·)) → ((previous.elim [] ids).filter keep).Nodup := by
    intro ids keep hsorted
    refine List.Nodup.filter _ ?_
    cases previous with
    | none => exact List.nodup_nil
    | some p => exact (hsorted p).imp fun h => ne_of_lt h
  refine ⟨fun k hk => ?_, fun id hid => ?_, fun id hid => ?_, Plan.apart_of hentities hnone
    (fun v hv => ⟨(hevidence v hv).1, fun hmem => ?_⟩) (affected_nodup _ _)
    ⟨hnodup fun p => p.valid_evidenceIds.1, fun id hid => ?_⟩
    ⟨hnodup fun p => p.valid_ownedEntityIds.1, fun id hid => ⟨?_, fun hmem => ?_⟩⟩⟩
  · have hvalid : ∀ r : BrainRelationship, r.key = k → required 500 k.sourceId = true ∧
        required 500 k.targetId = true ∧ k.sourceId ≠ k.targetId := by
      rintro r rfl
      obtain ⟨hs, ht, hne, -⟩ := relationshipProblem_eq_none.mp r.valid
      exact ⟨hs, ht, hne⟩
    obtain ⟨-, -, r, -, hr⟩ | ⟨-, -, r, -, hr⟩ := mem_affected.mp hk
    · exact hvalid r hr
    · exact hvalid r hr
  · obtain ⟨p, -, hmem, hkeep⟩ := hids hid
    exact ⟨p.valid_evidenceIds.2 id hmem, of_decide_eq_true hkeep⟩
  · obtain ⟨p, -, hmem, hkeep⟩ := hids hid
    exact ⟨p.valid_ownedEntityIds.2 id hmem, of_decide_eq_true hkeep⟩
  · obtain ⟨-, -, -, hkeep⟩ := hids hmem
    exact of_decide_eq_true hkeep (hevidence v hv).2
  · obtain ⟨p, hp, hmem, -⟩ := hids hid
    exact (hkept p hp).evidence id hmem
  · obtain ⟨p, hp, hmem, -⟩ := hids hid
    exact (hkept p hp).owned_ne_evidence hmem
  · -- a described entity of an owned kind is owned again, so it is not retired
    obtain ⟨p, hp, hin, hkeep⟩ := hids hid
    obtain ⟨e, he, rfl⟩ := List.mem_map.mp hmem
    obtain ⟨kind, hkind, -, hshared⟩ := (hkept p hp).owned _ hin
    have hsame := hasKind_unique (hkinds e he).1 hkind
    refine of_decide_eq_true hkeep (howned e he ?_)
    rw [isSourceOwned_eq, hsame, hshared]
    rfl

/-! ### What calls are about to do -/

/-- The projection contributes the relationship. -/
def Contributes (p : BrainSourceProjection) (k : EdgeKey) : Prop := ∃ r ∈ p.relationships, r.key = k

/-- A plan that puts `record` in the place of what the journal has for a source. -/
structure Supersedes (q : MemoryProjector) (j : Journal) (sourceKey : String)
    (record : Option BrainSourceProjection) (plan : Plan) : Prop where
  candidates : ∀ p, p ∈ plan.candidates ↔ p ∈ q.others j sourceKey ∨ record = some p
  edges : ∀ k, k ∈ plan.edges ↔ (∃ old, j.get (q.tenantId, sourceKey) = some old ∧ Contributes old k) ∨
    ∃ p, record = some p ∧ Contributes p k
  retiredEvidence : ∀ id, id ∈ plan.retiredEvidence ↔
    (∃ old, j.get (q.tenantId, sourceKey) = some old ∧ id ∈ old.evidenceIds) ∧
      ∀ p ∈ plan.candidates, id ∉ p.evidenceIds
  retiredEntities : ∀ id, id ∈ plan.retiredEntities ↔
    (∃ old, j.get (q.tenantId, sourceKey) = some old ∧ id ∈ old.ownedEntityIds) ∧
      ∀ p ∈ plan.candidates, id ∉ p.ownedEntityIds

theorem mem_elim_filter {previous : Option BrainSourceProjection} {candidates : List BrainSourceProjection}
    {ids : BrainSourceProjection → List String} {id : String} :
    id ∈ (previous.elim [] ids).filter (· ∉ candidates.flatMap ids) ↔
      (∃ old, previous = some old ∧ id ∈ ids old) ∧ ∀ p ∈ candidates, id ∉ ids p := by
  rw [List.mem_filter]
  cases previous <;> simp

theorem planOf_supersedes {q : MemoryProjector} {j : Journal} {sourceKey : String}
    {record : Option BrainSourceProjection} {provenance : BrainProvenance} {entities : List BrainEntity}
    {evidence : Option BrainEvidence} {candidates : List BrainSourceProjection}
    (hcandidates : ∀ p, p ∈ candidates ↔ p ∈ q.others j sourceKey ∨ record = some p) :
    Supersedes q j sourceKey record (planOf provenance entities evidence
      (j.get (q.tenantId, sourceKey)) record candidates) where
  candidates := hcandidates
  edges _ := mem_affected
  retiredEvidence _ := mem_elim_filter
  retiredEntities _ := mem_elim_filter

theorem assertNotConflictingReplay_ok_iff {q : MemoryProjector} {j : Journal}
    {sourceKey fingerprint : String} {target : ProjectionState} {provenance : BrainProvenance}
    {previous : Option BrainSourceProjection} :
    q.assertNotConflictingReplay j sourceKey fingerprint target provenance = .ok previous ↔
      required 500 sourceKey = true ∧ previous = j.get (q.tenantId, sourceKey) ∧
      ∀ p, j.get (q.tenantId, sourceKey) = some p → provenance.eventId.isSome = true →
        p.provenance.eventId = provenance.eventId → p.state = target ∧ p.fingerprint = fingerprint := by
  unfold MemoryProjector.assertNotConflictingReplay Journal.lookup
  simp only [q.valid, Bool.true_eq_false, if_false]
  cases hkey : required 500 sourceKey with
  | false => simp
  | true =>
    simp only [Bool.true_eq_false, if_false, true_and]
    rw [ite_error_eq_ok_iff, Except.ok.injEq, and_comm, eq_comm]
    refine and_congr_right fun _ => ?_
    cases j.get (q.tenantId, sourceKey) with
    | none => simp
    | some p =>
      simp only [Option.any_some, Bool.and_eq_true, Bool.or_eq_true, decide_eq_true_eq,
        Option.some.injEq, forall_eq']
      tauto

namespace Upsert

theorem Describes.mem_entityIds {u : Upsert} (h : u.Sound) {e : BrainEntity} (he : u.Describes e) :
    e.entityId ∈ u.entityIds ∧ HasKind e.kind e.entityId ∧ e.kind ≠ .evidence := by
  obtain ⟨entityId, kind, label, attributes, hmem, hmake⟩ := he
  obtain ⟨hid, hkind, -⟩ := BrainEntity.make_eq_ok hmake
  rw [hid, hkind, ← h.ids]
  exact ⟨List.mem_filterMap.mpr ⟨_, hmem, rfl⟩, h.kinds _ _ _ _ hmem⟩

theorem mem_describedEntities {u : Upsert} (h : u.Sound) {b model : CompanyBrain}
    (hmodel : u.Projected b model) {e : BrainEntity} :
    e ∈ MemoryProjector.describedEntities model (sortedBy id u.entityIds) ↔ u.Describes e := by
  simp only [MemoryProjector.describedEntities, List.mem_filter, List.mem_filterMap, mem_sortedSet,
    mem_sortedBy, decide_eq_true_eq]
  constructor
  · rintro ⟨⟨id, hid, hget⟩, -⟩
    obtain ⟨e', he', rfl⟩ := hmodel.described id hid
    rw [hmodel.describes e' he', Option.some.injEq] at hget
    exact hget ▸ he'
  · intro he
    obtain ⟨hid, -, hkind⟩ := he.mem_entityIds h
    exact ⟨⟨e.entityId, hid, hmodel.describes e he⟩, hkind⟩

theorem describedEntities_nodup (model : CompanyBrain) (ids : List String) :
    ((MemoryProjector.describedEntities model ids).map (·.entityId)).Nodup := by
  refine List.pairwise_map.mpr (List.Pairwise.filter _ (List.pairwise_filterMap.mpr ?_))
  refine (pairwise_sortedSet ids).imp fun hlt e he e' he' heq => ?_
  have hid := Table.key_of_get he
  have hid' := Table.key_of_get he'
  exact ne_of_lt hlt (hid.symm.trans (heq.trans hid'))

end Upsert

theorem mem_contributedRelationships {model : CompanyBrain} {ev : String}
    {relationships : List BrainRelationship}
    (h : MemoryProjector.contributedRelationships model ev = .ok relationships) (r : BrainRelationship) :
    r ∈ relationships ↔ r.evidenceIds = [ev] ∧ Cites model r.key ev := by
  unfold MemoryProjector.contributedRelationships at h
  generalize hall : List.mapM (fun r : BrainRelationship =>
    BrainRelationship.make r.sourceId r.targetId r.kind [ev])
    (model.relationships.filter (ev ∈ ·.evidenceIds)) = out at h
  cases out with
  | error x => cases h
  | ok rs =>
    cases h
    rw [mem_sortedBy, mapM_ok_mem hall]
    simp only [List.mem_filter, CompanyBrain.relationships, mem_sortedBy, decide_eq_true_eq]
    have hkeys : ∀ {r₀ : BrainRelationship},
        BrainRelationship.make r₀.sourceId r₀.targetId r₀.kind [ev] = .ok r → r₀.key = r.key := by
      intro r₀ hmake
      obtain ⟨hs, ht, hk, -⟩ := BrainRelationship.make_eq_ok hmake
      simp [BrainRelationship.key, hs, ht, hk]
    constructor
    · rintro ⟨r₀, ⟨hmem, hev⟩, hmake⟩
      have hids := (BrainRelationship.make_eq_ok hmake).2.2.2
      exact ⟨hids, r₀, by rw [← hkeys hmake]; exact Table.get_of_mem hmem, hev⟩
    · rintro ⟨hids, r₀, hget, hev⟩
      have hkey := Table.key_of_get hget
      refine ⟨r₀, ⟨Table.mem_of_get hget, hev⟩, ?_⟩
      have hvalid := r.valid
      simp only [BrainRelationship.key, EdgeKey.mk.injEq] at hkey
      obtain ⟨hs, hk, ht⟩ := hkey
      rw [hs, ht, hk, ← hids, BrainRelationship.make_ok hvalid]

/-- The entities that are active in a tenant. -/
def Rows.present (r : Rows) (id : String) : Bool := (Content (r.entity id)).isSome

/-- What the projection of an upsert holds: the records it describes, its evidence, and the
relationships that cite its evidence once it is stated in the snapshot. -/
structure Recorded (u : Upsert) (r : Rows) (entities : List BrainEntity) (p : BrainSourceProjection) :
    Prop where
  entityIds : ∀ id, id ∈ p.entityIds ↔ ∃ e ∈ entities, e.entityId = id
  ownedEntityIds : ∀ id, id ∈ p.ownedEntityIds ↔ ∃ e ∈ entities, isSourceOwned e = true ∧ e.entityId = id
  evidenceIds : p.evidenceIds = [u.evidenceId]
  relationships : ∀ x, x ∈ p.relationships ↔ x.evidenceIds = [u.evidenceId] ∧
    ((∃ row, r.Listed x.key row ∧ u.evidenceId ∈ row.record.evidenceIds) ∨ x.key ∈ u.edges r.present)

/-- What an upsert that is carried out makes of the state it finds. -/
structure UpsertPlan (q : MemoryProjector) (sha256 : String → String) (c : Call) (m : Memory)
    (plan : Plan) (p : BrainSourceProjection) : Prop where
  upserts : c.change.changeType = .upsert
  supersedes : Supersedes q m.journal c.change.sourceKey (some p) plan
  fits : (∀ old, m.journal.get (q.tenantId, c.change.sourceKey) = some old → Kept old) → plan.Fits
  unseen : ∀ old, m.journal.get (q.tenantId, c.change.sourceKey) = some old →
    ¬ (old.state = .active ∧ old.fingerprint = c.change.fingerprint sha256)
  cited : ∀ k row, (m.store.rows q.tenantId).Listed k row → ∀ v ∈ row.record.evidenceIds,
    Live (m.store.evidenceRow q.tenantId v)
  entities : ∀ e, e ∈ plan.entities ↔ c.change.upsert.Describes e
  described : ∀ id ∈ c.change.upsert.entityIds, ∃ e ∈ plan.entities, e.entityId = id
  evidence : ∃ v e, plan.evidence = some v ∧ v.evidenceId = c.change.upsert.evidenceId ∧
    evidenceEntity v = .ok e ∧ c.change.upsert.Records v
  tenant : p.tenantId = q.tenantId
  sourceKey : p.sourceKey = c.change.sourceKey
  state : p.state = .active
  fingerprint : p.fingerprint = c.change.fingerprint sha256
  records : Recorded c.change.upsert (m.store.rows q.tenantId) plan.entities p

/-- What a deletion that is carried out makes of the state it finds. -/
structure DeletePlan (q : MemoryProjector) (c : Call) (m : Memory) (plan : Plan)
    (previous : BrainSourceProjection) : Prop where
  supersedes : Supersedes q m.journal c.change.sourceKey none plan
  fits : Kept previous → plan.Fits
  found : m.journal.get (q.tenantId, c.change.sourceKey) = some previous
  active : previous.state = .active
  entities : plan.entities = []
  evidence : plan.evidence = none

section
variable {q : MemoryProjector} {sha256 : String → String} {c : Call} {m : Memory}

theorem cites_picture {s : Store} {tenant : String} {k : EdgeKey} {v : String} :
    Cites (s.picture tenant) k v ↔
      ∃ row, (s.rows tenant).Listed k row ∧ v ∈ row.record.evidenceIds := by
  constructor
  · rintro ⟨r, hr, hv⟩
    obtain ⟨row, hlisted, rfl⟩ := Store.picture_related.mp hr
    exact ⟨row, hlisted, hv⟩
  · rintro ⟨row, hlisted, hv⟩
    exact ⟨row.record, Store.picture_related.mpr ⟨row, hlisted, rfl⟩, hv⟩

/-- The projection `_materialize` builds from a projected model. -/
theorem projectionOf_records {u : Upsert} (hu : u.Sound) {model : CompanyBrain}
    {result : ProjectionResult} {clock : Clock} {sourceKey sourceKind fingerprint : String}
    {provenance : BrainProvenance} {p : BrainSourceProjection}
    (hproject : u.project (m.store.picture q.tenantId) = .ok (model, result))
    (h : q.projectionOf clock sourceKey sourceKind fingerprint provenance model result = .ok p) :
    p.tenantId = q.tenantId ∧ p.sourceKey = sourceKey ∧ p.state = .active ∧
      p.fingerprint = fingerprint ∧ Recorded u (m.store.rows q.tenantId)
        (MemoryProjector.describedEntities model result.entityIds) p := by
  obtain ⟨hids, hid, hmodel⟩ := Upsert.project_ok hu hproject
  unfold MemoryProjector.projectionOf at h
  dsimp only at h
  split at h
  · cases h
  next relationships hrelationships =>
  obtain ⟨ht, hk, hs, hf, -, hentities, howned, hevidence, hedges⟩ := BrainSourceProjection.make_eq_ok h
  refine ⟨ht, hk, hs, hf, ?_, ?_, ?_, ?_⟩
  · intro id
    simp [hentities]
  · intro id
    simp [howned, and_assoc]
  · rw [hevidence, hid]
  · intro x
    have hpresent : (fun id => ((m.store.picture q.tenantId).entities.get id).isSome) =
        (m.store.rows q.tenantId).present := by
      funext id
      rw [Store.picture_entities]
      rfl
    rw [hedges, mem_contributedRelationships hrelationships, hid, hmodel.cites, cites_picture, hpresent]
    simp

theorem planOf_upsert_fits {u : Upsert} (hu : u.Sound) {model : CompanyBrain} {b : CompanyBrain}
    (hmodel : u.Projected b model) {previous : Option BrainSourceProjection} {r : Rows}
    {p : BrainSourceProjection} {provenance : BrainProvenance} {candidates : List BrainSourceProjection}
    (hrecords : Recorded u r (MemoryProjector.describedEntities model (sortedBy id u.entityIds)) p)
    (hmem : p ∈ candidates) {v : BrainEvidence} (hv : v.evidenceId = u.evidenceId)
    (hkept : ∀ old, previous = some old → Kept old) :
    (planOf provenance (MemoryProjector.describedEntities model (sortedBy id u.entityIds)) (some v)
      previous (some p) candidates).Fits := by
  refine planOf_fits hkept (Upsert.describedEntities_nodup _ _) (fun e he => ?_) (fun e he howned => ?_)
    fun w hw => ?_
  · exact ((Upsert.mem_describedEntities hu hmodel).mp he).mem_entityIds hu |>.2
  · exact List.mem_flatMap.mpr ⟨p, hmem, (hrecords.ownedEntityIds _).mpr ⟨e, he, howned, rfl⟩⟩
  · cases hw
    rw [hv]
    refine ⟨hu.evidenceKind, List.mem_flatMap.mpr ⟨p, hmem, ?_⟩⟩
    rw [hrecords.evidenceIds]
    exact List.mem_cons_self

theorem upsertIntent_carries {provenance : BrainProvenance} {plan : Plan}
    {record : Except BrainError BrainSourceProjection} (htype : c.change.changeType = .upsert)
    (h : q.upsertIntent c.clock c.change.sourceKey c.change.sourceKind (c.change.fingerprint sha256)
      provenance c.change.upsert m = .carries plan record) :
    ∃ p, record = .ok p ∧ UpsertPlan q sha256 c m plan p := by
  have hu := c.change.sound
  unfold MemoryProjector.upsertIntent at h
  split at h
  · cases h
  next previous hprevious =>
  obtain ⟨-, rfl, -⟩ := assertNotConflictingReplay_ok_iff.mp hprevious
  split at h
  · cases h
  next hunseen =>
  split at h
  · cases h
  next snapshot hsnapshot =>
  obtain ⟨-, hcited, rfl⟩ := Store.snapshot_ok_iff.mp hsnapshot
  split at h
  · cases h
  next model result hproject =>
  split at h
  · cases h
  next p hp =>
  cases h
  obtain ⟨hids, hid, hmodel⟩ := Upsert.project_ok hu hproject
  obtain ⟨ht, hk, hs, hf, hrecords⟩ := projectionOf_records hu hproject hp
  obtain ⟨v, e, hv, hget, he, -⟩ := hmodel.records
  have hvid : v.evidenceId = c.change.upsert.evidenceId := Table.key_of_get hget
  rw [hids] at hrecords ⊢
  rw [hid, hget]
  refine ⟨p, rfl, ?_⟩
  have hcandidates : ∀ x, x ∈ q.activeCandidates m.journal p ↔
      x ∈ q.others m.journal c.change.sourceKey ∨ some p = some x := by
    intro x
    rw [mem_activeCandidates, hk, Option.some.injEq, eq_comm (a := p)]
  refine ⟨htype, planOf_supersedes hcandidates, ?_, ?_, hcited, ?_, ?_, ⟨v, e, rfl, hvid, he, hv⟩, ht, hk,
    hs, hf, hrecords⟩
  · exact planOf_upsert_fits hu hmodel hrecords ((hcandidates p).mpr (.inr rfl)) hvid
  · intro old hold hseen
    rw [hold, Option.filter_eq_none_iff] at hunseen
    exact hunseen old rfl (by simpa using hseen)
  · exact fun e => Upsert.mem_describedEntities hu hmodel
  · intro id hmem
    obtain ⟨e, he, hid⟩ := hmodel.described id hmem
    exact ⟨e, (Upsert.mem_describedEntities hu hmodel).mpr he, hid⟩

theorem deleteIntent_carries {provenance : BrainProvenance} {fingerprint : String} {plan : Plan}
    {record : Except BrainError BrainSourceProjection}
    (h : q.deleteIntent c.clock c.change.sourceKey c.change.sourceKind fingerprint provenance m =
      .carries plan record) :
    ∃ previous, DeletePlan q c m plan previous ∧
      record = BrainSourceProjection.make q.tenantId c.change.sourceKey c.change.sourceKind .deleted
        fingerprint provenance previous.entityIds previous.ownedEntityIds previous.evidenceIds
        previous.relationships c.clock.projected := by
  unfold MemoryProjector.deleteIntent at h
  split at h
  · cases h
  · split at h <;> cases h
  · next previous hprevious =>
    obtain ⟨-, hold, -⟩ := assertNotConflictingReplay_ok_iff.mp hprevious
    split at h
    · cases h
    next hactive =>
    cases h
    have hsupersedes : Supersedes q m.journal c.change.sourceKey none (planOf provenance [] none
        (m.journal.get (q.tenantId, c.change.sourceKey)) none
        (q.others m.journal c.change.sourceKey)) := planOf_supersedes (by simp)
    rw [← hold] at hsupersedes
    refine ⟨previous, ⟨hsupersedes, fun hkept => ?_, hold.symm, ?_, rfl, rfl⟩, rfl⟩
    · refine planOf_fits ?_ List.nodup_nil (by simp) (by simp) (by simp)
      rintro p ⟨⟩
      exact hkept
    · cases hstate : previous.state with
      | active => rfl
      | deleted => exact absurd hstate hactive

/-- A call that is carried out is an upsert or a deletion of something active. -/
theorem intent_carries {plan : Plan} {record : Except BrainError BrainSourceProjection}
    (h : q.intent sha256 c m = .carries plan record) :
    (c.change.changeType = .upsert ∧ ∃ p, record = .ok p ∧ UpsertPlan q sha256 c m plan p) ∨
    (c.change.changeType = .delete ∧ ∃ previous provenance, DeletePlan q c m plan previous ∧
      record = BrainSourceProjection.make q.tenantId c.change.sourceKey c.change.sourceKind .deleted
        ("deleted:" ++ c.change.documentId) provenance previous.entityIds previous.ownedEntityIds
        previous.evidenceIds previous.relationships c.clock.projected) := by
  unfold MemoryProjector.intent at h
  split at h
  · cases h
  next provenance hprovenance =>
  split at h
  · next htype =>
    obtain ⟨previous, hplan, hrecord⟩ := deleteIntent_carries h
    exact .inr ⟨htype, previous, provenance, hplan, hrecord⟩
  · next htype => exact .inl ⟨htype, upsertIntent_carries htype h⟩

/-- A call that only notes something notes the deletion of a source the journal does not have. -/
theorem intent_notes {p : BrainSourceProjection} (h : q.intent sha256 c m = .notes p) :
    m.journal.get (q.tenantId, c.change.sourceKey) = none ∧ p.tenantId = q.tenantId ∧
      p.sourceKey = c.change.sourceKey ∧ p.state = .deleted ∧ p.entityIds = [] ∧
      p.ownedEntityIds = [] ∧ p.evidenceIds = [] ∧ p.relationships = [] := by
  have hupsert : ∀ {key kind fp : String} {provenance : BrainProvenance} {u : Upsert},
      q.upsertIntent c.clock key kind fp provenance u m ≠ .notes p := by
    intro key kind fp provenance u heq
    unfold MemoryProjector.upsertIntent at heq
    split at heq
    · cases heq
    split at heq
    · cases heq
    split at heq
    · cases heq
    split at heq
    · cases heq
    split at heq <;> cases heq
  unfold MemoryProjector.intent at h
  split at h
  · cases h
  split at h
  · unfold MemoryProjector.deleteIntent at h
    split at h
    · cases h
    · next hprevious =>
      obtain ⟨-, hold, -⟩ := assertNotConflictingReplay_ok_iff.mp hprevious
      split at h
      · cases h
      next hmake =>
      cases h
      obtain ⟨ht, hk, hs, -, -, hentities, howned, hevidence, hedges⟩ :=
        BrainSourceProjection.make_eq_ok hmake
      exact ⟨hold.symm, ht, hk, hs, hentities, howned, hevidence, hedges⟩
    · split at h <;> cases h
  · exact absurd h hupsert

end

end EngineeringIntelligence.CompanyBrain
