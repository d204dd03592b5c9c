import EngineeringIntelligence.CompanyBrain.Governed

namespace EngineeringIntelligence.CompanyBrain

open EngineeringIntelligence.Framework EngineeringIntelligence.Ingestion

/-! The store as the view of the journal that the projector maintains in it. -/

namespace Plan

variable {p : Plan}

theorem entity_mem_places {id : String} : .entity id ∈ p.places ↔
    (∃ e ∈ p.entities, e.entityId = id) ∨ (∃ v, p.evidence = some v ∧ v.evidenceId = id) ∨
      id ∈ p.retiredEvidence ∨ id ∈ p.retiredEntities := by
  simp only [places, List.mem_flatMap, mem_items]
  constructor
  · rintro ⟨i, ((⟨e, he, rfl⟩ | ⟨v, hv, rfl⟩) | ⟨k, hk, rfl⟩) | ⟨x, hx, rfl⟩ | ⟨x, hx, rfl⟩, hmem⟩
    · simp only [Item.places, List.mem_singleton, Place.entity.injEq] at hmem
      exact .inl ⟨e, he, hmem.symm⟩
    · simp only [Item.places, List.mem_cons, reduceCtorEq, Place.entity.injEq, List.not_mem_nil,
        or_false, false_or] at hmem
      exact .inr (.inl ⟨v, hv, hmem.symm⟩)
    · simp [Item.places] at hmem
    · simp only [Item.places, List.mem_cons, reduceCtorEq, Place.entity.injEq, List.not_mem_nil,
        or_false, false_or] at hmem
      exact .inr (.inr (.inl (hmem ▸ hx)))
    · simp only [Item.places, List.mem_singleton, Place.entity.injEq] at hmem
      exact .inr (.inr (.inr (hmem ▸ hx)))
  · rintro (⟨e, he, rfl⟩ | ⟨v, hv, rfl⟩ | hx | hx)
    · exact ⟨_, .inl (.inl (.inl ⟨e, he, rfl⟩)), by simp [Item.places]⟩
    · exact ⟨_, .inl (.inl (.inr ⟨v, hv, rfl⟩)), by simp [Item.places]⟩
    · exact ⟨_, .inr (.inl ⟨id, hx, rfl⟩), by simp [Item.places]⟩
    · exact ⟨_, .inr (.inr ⟨id, hx, rfl⟩), by simp [Item.places]⟩

theorem evidence_mem_places {id : String} : .evidence id ∈ p.places ↔
    (∃ v, p.evidence = some v ∧ v.evidenceId = id) ∨ id ∈ p.retiredEvidence := by
  simp only [places, List.mem_flatMap, mem_items]
  constructor
  · rintro ⟨i, ((⟨e, he, rfl⟩ | ⟨v, hv, rfl⟩) | ⟨k, hk, rfl⟩) | ⟨x, hx, rfl⟩ | ⟨x, hx, rfl⟩, hmem⟩
    · simp [Item.places] at hmem
    · simp only [Item.places, List.mem_cons, reduceCtorEq, Place.evidence.injEq, List.not_mem_nil,
        or_false] at hmem
      exact .inl ⟨v, hv, hmem.symm⟩
    · simp [Item.places] at hmem
    · simp only [Item.places, List.mem_cons, reduceCtorEq, Place.evidence.injEq, List.not_mem_nil,
        or_false] at hmem
      exact .inr (hmem ▸ hx)
    · simp [Item.places] at hmem
  · rintro (⟨v, hv, rfl⟩ | hx)
    · exact ⟨_, .inl (.inl (.inr ⟨v, hv, rfl⟩)), by simp [Item.places]⟩
    · exact ⟨_, .inr (.inl ⟨id, hx, rfl⟩), by simp [Item.places]⟩

theorem edge_mem_places {k : EdgeKey} : .edge k ∈ p.places ↔ k ∈ p.edges := by
  simp only [places, List.mem_flatMap, mem_items]
  constructor
  · rintro ⟨i, ((⟨e, he, rfl⟩ | ⟨v, hv, rfl⟩) | ⟨x, hx, rfl⟩) | ⟨x, hx, rfl⟩ | ⟨x, hx, rfl⟩, hmem⟩
    · simp [Item.places] at hmem
    · simp [Item.places] at hmem
    · simp only [Item.places, List.mem_singleton, Place.edge.injEq] at hmem
      exact hmem ▸ hx
    · simp [Item.places] at hmem
    · simp [Item.places] at hmem
  · intro hk
    exact ⟨_, .inl (.inr ⟨k, hk, rfl⟩), by simp [Item.places]⟩

end Plan

/-! ### Calls that go through -/

/-- What upserts and deletions that are carried out have in common; `record` is the active projection
the source has afterwards, if any. -/
structure Carried (q : MemoryProjector) (j : Journal) (sourceKey : String)
    (record : Option BrainSourceProjection) (plan : Plan) : Prop where
  supersedes : Supersedes q j sourceKey record plan
  nothing : record = none → plan.entities = [] ∧ plan.evidence = none
  entityIds : ∀ p, record = some p → ∀ id, id ∈ p.entityIds ↔ ∃ e ∈ plan.entities, e.entityId = id
  ownedEntityIds : ∀ p, record = some p → ∀ id, id ∈ p.ownedEntityIds ↔
    ∃ e ∈ plan.entities, isSourceOwned e = true ∧ e.entityId = id
  evidenceIds : ∀ p, record = some p → ∃ v, plan.evidence = some v ∧ p.evidenceIds = [v.evidenceId]
  proper : ∀ i ∈ plan.items, i.Proper
  kept : ∀ p, record = some p → Kept p

section
variable {q : MemoryProjector} {sha256 : String → String} {c : Call} {m m' : Memory} {plan : Plan}
  {p : BrainSourceProjection}

theorem UpsertPlan.carried (h : UpsertPlan q sha256 c m plan p) :
    Carried q m.journal c.change.sourceKey (some p) plan where
  supersedes := h.supersedes
  nothing := nofun
  entityIds := by
    rintro _ ⟨⟩
    exact h.records.entityIds
  ownedEntityIds := by
    rintro _ ⟨⟩
    exact h.records.ownedEntityIds
  evidenceIds := by
    rintro _ ⟨⟩
    obtain ⟨v, -, hv, hid, -⟩ := h.evidence
    exact ⟨v, hv, by rw [h.records.evidenceIds, hid]⟩
  proper := h.proper
  kept := by
    rintro _ ⟨⟩
    exact h.kept

theorem DeletePlan.carried (h : DeletePlan q c m plan p) :
    Carried q m.journal c.change.sourceKey none plan where
  supersedes := h.supersedes
  nothing _ := ⟨h.entities, h.evidence⟩
  entityIds := nofun
  ownedEntityIds := nofun
  evidenceIds := nofun
  proper := h.proper
  kept := nofun

theorem mem_active_put {j : Journal} (htenant : p.tenantId = q.tenantId) {x : BrainSourceProjection} :
    x ∈ Journal.active (j.put p) q.tenantId ↔
      x ∈ q.others j p.sourceKey ∨ x = p ∧ p.state = .active := by
  rw [Journal.mem_active, mem_others, Journal.mem_active, Journal.get_put_projection _ htenant]
  by_cases hk : x.sourceKey = p.sourceKey
  · simp only [hk, if_true, Option.some.injEq]
    constructor
    · rintro ⟨rfl, hactive⟩
      exact .inr ⟨rfl, hactive⟩
    · rintro (⟨-, hne⟩ | ⟨rfl, hactive⟩)
      · exact absurd rfl hne
      · exact ⟨rfl, hactive⟩
  · have hne : x ≠ p := fun h => hk (by rw [h])
    simp [hk, hne]

/-- A call that goes through leaves everything, notes a deletion, or carries a plan out. -/
theorem step_ok_cases (h : Lawful q m) {r : ProjectionReceipt}
    (hstep : q.step sha256 m c = (m', .ok r)) :
    (m' = m ∧ q.intent sha256 c m = .keeps r) ∨
    (∃ p, q.intent sha256 c m = .notes p ∧ m'.store = m.store ∧ m'.journal = m.journal.put p ∧
      m.journal.get (q.tenantId, c.change.sourceKey) = none ∧ p.tenantId = q.tenantId ∧
      p.sourceKey = c.change.sourceKey ∧ p.state = .deleted) ∨
    ∃ plan p record, q.intent sha256 c m = .carries plan (.ok p) ∧ plan.Fits ∧
      plan.carryOut q c.clock m.store = (m'.store, .ok ()) ∧ m'.journal = m.journal.put p ∧
      plan.Outcome (m.store.rows q.tenantId) (m'.store.rows q.tenantId) ∧ p.tenantId = q.tenantId ∧
      p.sourceKey = c.change.sourceKey ∧ Carried q m.journal c.change.sourceKey record plan ∧
      (record = some p ∧ p.state = .active ∧ UpsertPlan q sha256 c m plan p ∨
        record = none ∧ p.state = .deleted ∧ ∃ previous, DeletePlan q c m plan previous) := by
  rw [step_eq] at hstep
  generalize hintent : q.intent sha256 c m = intent at hstep
  cases intent with
  | raises x => exact nomatch (Prod.mk.inj hstep).2
  | keeps receipt =>
    obtain ⟨hm, hr⟩ := Prod.mk.inj hstep
    cases hr
    exact .inl ⟨hm.symm, rfl⟩
  | notes p =>
    obtain ⟨hm, -⟩ := Prod.mk.inj hstep
    obtain ⟨hnone, ht, hk, hs, -⟩ := intent_notes hintent
    exact .inr (.inl ⟨p, rfl, by rw [← hm], by rw [← hm], hnone, ht, hk, hs⟩)
  | carries plan record =>
    obtain ⟨hfits, -, hrecord⟩ := h.carries hintent
    simp only [Intent.enact] at hstep
    split at hstep
    · exact nomatch (Prod.mk.inj hstep).2
    next s hcarry =>
    cases record with
    | error x => exact nomatch (Prod.mk.inj hstep).2
    | ok p =>
      obtain ⟨hm, -⟩ := Prod.mk.inj hstep
      subst hm
      obtain ⟨-, ht, hk⟩ := hrecord p rfl
      have hout := hfits.outcome hcarry
      obtain ⟨-, p', hp', hplan⟩ | ⟨-, previous, provenance, hplan, hmake⟩ := intent_carries hintent
      · cases hp'
        exact .inr (.inr ⟨plan, p, some p, rfl, hfits, hcarry, rfl, hout, ht, hk, hplan.carried,
          .inl ⟨rfl, hplan.state, hplan⟩⟩)
      · have hstate := (BrainSourceProjection.make_eq_ok hmake.symm).2.2.1
        exact .inr (.inr ⟨plan, p, none, rfl, hfits, hcarry, rfl, hout, ht, hk, hplan.carried,
          .inr ⟨rfl, hstate, previous, hplan⟩⟩)

/-- After a carried plan the active projections are its candidates. -/
theorem Carried.active {j : Journal} {key : String} {record : Option BrainSourceProjection}
    (h : Carried q j key record plan) (htenant : p.tenantId = q.tenantId) (hkey : p.sourceKey = key)
    (hrecord : record = some p ∧ p.state = .active ∨ record = none ∧ p.state = .deleted)
    (x : BrainSourceProjection) :
    x ∈ Journal.active (j.put p) q.tenantId ↔ x ∈ plan.candidates := by
  rw [mem_active_put htenant, h.supersedes.candidates, hkey]
  obtain ⟨rfl, hstate⟩ | ⟨rfl, hstate⟩ := hrecord
  · simp [hstate, eq_comm]
  · simp [hstate]

end

/-! ### The view -/

section
variable {projections projections' : List BrainSourceProjection} {k : EdgeKey}

theorem memberships_congr (h : ∀ v, v ∈ relationshipMemberships projections k ↔
    v ∈ relationshipMemberships projections' k) :
    relationshipMemberships projections k = relationshipMemberships projections' k :=
  increasing_ext (pairwise_sortedSet _) (pairwise_sortedSet _) h

theorem memberships_of_contributes (hkept : ∀ p ∈ projections, Kept p) :
    relationshipMemberships projections k ≠ [] ↔ ∃ p ∈ projections, Contributes p k := by
  constructor
  · intro hne
    obtain ⟨v, hv⟩ := List.exists_mem_of_ne_nil _ hne
    obtain ⟨p, hp, r, hr, hkey, -⟩ := mem_relationshipMemberships.mp hv
    exact ⟨p, hp, r, hr, hkey⟩
  · rintro ⟨p, hp, r, hr, hkey⟩
    obtain ⟨v, hv⟩ := List.exists_mem_of_ne_nil _ ((hkept p hp).cites r hr).1
    exact List.ne_nil_of_mem (mem_relationshipMemberships.mpr ⟨p, hp, r, hr, hkey, hv⟩)

end

/-- The store holds what the active projections of the journal contribute, and nothing else that
a source owns. -/
structure View (q : MemoryProjector) (m : Memory) : Prop where
  evidence : ∀ id, Live (m.store.evidenceRow q.tenantId id) ↔
    ∃ p ∈ m.journal.active q.tenantId, id ∈ p.evidenceIds
  owned : ∀ id, (∃ e, Content (m.store.entityRow q.tenantId id) = some e ∧ isSourceOwned e = true ∧
    e.kind ≠ .evidence) ↔ ∃ p ∈ m.journal.active q.tenantId, id ∈ p.ownedEntityIds
  entities : ∀ p ∈ m.journal.active q.tenantId, ∀ id ∈ p.entityIds,
    Live (m.store.entityRow q.tenantId id)
  relationships : ∀ k, Live (m.store.relationshipRow q.tenantId k) ↔
    ∃ p ∈ m.journal.active q.tenantId, Contributes p k
  citations : ∀ k r, Content (m.store.relationshipRow q.tenantId k) = some r →
    r.evidenceIds = relationshipMemberships (m.journal.active q.tenantId) k

theorem view_empty (q : MemoryProjector) : View q Memory.empty where
  evidence _ := iff_of_false (fun ⟨_, h, _⟩ => nomatch h) (fun ⟨_, h, _⟩ => nomatch h)
  owned _ := iff_of_false (fun ⟨_, h, _⟩ => nomatch h) (fun ⟨_, h, _⟩ => nomatch h)
  entities _ hp := nomatch hp
  relationships _ := iff_of_false (fun ⟨_, h, _⟩ => nomatch h) (fun ⟨_, h, _⟩ => nomatch h)
  citations _ _ h := nomatch h

section
variable {q : MemoryProjector} {j : Journal} {key : String} {record : Option BrainSourceProjection}
  {plan : Plan} {r r' : Rows} {m : Memory} {id : String} {k : EdgeKey}

/-- The active projections are those of the other sources and the source's own. -/
theorem mem_active_cases (key : String) {x : BrainSourceProjection} : x ∈ j.active q.tenantId ↔
    x ∈ q.others j key ∨ j.get (q.tenantId, key) = some x ∧ x.state = .active := by
  rw [mem_others]
  constructor
  · intro hx
    by_cases hkey : x.sourceKey = key
    · exact .inr (hkey ▸ Journal.mem_active.mp hx)
    · exact .inl ⟨hx, hkey⟩
  · rintro (⟨hx, -⟩ | ⟨hget, hactive⟩)
    · exact hx
    · have hrow : x.rowKey = (q.tenantId, key) := Table.key_of_get hget
      have hkey : x.sourceKey = key := (Prod.mk.inj hrow).2
      exact Journal.mem_active.mpr ⟨hkey ▸ hget, hactive⟩

/-- What a candidate has is what the source's new projection or another active one has. -/
theorem Carried.candidate_cases (h : Carried q j key record plan) {x : BrainSourceProjection}
    (hx : x ∈ plan.candidates) : x ∈ j.active q.tenantId ∧ x ∈ q.others j key ∨ record = some x := by
  obtain hother | hrecord := (h.supersedes.candidates x).mp hx
  · exact .inl ⟨(mem_others.mp hother).1, hother⟩
  · exact .inr hrecord

theorem Carried.live_evidence (h : Carried q j key record plan) (hout : plan.Outcome r r')
    (hview : Live (r.evidence id) ↔ ∃ p ∈ j.active q.tenantId, id ∈ p.evidenceIds) :
    Live (r'.evidence id) ↔ ∃ p ∈ plan.candidates, id ∈ p.evidenceIds := by
  by_cases hretired : id ∈ plan.retiredEvidence
  · refine iff_of_false (hout.retiredEvidence id hretired) ?_
    rintro ⟨p, hp, hid⟩
    exact ((h.supersedes.retiredEvidence id).mp hretired).2 p hp hid
  by_cases hown : ∃ v, plan.evidence = some v ∧ v.evidenceId = id
  · obtain ⟨v, hv, rfl⟩ := hown
    refine iff_of_true (content_isSome.mp (Option.isSome_of_eq_some (hout.evidence v hv))) ?_
    cases record with
    | none => exact absurd hv (by simp [(h.nothing rfl).2])
    | some p =>
      obtain ⟨w, hw, hids⟩ := h.evidenceIds p rfl
      cases hw.symm.trans hv
      exact ⟨p, (h.supersedes.candidates p).mpr (.inr rfl), by simp [hids]⟩
  · have hsame : r'.evidence id = r.evidence id :=
      hout.agree.evidence id fun hmem => (Plan.evidence_mem_places.mp hmem).elim hown hretired
    rw [hsame, hview]
    constructor
    · rintro ⟨p, hp, hid⟩
      obtain hother | ⟨hold, -⟩ := (mem_active_cases key).mp hp
      · exact ⟨p, (h.supersedes.candidates p).mpr (.inl hother), hid⟩
      · by_contra hnone
        push Not at hnone
        exact hretired ((h.supersedes.retiredEvidence id).mpr ⟨⟨p, hold, hid⟩, hnone⟩)
    · rintro ⟨p, hp, hid⟩
      obtain ⟨hactive, -⟩ | hrecord := h.candidate_cases hp
      · exact ⟨p, hactive, hid⟩
      · obtain ⟨v, hv, hids⟩ := h.evidenceIds p hrecord
        rw [hids, List.mem_singleton] at hid
        exact absurd ⟨v, hv, hid.symm⟩ hown

theorem Carried.evidence_kind (h : Carried q j key record plan)
    (hkept : ∀ key p, j.get (q.tenantId, key) = some p → Kept p)
    (hid : (∃ v, plan.evidence = some v ∧ v.evidenceId = id) ∨ id ∈ plan.retiredEvidence) :
    HasKind .evidence id := by
  obtain ⟨v, hv, rfl⟩ | hretired := hid
  · exact h.proper _ (Plan.mem_items.mpr (.inl (.inl (.inr ⟨v, hv, rfl⟩))))
  · obtain ⟨⟨old, hold, hmem⟩, -⟩ := (h.supersedes.retiredEvidence id).mp hretired
    exact (hkept _ old hold).evidence id hmem

theorem Carried.candidate_kept (h : Carried q j key record plan)
    (hkept : ∀ key p, j.get (q.tenantId, key) = some p → Kept p) {x : BrainSourceProjection}
    (hx : x ∈ plan.candidates) : Kept x := by
  obtain ⟨hactive, -⟩ | hrecord := h.candidate_cases hx
  · exact hkept _ x (Journal.mem_active.mp hactive).1
  · exact h.kept x hrecord

theorem Carried.live_owned (h : Carried q j key record plan) (hout : plan.Outcome r r')
    (hkept : ∀ key p, j.get (q.tenantId, key) = some p → Kept p) (hgoverned : Governed r')
    (hview : (∃ e, Content (r.entity id) = some e ∧ isSourceOwned e = true ∧ e.kind ≠ .evidence) ↔
      ∃ p ∈ j.active q.tenantId, id ∈ p.ownedEntityIds) :
    (∃ e, Content (r'.entity id) = some e ∧ isSourceOwned e = true ∧ e.kind ≠ .evidence) ↔
      ∃ p ∈ plan.candidates, id ∈ p.ownedEntityIds := by
  by_cases hdescribed : ∃ e ∈ plan.entities, e.entityId = id
  · obtain ⟨e, he, rfl⟩ := hdescribed
    obtain ⟨hkind, hne⟩ : HasKind e.kind e.entityId ∧ e.kind ≠ .evidence :=
      h.proper _ (Plan.mem_items.mpr (.inl (.inl (.inl ⟨e, he, rfl⟩))))
    rw [hout.entities e he]
    constructor
    · rintro ⟨_, ⟨⟩, howned, -⟩
      cases record with
      | none => exact absurd he (by simp [(h.nothing rfl).1])
      | some p => exact ⟨p, (h.supersedes.candidates p).mpr (.inr rfl),
          (h.ownedEntityIds p rfl _).mpr ⟨e, he, howned, rfl⟩⟩
    · rintro ⟨p, hp, hid⟩
      obtain ⟨kind, hkind', -, hshared⟩ := (h.candidate_kept hkept hp).owned _ hid
      refine ⟨e, rfl, ?_, hne⟩
      rw [isSourceOwned_eq, hasKind_unique hkind hkind', hshared]
      rfl
  by_cases hretired : id ∈ plan.retiredEntities
  · refine iff_of_false ?_ ?_
    · rintro ⟨e, he, -⟩
      exact hout.retiredEntities id hretired (content_isSome.mp (Option.isSome_of_eq_some he))
    · rintro ⟨p, hp, hid⟩
      exact ((h.supersedes.retiredEntities id).mp hretired).2 p hp hid
  by_cases hevidence : (∃ v, plan.evidence = some v ∧ v.evidenceId = id) ∨ id ∈ plan.retiredEvidence
  · have hkind := h.evidence_kind hkept hevidence
    refine iff_of_false ?_ ?_
    · rintro ⟨e, he, -, hne⟩
      obtain ⟨row, hrow, -, rfl⟩ := content_eq_some.mp he
      exact hne (hasKind_unique (hgoverned.kinds id row hrow) hkind)
    · rintro ⟨p, hp, hid⟩
      exact (h.candidate_kept hkept hp).owned_ne_evidence hid hkind
  · have hsame : r'.entity id = r.entity id := by
      refine hout.agree.entity id fun hmem => ?_
      obtain hmem | hmem | hmem | hmem := Plan.entity_mem_places.mp hmem
      · exact hdescribed hmem
      · exact hevidence (.inl hmem)
      · exact hevidence (.inr hmem)
      · exact hretired hmem
    rw [hsame, hview]
    constructor
    · rintro ⟨p, hp, hid⟩
      obtain hother | ⟨hold, -⟩ := (mem_active_cases key).mp hp
      · exact ⟨p, (h.supersedes.candidates p).mpr (.inl hother), hid⟩
      · by_contra hnone
        push Not at hnone
        exact hretired ((h.supersedes.retiredEntities id).mpr ⟨⟨p, hold, hid⟩, hnone⟩)
    · rintro ⟨p, hp, hid⟩
      obtain ⟨hactive, -⟩ | hrecord := h.candidate_cases hp
      · exact ⟨p, hactive, hid⟩
      · obtain ⟨e, he, -, hid'⟩ := (h.ownedEntityIds p hrecord id).mp hid
        exact absurd ⟨e, he, hid'⟩ hdescribed

/-- The entities of other active projections stay active: what is retired belongs to none of them. -/
theorem Carried.live_entity (h : Carried q j key record plan) (hout : plan.Outcome r r')
    (hkept : ∀ key p, j.get (q.tenantId, key) = some p → Kept p) {x : BrainSourceProjection}
    (hx : x ∈ plan.candidates) (hid : id ∈ x.entityIds)
    (hbefore : x ∈ j.active q.tenantId → Live (r.entity id)) : Live (r'.entity id) := by
  by_cases hdescribed : ∃ e ∈ plan.entities, e.entityId = id
  · obtain ⟨e, he, rfl⟩ := hdescribed
    exact content_isSome.mp (Option.isSome_of_eq_some (hout.entities e he))
  have hx' := h.candidate_kept hkept hx
  have hkind : ¬ HasKind .evidence id := by
    intro hevidence
    by_cases howned : id ∈ x.ownedEntityIds
    · exact hx'.owned_ne_evidence howned hevidence
    · obtain ⟨kind, hkind, hshared⟩ := hx'.shared id hid howned
      rw [hasKind_unique hkind hevidence] at hshared
      cases hshared
  have hnot : id ∉ plan.retiredEntities := by
    intro hretired
    obtain ⟨⟨old, hold, hmem⟩, hnone⟩ := (h.supersedes.retiredEntities id).mp hretired
    obtain ⟨kind, hkind, -, hshared⟩ := (hkept _ old hold).owned id hmem
    obtain ⟨kind', hkind', hshared'⟩ := hx'.shared id hid (hnone x hx)
    rw [hasKind_unique hkind hkind', hshared'] at hshared
    cases hshared
  have hsame : r'.entity id = r.entity id := by
    refine hout.agree.entity id fun hmem => ?_
    obtain hmem | hmem | hmem | hmem := Plan.entity_mem_places.mp hmem
    · exact hdescribed hmem
    · exact hkind (h.evidence_kind hkept (.inl hmem))
    · exact hkind (h.evidence_kind hkept (.inr hmem))
    · exact hnot hmem
  rw [hsame]
  obtain ⟨hactive, -⟩ | hrecord := h.candidate_cases hx
  · exact hbefore hactive
  · exact absurd ((h.entityIds x hrecord id).mp hid) hdescribed

/-- The candidates' memberships of an edge that the plan does not touch are those of before. -/
theorem Carried.memberships_kept (h : Carried q j key record plan) (hk : k ∉ plan.edges) :
    (∀ x, Contributes x k → (x ∈ plan.candidates ↔ x ∈ j.active q.tenantId)) ∧
    relationshipMemberships plan.candidates k = relationshipMemberships (j.active q.tenantId) k := by
  have hsame : ∀ x, Contributes x k → (x ∈ plan.candidates ↔ x ∈ j.active q.tenantId) := by
    intro x hx
    rw [h.supersedes.candidates, mem_active_cases key]
    refine or_congr_right (iff_of_false (fun hrecord => ?_) fun hold => ?_)
    · exact hk ((h.supersedes.edges k).mpr (.inr ⟨x, hrecord, hx⟩))
    · exact hk ((h.supersedes.edges k).mpr (.inl ⟨x, hold.1, hx⟩))
  refine ⟨hsame, memberships_congr fun v => ?_⟩
  rw [mem_relationshipMemberships, mem_relationshipMemberships]
  constructor
  · rintro ⟨x, hx, e, he, hkey, hv⟩
    exact ⟨x, (hsame x ⟨e, he, hkey⟩).mp hx, e, he, hkey, hv⟩
  · rintro ⟨x, hx, e, he, hkey, hv⟩
    exact ⟨x, (hsame x ⟨e, he, hkey⟩).mpr hx, e, he, hkey, hv⟩

theorem Carried.relationship (h : Carried q j key record plan) (hfits : plan.Fits)
    (hout : plan.Outcome r r') (hkept : ∀ key p, j.get (q.tenantId, key) = some p → Kept p)
    (hview : Live (r.relationship k) ↔ ∃ p ∈ j.active q.tenantId, Contributes p k)
    (hcites : ∀ e, Content (r.relationship k) = some e →
      e.evidenceIds = relationshipMemberships (j.active q.tenantId) k) :
    (Live (r'.relationship k) ↔ ∃ p ∈ plan.candidates, Contributes p k) ∧
    ∀ e, Content (r'.relationship k) = some e →
      e.evidenceIds = relationshipMemberships plan.candidates k := by
  by_cases hk : k ∈ plan.edges
  · have hcontent := hout.edges k hk
    obtain ⟨hs, ht, hne⟩ := hfits.edges k hk
    have hsome := memberships_of_contributes (k := k) fun p hp => h.candidate_kept hkept hp
    rw [← content_isSome, hcontent, ← hsome]
    obtain ⟨hids, hdesired⟩ | ⟨e, hids, hdesired, -, hevidence, -⟩ := plan.desired_cases hs ht hne
    · simp [hdesired, hids]
    · rw [hdesired]
      refine ⟨iff_of_true rfl hids, ?_⟩
      rintro _ ⟨⟩
      exact hevidence
  · have hsame : r'.relationship k = r.relationship k :=
      hout.agree.relationship k fun hmem => hk (Plan.edge_mem_places.mp hmem)
    obtain ⟨hcontributes, hids⟩ := h.memberships_kept hk
    rw [hsame, hview, hids]
    refine ⟨exists_congr fun p => ?_, hcites⟩
    exact and_congr_left fun hp => (hcontributes p hp).symm

end

/-- A call that goes through keeps the view. -/
theorem View.step {q : MemoryProjector} {sha256 : String → String} {c : Call} {m m' : Memory}
    {receipt : ProjectionReceipt} (h : View q m) (hlawful : Lawful q m)
    (hstep : q.step sha256 m c = (m', .ok receipt)) : View q m' := by
  have hgoverned : Governed (m'.store.rows q.tenantId) := by
    have hnext : Lawful q (q.step sha256 m c).1 := hlawful.step
    rw [hstep] at hnext
    exact hnext.governed
  obtain ⟨rfl, -⟩ | ⟨p, -, hstore, hjournal, hnone, ht, hk, hstate⟩ |
    ⟨plan, p, record, -, hfits, -, hjournal, hout, ht, hk, hcarried, hrecord⟩ :=
    step_ok_cases hlawful hstep
  · exact h
  · -- the journal had nothing for the source, and the note is not active
    have hactive : ∀ x, x ∈ Journal.active (m.journal.put p) q.tenantId ↔
        x ∈ m.journal.active q.tenantId := by
      intro x
      rw [mem_active_put ht, mem_active_cases p.sourceKey, hk, hnone, hstate]
      simp
    have hids : ∀ k, relationshipMemberships (Journal.active (m.journal.put p) q.tenantId) k =
        relationshipMemberships (m.journal.active q.tenantId) k := by
      intro k
      refine memberships_congr fun v => ?_
      simp only [mem_relationshipMemberships, hactive]
    refine ⟨?_, ?_, ?_, ?_, ?_⟩ <;> rw [hstore, hjournal]
    · simpa only [hactive] using h.evidence
    · simpa only [hactive] using h.owned
    · simpa only [hactive] using h.entities
    · simpa only [hactive] using h.relationships
    · simpa only [hids] using h.citations
  · have hrecord' : record = some p ∧ p.state = .active ∨ record = none ∧ p.state = .deleted :=
      hrecord.imp (fun h => ⟨h.1, h.2.1⟩) fun h => ⟨h.1, h.2.1⟩
    have hactive := hcarried.active ht hk hrecord'
    have hids : ∀ k, relationshipMemberships (Journal.active (m.journal.put p) q.tenantId) k =
        relationshipMemberships plan.candidates k := by
      intro k
      refine memberships_congr fun v => ?_
      simp only [mem_relationshipMemberships, hactive]
    have hedge := fun k => hcarried.relationship (k := k) hfits hout hlawful.kept
      (h.relationships k) (h.citations k)
    refine ⟨?_, ?_, ?_, ?_, ?_⟩ <;> rw [hjournal]
    · intro id
      simp only [hactive]
      exact hcarried.live_evidence hout (h.evidence id)
    · intro id
      simp only [hactive]
      exact hcarried.live_owned hout hlawful.kept hgoverned (h.owned id)
    · intro x hx id hid
      rw [hactive] at hx
      exact hcarried.live_entity hout hlawful.kept hx hid fun hx => h.entities x hx id hid
    · intro k
      simp only [hactive]
      exact (hedge k).1
    · intro k e he
      rw [hids]
      exact (hedge k).2 e he

end EngineeringIntelligence.CompanyBrain
