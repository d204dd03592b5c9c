import EngineeringIntelligence.CompanyBrain.Projections

namespace EngineeringIntelligence.CompanyBrain

open EngineeringIntelligence.Framework EngineeringIntelligence.Ingestion

/-! What every call of the projector keeps, whether it goes through or raises half way. -/

/-- The rows of a tenant that only the projector has written to: entities are of the kind their
identifier names, nothing is held, evidence and its entity come and go together, and the ends of a
relationship have been there. -/
structure Governed (r : Rows) : Prop where
  kinds : ∀ id row, r.entity id = some row → HasKind row.record.kind id
  entities : ∀ id row, r.entity id = some row → row.retention = defaultRetentionPolicy
  evidence : ∀ id row, r.evidence id = some row → row.retention = defaultRetentionPolicy
  relationships : ∀ k row, r.relationship k = some row → row.retention = defaultRetentionPolicy
  paired : ∀ id row, r.evidence id = some row → ∃ e structural, evidenceEntity row.record = .ok e ∧
    r.entity id = some structural ∧ structural.record = e ∧ structural.isActive = row.isActive
  structural : ∀ id row, r.entity id = some row → row.record.kind = .evidence →
    (r.evidence id).isSome = true
  ends : ∀ k row, r.relationship k = some row →
    (r.entity k.sourceId).isSome = true ∧ (r.entity k.targetId).isSome = true

theorem governed_empty (tenant : String) : Governed (Store.empty.rows tenant) where
  kinds _ _ h := nomatch h
  entities _ _ h := nomatch h
  evidence _ _ h := nomatch h
  relationships _ _ h := nomatch h
  paired _ _ h := nomatch h
  structural _ _ h := nomatch h
  ends _ _ h := nomatch h

theorem evidenceEntity_kind {v : BrainEvidence} {e : BrainEntity} (h : evidenceEntity v = .ok e) :
    e.entityId = v.evidenceId ∧ e.kind = .evidence := by
  obtain ⟨hid, hkind, -⟩ := BrainEntity.make_eq_ok h
  exact ⟨hid, hkind⟩

theorem forall_update {κ α : Type} [DecidableEq κ] {f : κ → Option α} {P : κ → α → Prop} {i : κ} {x : α}
    (hnew : P i x) (h : ∀ k row, k ≠ i → f k = some row → P k row) :
    ∀ k row, Function.update f i (some x) k = some row → P k row := by
  intro k row hrow
  by_cases hk : k = i
  · subst hk
    rw [Function.update_self, Option.some.injEq] at hrow
    exact hrow ▸ hnew
  · rw [Function.update_of_ne hk] at hrow
    exact h k row hk hrow

namespace Governed

variable {r r' : Rows}

/-- Only evidence has the identifier of evidence. -/
theorem evidence_kind (h : Governed r) {id : String} {row : StoredEvidence}
    (hrow : r.evidence id = some row) : HasKind .evidence id := by
  obtain ⟨e, structural, he, hstructural, hrecord, -⟩ := h.paired id row hrow
  have hkind := h.kinds id structural hstructural
  rwa [hrecord, (evidenceEntity_kind he).2] at hkind

theorem setEntity (h : Governed r) {id : String} {row : StoredEntity}
    (hkind : HasKind row.record.kind id) (hne : row.record.kind ≠ .evidence)
    (hretention : row.retention = defaultRetentionPolicy) : Governed (r.setEntity id row) where
  kinds := forall_update hkind fun x row _ => h.kinds x row
  entities := forall_update hretention fun x row _ => h.entities x row
  evidence := h.evidence
  relationships := h.relationships
  paired x v hv := by
    obtain ⟨e, structural, he, hstructural, hrecord, hactive⟩ := h.paired x v hv
    have hx : x ≠ id := by
      rintro rfl
      exact hne (hasKind_unique hkind (h.evidence_kind hv))
    exact ⟨e, structural, he, by rw [entity_setEntity_of_ne hx, hstructural], hrecord, hactive⟩
  structural := forall_update (fun hevidence => absurd hevidence hne) fun x row _ => h.structural x row
  ends k v hv := (h.ends k v hv).imp isSome_setEntity isSome_setEntity

theorem setPair (h : Governed r) {id : String} {row : StoredEvidence} {structural : StoredEntity}
    (hkind : HasKind .evidence id) (he : evidenceEntity row.record = .ok structural.record)
    (hactive : structural.isActive = row.isActive)
    (hretention : row.retention = defaultRetentionPolicy)
    (hretention' : structural.retention = defaultRetentionPolicy) :
    Governed ((r.setEvidence id row).setEntity id structural) where
  kinds := by
    refine forall_update ?_ fun x row _ => h.kinds x row
    rwa [(evidenceEntity_kind he).2]
  entities := forall_update hretention' fun x row _ => h.entities x row
  evidence := forall_update hretention fun x row _ => h.evidence x row
  relationships := h.relationships
  paired := by
    refine forall_update ⟨structural.record, structural, he, by simp, rfl, hactive⟩
      fun x v hx hv => ?_
    obtain ⟨e, found, he', hfound, hrecord, hactive'⟩ := h.paired x v hv
    exact ⟨e, found, he', (entity_setEntity_of_ne hx).trans hfound, hrecord, hactive'⟩
  structural := by
    refine forall_update (fun _ => ?_) fun x row hx hrow hevidence => ?_
    · exact Option.isSome_of_eq_some evidence_setEvidence_self
    · exact (congrArg Option.isSome (evidence_setEvidence_of_ne hx)).trans (h.structural x row hrow hevidence)
  ends k v hv := (h.ends k v hv).imp isSome_setEntity isSome_setEntity

theorem setRelationship (h : Governed r) {k : EdgeKey} {row : StoredRelationship}
    (hretention : row.retention = defaultRetentionPolicy)
    (hends : (r.entity k.sourceId).isSome = true ∧ (r.entity k.targetId).isSome = true) :
    Governed (r.setRelationship k row) where
  kinds := h.kinds
  entities := h.entities
  evidence := h.evidence
  relationships := forall_update hretention fun x row _ => h.relationships x row
  paired := h.paired
  structural := h.structural
  ends := forall_update hends fun x row _ => h.ends x row

end Governed

theorem Live.isSome {α : Type} {row : Option (Stored α)} (h : Live row) : row.isSome = true := by
  obtain ⟨x, rfl, -⟩ := h
  rfl

/-- An item whose own records are of their kinds. -/
def Item.Proper : Item → Prop
  | entity e => HasKind e.kind e.entityId ∧ e.kind ≠ .evidence
  | evidence v => HasKind .evidence v.evidenceId
  | _ => True

theorem Governed.effect {p : Plan} {r r' : Rows} {i : Item} (h : Governed r) (hproper : i.Proper)
    (heffect : i.Effect p r r') : Governed r' := by
  cases i with
  | entity e =>
    obtain ⟨row, ⟨hrecord, -, hretention⟩, rfl⟩ := heffect
    obtain ⟨hkind, hne⟩ := hproper
    exact h.setEntity (by rwa [hrecord]) (by rwa [hrecord]) hretention
  | evidence v =>
    obtain ⟨row, e, structural, he, ⟨hrecord, hactive, hretention⟩, ⟨hrecord', hactive', hretention'⟩,
      rfl⟩ := heffect
    exact h.setPair hproper (by rw [hrecord, he, hrecord']) (hactive'.trans hactive.symm) hretention
      hretention'
  | edge k =>
    simp only [Item.Effect] at heffect
    split at heffect
    · obtain ⟨old, row, hold, ⟨-, -, hretention⟩, rfl⟩ := heffect
      exact h.setRelationship (hretention.trans (h.relationships k old hold)) (h.ends k old hold)
    · next relationship hdesired =>
      obtain ⟨⟨hsource, htarget, -⟩, row, ⟨-, -, hretention⟩, rfl⟩ := heffect
      have hkey := (Plan.desired_eq_some hdesired).1
      subst hkey
      exact h.setRelationship hretention ⟨hsource.isSome, htarget.isSome⟩
  | retireEvidence id =>
    obtain ⟨old, structural, row, tomb, hold, hstructural, -, ⟨hrecord, hactive, hretention⟩,
      ⟨hrecord', hactive', hretention'⟩, rfl⟩ := heffect
    obtain ⟨e, found, he, hfound, hsame, -⟩ := h.paired id old hold
    cases hstructural.symm.trans hfound
    refine h.setPair (h.evidence_kind hold) ?_ (hactive'.trans hactive.symm)
      (hretention.trans (h.evidence id old hold)) (hretention'.trans (h.entities id structural hstructural))
    rw [hrecord, he, hrecord', hsame]
  | retireEntity id =>
    obtain ⟨old, row, hold, hne, ⟨hrecord, -, hretention⟩, rfl⟩ := heffect
    refine h.setEntity ?_ (by rwa [hrecord]) (hretention.trans (h.entities id old hold))
    rw [hrecord]
    exact h.kinds id old hold

namespace Plan

variable {p : Plan} {q : MemoryProjector} {clock : Clock} {s s' : Store}

/-- What a plan leaves when it goes through: everything it was to write is as wanted, and the
places it does not name are as they were. -/
structure Outcome (p : Plan) (r r' : Rows) : Prop where
  entities : ∀ e ∈ p.entities, Content (r'.entity e.entityId) = some e
  evidence : ∀ v, p.evidence = some v → Content (r'.evidence v.evidenceId) = some v
  edges : ∀ k ∈ p.edges, Content (r'.relationship k) = p.desired k
  retiredEvidence : ∀ id ∈ p.retiredEvidence, ¬ Live (r'.evidence id)
  retiredEntities : ∀ id ∈ p.retiredEntities, ¬ Live (r'.entity id)
  agree : Rows.Agree p.places r r'

theorem Fits.outcome (h : p.Fits) (hok : p.carryOut q clock s = (s', .ok ())) :
    p.Outcome (s.rows q.tenantId) (s'.rows q.tenantId) := by
  obtain ⟨hagree, hdone⟩ := (h.law q clock (s.rows q.tenantId)).of_ok (Rows.Agree.refl _ _) hok
  exact {
    entities := fun e he => not_not.mp (hdone _ (mem_items.mpr (.inl (.inl (.inl ⟨e, he, rfl⟩)))))
    evidence := fun v hv => not_not.mp (hdone _ (mem_items.mpr (.inl (.inl (.inr ⟨v, hv, rfl⟩)))))
    edges := fun k hk => not_not.mp (hdone _ (mem_items.mpr (.inl (.inr ⟨k, hk, rfl⟩))))
    retiredEvidence := fun id hid => hdone _ (mem_items.mpr (.inr (.inl ⟨id, hid, rfl⟩)))
    retiredEntities := fun id hid => hdone _ (mem_items.mpr (.inr (.inr ⟨id, hid, rfl⟩)))
    agree := hagree }

/-- A plan of proper items keeps the rows governed, however far it gets. -/
theorem Fits.governed (h : p.Fits) (clock : Clock) (hproper : ∀ i ∈ p.items, i.Proper)
    (hs : Governed (s.rows q.tenantId)) : Governed ((p.carryOut q clock s).1.rows q.tenantId) := by
  refine sweep_invariant (P := fun s : Store => Governed (s.rows q.tenantId)) (fun i hi s hs => ?_) hs
  obtain ⟨hidle, hrefuses, hwrites⟩ := h.item_cases q clock s hi
  by_cases hp : i.pending p (s.rows q.tenantId)
  · by_cases hblocked : i.blocked p (s.rows q.tenantId)
    · obtain ⟨x, hcall⟩ := hrefuses hp hblocked
      rwa [hcall]
    · obtain ⟨s', hcall, heffect⟩ := hwrites hp hblocked
      rw [hcall]
      exact hs.effect (hproper i hi) heffect
  · rwa [hidle hp]

end Plan

/-! ### Calls -/

/-- What the store and the journal of one tenant satisfy after any calls of its projector. -/
structure Lawful (q : MemoryProjector) (m : Memory) : Prop where
  governed : Governed (m.store.rows q.tenantId)
  kept : ∀ key p, m.journal.get (q.tenantId, key) = some p → Kept p

section
variable {q : MemoryProjector} {sha256 : String → String} {c : Call} {m : Memory} {plan : Plan}
  {p : BrainSourceProjection} {tenant : String}

theorem UpsertPlan.proper (h : UpsertPlan q sha256 c m plan p) : ∀ i ∈ plan.items, i.Proper := by
  have hu := c.change.sound
  intro i hi
  obtain ((⟨e, he, rfl⟩ | ⟨v, hv, rfl⟩) | ⟨k, -, rfl⟩) | ⟨x, -, rfl⟩ | ⟨x, -, rfl⟩ := Plan.mem_items.mp hi
  · exact (((h.entities e).mp he).mem_entityIds hu).2
  · obtain ⟨w, -, hw, hid, -⟩ := h.evidence
    cases hw.symm.trans hv
    simp only [Item.Proper, hid]
    exact hu.evidenceKind
  · trivial
  · trivial
  · trivial

theorem UpsertPlan.kept (h : UpsertPlan q sha256 c m plan p) : Kept p where
  evidence id hid := by
    rw [h.records.evidenceIds, List.mem_singleton] at hid
    rw [hid]
    exact c.change.sound.evidenceKind
  owned id hid := by
    obtain ⟨e, he, howned, rfl⟩ := (h.records.ownedEntityIds id).mp hid
    obtain ⟨-, hkind, hne⟩ := ((h.entities e).mp he).mem_entityIds c.change.sound
    exact ⟨e.kind, hkind, hne, by simpa [isSourceOwned_eq] using howned⟩
  shared id hid hnot := by
    obtain ⟨e, he, rfl⟩ := (h.records.entityIds id).mp hid
    obtain ⟨-, hkind, -⟩ := ((h.entities e).mp he).mem_entityIds c.change.sound
    refine ⟨e.kind, hkind, ?_⟩
    by_contra hshared
    refine hnot ((h.records.ownedEntityIds _).mpr ⟨e, he, ?_, rfl⟩)
    simpa [isSourceOwned_eq] using hshared
  cites x hx := by
    rw [h.records.evidenceIds, ((h.records.relationships x).mp hx).1]
    exact ⟨by simp, List.Subset.refl _⟩

theorem DeletePlan.proper (h : DeletePlan q c m plan p) : ∀ i ∈ plan.items, i.Proper := by
  intro i hi
  obtain ((⟨e, he, rfl⟩ | ⟨v, hv, rfl⟩) | ⟨k, -, rfl⟩) | ⟨x, -, rfl⟩ | ⟨x, -, rfl⟩ := Plan.mem_items.mp hi
  · rw [h.entities] at he
    cases he
  · rw [h.evidence] at hv
    cases hv
  · trivial
  · trivial
  · trivial

/-- What a carried plan is about to record is kept, and its writes fit. -/
theorem Lawful.carries (h : Lawful q m) {record : Except BrainError BrainSourceProjection}
    (hintent : q.intent sha256 c m = .carries plan record) :
    plan.Fits ∧ (∀ i ∈ plan.items, i.Proper) ∧ ∀ p, record = .ok p →
      Kept p ∧ p.tenantId = q.tenantId ∧ p.sourceKey = c.change.sourceKey := by
  obtain ⟨-, p, rfl, hplan⟩ | ⟨-, previous, provenance, hplan, rfl⟩ := intent_carries hintent
  · refine ⟨hplan.fits fun old hold => h.kept _ old hold, hplan.proper, ?_⟩
    rintro _ ⟨⟩
    exact ⟨hplan.kept, hplan.tenant, hplan.sourceKey⟩
  · have hkept := h.kept _ previous hplan.found
    refine ⟨hplan.fits hkept, hplan.proper, fun p hp => ?_⟩
    obtain ⟨ht, hk, -, -, -, hentities, howned, hevidence, hedges⟩ := BrainSourceProjection.make_eq_ok hp
    refine ⟨⟨?_, ?_, ?_, ?_⟩, ht, hk⟩
    · rw [hevidence]
      exact hkept.evidence
    · rw [howned]
      exact hkept.owned
    · rw [hentities, howned]
      exact hkept.shared
    · rw [hedges, hevidence]
      exact hkept.cites

theorem forall_put {j : Journal} {tenant : String} {P : BrainSourceProjection → Prop}
    (h : ∀ key p, j.get (tenant, key) = some p → P p) {new : BrainSourceProjection} (hnew : P new)
    (htenant : new.tenantId = tenant) : ∀ key p, (j.put new).get (tenant, key) = some p → P p := by
  intro key p hp
  rw [Journal.get_put_projection key htenant] at hp
  split at hp
  · cases hp
    exact hnew
  · exact h key p hp

/-- Every call keeps the store and the journal lawful, whether it goes through or raises. -/
theorem Lawful.step (h : Lawful q m) : Lawful q (q.step sha256 m c).1 := by
  rw [step_eq]
  generalize hintent : q.intent sha256 c m = intent
  cases intent with
  | raises x => exact h
  | keeps r => exact h
  | notes p =>
    obtain ⟨-, ht, -, -, hentities, howned, hevidence, hedges⟩ := intent_notes hintent
    refine ⟨h.governed, forall_put h.kept ⟨?_, ?_, ?_, ?_⟩ ht⟩
    · simp [hevidence]
    · simp [howned]
    · simp [hentities]
    · simp [hedges]
  | carries plan record =>
    obtain ⟨hfits, hproper, hrecord⟩ := h.carries hintent
    have hgoverned := hfits.governed c.clock hproper h.governed
    simp only [Intent.enact]
    split
    · next s x hcarry =>
      rw [hcarry] at hgoverned
      exact ⟨hgoverned, h.kept⟩
    · next s hcarry =>
      rw [hcarry] at hgoverned
      cases record with
      | error x => exact ⟨hgoverned, h.kept⟩
      | ok p =>
        obtain ⟨hkept, ht, -⟩ := hrecord p rfl
        exact ⟨hgoverned, forall_put h.kept hkept ht⟩

theorem lawful_empty (q : MemoryProjector) : Lawful q Memory.empty :=
  ⟨governed_empty q.tenantId, fun _ _ h => nomatch h⟩

/-- An item of a plan leaves the rows of the other tenants. -/
theorem Plan.Fits.perform_other (h : plan.Fits) (clock : Clock) {i : Item} (hi : i ∈ plan.items)
    (hne : tenant ≠ q.tenantId) (s : Store) :
    (perform (plan.round q clock i) s).1.rows tenant = s.rows tenant := by
  obtain ⟨hidle, hasks⟩ := h.round_cases q clock s hi
  by_cases hp : i.pending plan (s.rows q.tenantId)
  · obtain ⟨op, hround, hop⟩ := hasks hp
    rw [perform, hround]
    generalize hstep : s.step op = out
    obtain ⟨s', answer⟩ := out
    cases answer with
    | ok a =>
      have hrun : ((Round.write op).run s).1 = s' := congrArg Prod.fst hstep
      rw [hrun]
      exact (step_rows hstep).1 tenant (hop.tenant.symm ▸ hne)
    | error x =>
      have hrun : ((Round.write op).run s).1 = s' := congrArg Prod.fst hstep
      rw [hrun, Store.step_error hstep]
  · rw [perform, hidle hp]
    rfl

/-- A call leaves what the journal has of other tenants and of other sources. -/
theorem Lawful.journal_other (h : Lawful q m) {key : String × String} (hne : key ≠ (q.tenantId, c.change.sourceKey)) :
    (q.step sha256 m c).1.journal.get key = m.journal.get key := by
  have hput : ∀ p : BrainSourceProjection, p.tenantId = q.tenantId → p.sourceKey = c.change.sourceKey →
      (m.journal.put p).get key = m.journal.get key := fun p ht hk => by
    rw [Table.get_put, if_neg]
    exact fun hkey => hne (hkey.trans (Prod.ext ht hk))
  rw [step_eq]
  generalize hintent : q.intent sha256 c m = intent
  cases intent with
  | raises x => rfl
  | keeps r => rfl
  | notes p =>
    obtain ⟨-, ht, hk, -⟩ := intent_notes hintent
    exact hput p ht hk
  | carries plan record =>
    obtain ⟨-, -, hrecord⟩ := h.carries hintent
    simp only [Intent.enact]
    split
    · rfl
    · cases record with
      | error x => rfl
      | ok p =>
        obtain ⟨-, ht, hk⟩ := hrecord p rfl
        exact hput p ht hk

/-- A call leaves the rows of the other tenants. -/
theorem Lawful.rows_other (h : Lawful q m) (hne : tenant ≠ q.tenantId) :
    (q.step sha256 m c).1.store.rows tenant = m.store.rows tenant := by
  rw [step_eq]
  generalize hintent : q.intent sha256 c m = intent
  cases intent with
  | raises x => rfl
  | keeps r => rfl
  | notes p => rfl
  | carries plan record =>
    obtain ⟨hfits, -, -⟩ := h.carries hintent
    have hrows : (plan.carryOut q c.clock m.store).1.rows tenant = m.store.rows tenant :=
      sweep_invariant (P := fun s : Store => s.rows tenant = m.store.rows tenant)
        (fun i hi s hs => (hfits.perform_other c.clock hi hne s).trans hs) rfl
    simp only [Intent.enact]
    split
    · next s x hcarry =>
      rw [hcarry] at hrows
      exact hrows
    · next s hcarry =>
      rw [hcarry] at hrows
      cases record with
      | error x => exact hrows
      | ok p => exact hrows

/-- A call of one of several projectors, on the store and the journal that they share. -/
def served (sha256 : String → String) (m : Memory) (x : MemoryProjector × Call) :
    Memory × Except BrainError ProjectionReceipt :=
  x.1.step sha256 m x.2

/-- Whatever the calls of projectors of any tenants in any order, and whether they go through or raise: the rows and
projections of every tenant are lawful, and a call leaves those of the other tenants. -/
theorem projectors_keep_apart (sha256 : String → String) (calls : List (MemoryProjector × Call))
    (q : MemoryProjector) (x : MemoryProjector × Call) :
    Lawful q (runState (served sha256) Memory.empty calls) ∧ (x.1.tenantId ≠ q.tenantId →
      (served sha256 (runState (served sha256) Memory.empty calls) x).1.store.rows q.tenantId =
          (runState (served sha256) Memory.empty calls).store.rows q.tenantId ∧
        ∀ key, (served sha256 (runState (served sha256) Memory.empty calls) x).1.journal.get (q.tenantId, key) =
          (runState (served sha256) Memory.empty calls).journal.get (q.tenantId, key)) := by
  have hlawful : ∀ q, Lawful q (runState (served sha256) Memory.empty calls) := by
    refine run_invariant (P := fun m => ∀ q, Lawful q m) _ (fun m x h q => ?_) lawful_empty calls
    obtain ⟨p, c⟩ := x
    by_cases hq : p.tenantId = q.tenantId
    · obtain ⟨tenant, hp⟩ := p
      obtain rfl : tenant = q.tenantId := hq
      exact (h q).step
    · have hrows : (p.step sha256 m c).1.store.rows q.tenantId = m.store.rows q.tenantId :=
        (h p).rows_other (Ne.symm hq)
      refine ⟨by rw [served, hrows]; exact (h q).governed, fun key r hr => (h q).kept key r ?_⟩
      rw [← hr]
      exact ((h p).journal_other fun hkey => hq (Prod.mk.inj hkey).1.symm).symm
  refine ⟨hlawful q, fun hne => ⟨(hlawful x.1).rows_other hne.symm, fun key => ?_⟩⟩
  exact (hlawful x.1).journal_other fun hkey => hne (Prod.mk.inj hkey).1.symm

end

end EngineeringIntelligence.CompanyBrain
