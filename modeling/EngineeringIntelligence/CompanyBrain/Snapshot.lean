import EngineeringIntelligence.CompanyBrain.EvidencePairs

namespace EngineeringIntelligence.CompanyBrain

open EngineeringIntelligence.Framework

/-! The snapshot of a tenant: when it can be taken and what it holds. -/

section
variable {b : CompanyBrain} {sourceId targetId : String} {kind : RelationshipKind}
  {evidenceIds : List String}

/-- What `relate` asks of a model. -/
theorem relate_ok_iff {b' : CompanyBrain} {r : BrainRelationship} :
    b.relate sourceId targetId kind evidenceIds = .ok (b', r) ↔
      (b.entities.get sourceId).isSome = true ∧ (b.entities.get targetId).isSome = true ∧
      (∀ v ∈ evidenceIds, (b.evidence.get v).isSome = true) ∧
      BrainRelationship.make sourceId targetId kind (sortedSet (evidenceIds ++
        (b.related.get ⟨sourceId, kind, targetId⟩).elim [] (·.evidenceIds))) = .ok r ∧
      b' = { b with related := b.related.put r } := by
  have hsome : ∀ {α : Type} (o : Option α), ¬ o.isNone = true ↔ o.isSome = true := by
    intro α o
    cases o <;> simp
  unfold CompanyBrain.relate
  rw [ite_error_eq_ok_iff, ite_error_eq_ok_iff, not_or, hsome, hsome, and_assoc, not_not,
    List.filter_eq_nil_iff]
  refine and_congr_right fun _ => and_congr_right fun _ =>
    and_congr (forall₂_congr fun v _ => hsome _) ?_
  dsimp only
  split
  · next h => simp [h]
  · next relationship h =>
    simp only [h, Except.ok.injEq, Prod.mk.injEq]
    constructor
    · rintro ⟨rfl, rfl⟩
      exact ⟨rfl, rfl⟩
    · rintro ⟨rfl, rfl⟩
      exact ⟨rfl, rfl⟩

end

theorem BrainRelationship.evidenceIds_increasing (r : BrainRelationship) :
    r.evidenceIds.Pairwise (· < ·) :=
  (relationshipProblem_eq_none.mp r.valid).2.2.2.1

/-- Relating a relationship anew where there is none with its key gives it back. -/
theorem relate_new {b : CompanyBrain} {r : BrainRelationship} (hnew : b.related.get r.key = none) :
    (·.1) <$> b.relate r.sourceId r.targetId r.kind r.evidenceIds = .ok
        { b with related := b.related.put r } ↔
      (b.entities.get r.sourceId).isSome = true ∧ (b.entities.get r.targetId).isSome = true ∧
      ∀ v ∈ r.evidenceIds, (b.evidence.get v).isSome = true := by
  have hprevious : b.related.get ⟨r.sourceId, r.kind, r.targetId⟩ = none := hnew
  have hids : sortedSet (r.evidenceIds ++ []) = r.evidenceIds := by
    rw [List.append_nil, sortedSet_of_increasing r.evidenceIds_increasing]
  have hmake : BrainRelationship.make r.sourceId r.targetId r.kind (sortedSet (r.evidenceIds ++
      (b.related.get ⟨r.sourceId, r.kind, r.targetId⟩).elim [] (·.evidenceIds))) = .ok r := by
    rw [hprevious, Option.elim_none, hids]
    exact BrainRelationship.make_ok r.valid
  constructor
  · intro h
    cases hrelate : b.relate r.sourceId r.targetId r.kind r.evidenceIds with
    | error x => rw [hrelate] at h; cases h
    | ok out =>
      obtain ⟨hsource, htarget, hevidence, -, -⟩ := relate_ok_iff.mp hrelate
      exact ⟨hsource, htarget, hevidence⟩
  · rintro ⟨hsource, htarget, hevidence⟩
    rw [relate_ok_iff.mpr ⟨hsource, htarget, hevidence, hmake, rfl⟩]
    rfl

/-- The last step of `snapshot`. -/
def relateAll (b : CompanyBrain) (rs : List BrainRelationship) : Except BrainError CompanyBrain :=
  rs.foldlM (fun b r => (·.1) <$> b.relate r.sourceId r.targetId r.kind r.evidenceIds) b

theorem relateAll_ok_iff {b b' : CompanyBrain} {rs : List BrainRelationship}
    (hnew : (b.related.rows.map BrainRelationship.key ++ rs.map BrainRelationship.key).Nodup) :
    relateAll b rs = .ok b' ↔
      (∀ r ∈ rs, (b.entities.get r.sourceId).isSome = true ∧
        (b.entities.get r.targetId).isSome = true ∧
        ∀ v ∈ r.evidenceIds, (b.evidence.get v).isSome = true) ∧
      b' = { b with related := rs.foldl Table.put b.related } := by
  induction rs generalizing b with
  | nil =>
    simp only [relateAll, List.foldlM_nil, pure, Except.pure, Except.ok.injEq, List.foldl_nil]
    constructor
    · rintro rfl
      exact ⟨by simp, rfl⟩
    · rintro ⟨-, rfl⟩
      rfl
  | cons r rs ih =>
    have hfresh : r.key ∉ b.related.rows.map BrainRelationship.key := fun hmem =>
      (List.nodup_append.mp hnew).2.2 _ hmem _ (by simp) rfl
    have hnone : b.related.get r.key = none := Table.get_eq_none_iff.mpr hfresh
    have hrest : ((b.related.put r).rows.map BrainRelationship.key ++
        rs.map BrainRelationship.key).Nodup := by
      rw [Table.rows_put_of_notMem hfresh, List.map_append, List.append_assoc]
      exact hnew
    rw [relateAll, List.foldlM_cons, bind_eq_ok_iff, List.forall_mem_cons, ← relate_new hnone]
    constructor
    · rintro ⟨mid, hmid, hall⟩
      have hpresent : (·.1) <$> b.relate r.sourceId r.targetId r.kind r.evidenceIds = .ok
          { b with related := b.related.put r } := by
        cases hrelate : b.relate r.sourceId r.targetId r.kind r.evidenceIds with
        | error x => rw [hrelate] at hmid; cases hmid
        | ok out =>
          obtain ⟨hsource, htarget, hevidence, -, -⟩ := relate_ok_iff.mp hrelate
          rw [← hrelate]
          exact (relate_new hnone).mpr ⟨hsource, htarget, hevidence⟩
      rw [hpresent, Except.ok.injEq] at hmid
      subst hmid
      obtain ⟨hothers, rfl⟩ := (ih hrest).mp hall
      exact ⟨⟨hpresent, hothers⟩, rfl⟩
    · rintro ⟨⟨hpresent, hothers⟩, rfl⟩
      exact ⟨_, hpresent, (ih hrest).mpr ⟨hothers, rfl⟩⟩

/-- Rows of one tenant are told apart by the rest of their key. -/
theorem tenant_keys_nodup {ρ κ : Type} {key : ρ → String × κ} (t : Table key) (tenant : String)
    (p : ρ → Bool) (hp : ∀ r, p r = true → (key r).1 = tenant) :
    ((t.rows.filter p).map fun r => (key r).2).Nodup := by
  have hkeys := (List.pairwise_map.mp t.unique).filter p
  refine List.pairwise_map.mpr (List.Pairwise.imp_of_mem ?_ hkeys)
  intro a b ha hb hne heq
  have htenant := (hp a (List.mem_filter.mp ha).2).trans (hp b (List.mem_filter.mp hb).2).symm
  exact hne (Prod.ext htenant heq)

theorem foldl_upsertEntity (rows : List StoredEntity) (b : CompanyBrain) :
    rows.foldl (fun b r => b.upsertEntity r.record) b =
      { b with entities := (rows.map (·.record)).foldl Table.put b.entities } := by
  induction rows generalizing b with
  | nil => rfl
  | cons r rows ih => rw [List.foldl_cons, ih]; rfl

theorem foldl_putEvidence (rows : List StoredEvidence) (b : CompanyBrain) :
    rows.foldl (fun b r => { b with evidence := b.evidence.put r.record }) b =
      { b with evidence := (rows.map (·.record)).foldl Table.put b.evidence } := by
  induction rows generalizing b with
  | nil => rfl
  | cons r rows ih => rw [List.foldl_cons, ih]; rfl

section
variable {α : Type}

/-- The record of an active row. -/
def Content (row : Option (Stored α)) : Option α := (row.filter (·.isActive)).map (·.record)

theorem content_eq_some {row : Option (Stored α)} {a : α} :
    Content row = some a ↔ ∃ r, row = some r ∧ r.isActive = true ∧ r.record = a := by
  cases row <;> simp [Content, Option.filter]

theorem content_isSome {row : Option (Stored α)} : (Content row).isSome = true ↔ Live row := by
  cases row <;> simp [Content, Option.filter, Live]

end

namespace Store

/-- The relationships `list_relationships` shows, in its order. -/
def listed (s : Store) (tenant : String) : List StoredRelationship :=
  sortedBy (·.record.key.order) (s.relationships.rows.filter fun r =>
    r.tenantId = tenant && (false || r.isActive) && s.joins false r)

variable {s : Store} {tenant : String}

theorem listRelationships_eq (htenant : required 200 tenant = true) :
    s.listRelationships tenant false = .ok (s.listed tenant) :=
  reading_eq_ok.mpr ⟨by simpa using htenant, rfl⟩

theorem mem_listed {row : StoredRelationship} :
    row ∈ s.listed tenant ↔ (s.rows tenant).Listed row.record.key row := by
  have hlive : ∀ t id, (s.entityRow t id).any (fun e => e.isActive) = true ↔
      Live (s.entityRow t id) := by
    intro t id
    cases s.entityRow t id <;> simp [Live]
  simp only [listed, mem_sortedBy, List.mem_filter, Bool.and_eq_true, decide_eq_true_eq,
    Bool.false_or, joins, hlive]
  have hrow : s.relationshipRow tenant row.record.key = some row ↔
      row ∈ s.relationships.rows ∧ row.tenantId = tenant := by
    rw [relationshipRow, Table.get_eq_some_iff]
    exact and_congr_right fun _ => ⟨fun h => (Prod.mk.inj h).1, fun h => by rw [← h]; rfl⟩
  constructor
  · rintro ⟨hmem, ⟨rfl, hactive⟩, hsource, htarget⟩
    exact ⟨hrow.mpr ⟨hmem, rfl⟩, hactive, hsource, htarget⟩
  · rintro ⟨hfound, hactive, hsource, htarget⟩
    obtain ⟨hmem, rfl⟩ := hrow.mp hfound
    exact ⟨hmem, ⟨rfl, hactive⟩, hsource, htarget⟩

theorem listed_keys_nodup : ((s.listed tenant).map (·.record.key)).Nodup := by
  have hrows := tenant_keys_nodup s.relationships tenant
    (fun r => r.tenantId = tenant && (false || r.isActive) && s.joins false r) fun r hr =>
      of_decide_eq_true (Bool.and_eq_true_iff.mp (Bool.and_eq_true_iff.mp hr).1).1
  exact ((perm_sortedBy _ _).map _).nodup_iff.mpr hrows

/-- The model `snapshot` relates the listed relationships in. -/
def stage (s : Store) (tenant : String) : CompanyBrain :=
  let entities := sortedBy (·.record.entityId)
    (s.entities.rows.filter fun r => r.tenantId = tenant && (false || r.isActive))
  let evidence := sortedBy (·.record.evidenceId)
    (s.evidence.rows.filter fun r => r.tenantId = tenant && (false || r.isActive))
  evidence.foldl (fun b r => { b with evidence := b.evidence.put r.record })
    (entities.foldl (fun b r => b.upsertEntity r.record) CompanyBrain.empty)

theorem snapshot_eq (htenant : required 200 tenant = true) :
    s.snapshot tenant = relateAll (s.stage tenant) ((s.listed tenant).map (·.record)) := by
  have hok : ∀ {α : Type} {answer : α},
      reading [(required 200 tenant, "tenant_id")] answer = .ok answer := fun {_ _} =>
    reading_eq_ok.mpr ⟨by simpa using htenant, rfl⟩
  rw [relateAll, List.foldlM_map]
  simp only [snapshot, listEntities, listEvidence, listRelationships, hok, ok_bind]
  rfl

theorem stage_related (s : Store) (tenant : String) : (s.stage tenant).related = Table.empty := by
  rw [stage, foldl_upsertEntity, foldl_putEvidence]
  rfl

theorem stage_entities (s : Store) (tenant id : String) :
    (s.stage tenant).entities.get id = Content (s.entityRow tenant id) := by
  have hnodup := tenant_keys_nodup s.entities tenant
    (fun r => r.tenantId = tenant && (false || r.isActive)) fun r hr =>
      of_decide_eq_true (Bool.and_eq_true_iff.mp hr).1
  apply Option.ext
  intro e
  rw [stage, foldl_upsertEntity, foldl_putEvidence]
  dsimp only
  rw [CompanyBrain.empty, Table.get_foldl_put, content_eq_some]
  · simp only [List.mem_map, mem_sortedBy, List.mem_filter, Bool.and_eq_true, decide_eq_true_eq,
      Bool.false_or, entityRow, Table.get_eq_some_iff]
    constructor
    · rintro ⟨⟨r, ⟨hmem, rfl, hactive⟩, rfl⟩, rfl⟩
      exact ⟨r, ⟨hmem, rfl⟩, hactive, rfl⟩
    · rintro ⟨r, ⟨hmem, hkey⟩, hactive, rfl⟩
      exact ⟨⟨r, ⟨hmem, (Prod.mk.inj hkey).1, hactive⟩, rfl⟩, (Prod.mk.inj hkey).2⟩
  · rw [List.map_map]
    exact ((perm_sortedBy _ _).map _).nodup_iff.mpr hnodup

theorem stage_evidence (s : Store) (tenant id : String) :
    (s.stage tenant).evidence.get id = Content (s.evidenceRow tenant id) := by
  have hnodup := tenant_keys_nodup s.evidence tenant
    (fun r => r.tenantId = tenant && (false || r.isActive)) fun r hr =>
      of_decide_eq_true (Bool.and_eq_true_iff.mp hr).1
  apply Option.ext
  intro e
  rw [stage, foldl_upsertEntity, foldl_putEvidence]
  dsimp only
  rw [CompanyBrain.empty, Table.get_foldl_put, content_eq_some]
  · simp only [List.mem_map, mem_sortedBy, List.mem_filter, Bool.and_eq_true, decide_eq_true_eq,
      Bool.false_or, evidenceRow, Table.get_eq_some_iff]
    constructor
    · rintro ⟨⟨r, ⟨hmem, rfl, hactive⟩, rfl⟩, rfl⟩
      exact ⟨r, ⟨hmem, rfl⟩, hactive, rfl⟩
    · rintro ⟨r, ⟨hmem, hkey⟩, hactive, rfl⟩
      exact ⟨⟨r, ⟨hmem, (Prod.mk.inj hkey).1, hactive⟩, rfl⟩, (Prod.mk.inj hkey).2⟩
  · rw [List.map_map]
    exact ((perm_sortedBy _ _).map _).nodup_iff.mpr hnodup

/-- The active facts of a tenant as a model. -/
def picture (s : Store) (tenant : String) : CompanyBrain :=
  { s.stage tenant with related := ((s.listed tenant).map (·.record)).foldl Table.put Table.empty }

@[simp] theorem picture_entities (s : Store) (tenant id : String) :
    (s.picture tenant).entities.get id = Content (s.entityRow tenant id) :=
  s.stage_entities tenant id

theorem listed_records_nodup :
    (((s.listed tenant).map (·.record)).map BrainRelationship.key).Nodup := by
  rw [List.map_map]
  exact listed_keys_nodup

theorem picture_related {k : EdgeKey} {r : BrainRelationship} :
    (s.picture tenant).related.get k = some r ↔
      ∃ row, (s.rows tenant).Listed k row ∧ row.record = r := by
  rw [picture, Table.get_foldl_put listed_records_nodup]
  simp only [List.mem_map, mem_listed]
  constructor
  · rintro ⟨⟨row, hlisted, rfl⟩, rfl⟩
    exact ⟨row, hlisted, rfl⟩
  · rintro ⟨row, hlisted, rfl⟩
    have hkey : row.record.key = k := (Prod.mk.inj (relationshipRow_key hlisted.1)).2
    exact ⟨⟨row, hkey ▸ hlisted, rfl⟩, hkey⟩

theorem picture_relationships :
    (s.picture tenant).relationships = (s.listed tenant).map (·.record) := by
  have hrows : (s.picture tenant).related.rows = (s.listed tenant).map (·.record) :=
    Table.rows_foldl_put (t := Table.empty) (by simpa [Table.empty] using listed_records_nodup)
  rw [CompanyBrain.relationships, hrows]
  exact sortedBy_of_pairwise (List.pairwise_map.mpr (pairwise_sortedBy _ _))

/-- A snapshot can be taken exactly when no listed relationship cites evidence that is gone. -/
theorem snapshot_ok_iff {brain : CompanyBrain} :
    s.snapshot tenant = .ok brain ↔ required 200 tenant = true ∧
      (∀ k row, (s.rows tenant).Listed k row → ∀ v ∈ row.record.evidenceIds,
        Live (s.evidenceRow tenant v)) ∧ brain = s.picture tenant := by
  constructor
  · intro h
    have htenant : required 200 tenant = true := by
      obtain ⟨entities, hentities, -⟩ := bind_eq_ok_iff.mp h
      simpa using (reading_eq_ok.mp hentities).1
    rw [snapshot_eq htenant, relateAll_ok_iff
      (by simpa [stage_related, Table.empty] using listed_records_nodup)] at h
    obtain ⟨hall, rfl⟩ := h
    refine ⟨htenant, fun k row hlisted v hv => ?_, by rw [stage_related]; rfl⟩
    have hkey : row.record.key = k := (Prod.mk.inj (relationshipRow_key hlisted.1)).2
    have hmem : row.record ∈ (s.listed tenant).map (·.record) :=
      List.mem_map_of_mem (mem_listed.mpr (hkey ▸ hlisted))
    have hevidence := (hall row.record hmem).2.2 v hv
    rw [stage_evidence] at hevidence
    exact content_isSome.mp hevidence
  · rintro ⟨htenant, hcited, rfl⟩
    rw [snapshot_eq htenant, relateAll_ok_iff
      (by simpa [stage_related, Table.empty] using listed_records_nodup)]
    refine ⟨fun r hr => ?_, by rw [stage_related]; rfl⟩
    obtain ⟨row, hrow, rfl⟩ := List.mem_map.mp hr
    have hlisted := mem_listed.mp hrow
    rw [stage_entities, stage_entities, content_isSome, content_isSome]
    refine ⟨hlisted.2.2.1, hlisted.2.2.2, fun v hv => ?_⟩
    rw [stage_evidence, content_isSome]
    exact hcited _ row hlisted v hv

end Store

/-! ### Runs that keep cited evidence -/

/-- Listed relationships cite active evidence, and every relationship has had its endpoints. -/
structure Cited (r : Rows) : Prop where
  cites : ∀ k row, r.Listed k row → ∀ v ∈ row.record.evidenceIds, Live (r.evidence v)
  ends : ∀ k row, r.relationship k = some row →
    (r.entity k.sourceId).isSome = true ∧ (r.entity k.targetId).isSome = true

/-- `delete_evidence` is not asked for evidence that a listed relationship cites, unless the
evidence is one of its endpoints. -/
def KeepsCited (s : Store) : StoreOp → Prop
  | .deleteEvidence tenant evidenceId _ _ => ∀ k row, (s.rows tenant).Listed k row →
      evidenceId ∈ row.record.evidenceIds → k.sourceId = evidenceId ∨ k.targetId = evidenceId
  | _ => True

section
variable {r : Rows} {k : EdgeKey}

theorem live_update {α : Type} {f : String → Option (Stored α)} {id x : String}
    {row : Option (Stored α)} (hrow : Live row) (h : Live (f x)) :
    Live (Function.update f id row x) := by
  by_cases hx : x = id
  · subst hx
    rwa [Function.update_self]
  · rwa [Function.update_of_ne hx]

theorem forall_active {α : Type} {row : Option (Stored α)} {e : Stored α} (he : row = some e)
    (hactive : e.isActive = true) : ∀ e', row = some e' → e'.isActive = true := by
  intro e' he'
  cases he.symm.trans he'
  exact hactive

/-- An entity that is new or was active does not bring relationships back into the list. -/
theorem live_before {r : Rows} {id x : String} {row : StoredEntity}
    (hmutable : ∀ e, r.entity id = some e → e.isActive = true) (hsome : (r.entity x).isSome = true)
    (h : Live ((r.setEntity id row).entity x)) : Live (r.entity x) := by
  by_cases hx : x = id
  · subst hx
    obtain ⟨e, he⟩ := Option.isSome_iff_exists.mp hsome
    exact ⟨e, he, hmutable e he⟩
  · simpa only [Rows.setEntity, Function.update_of_ne hx] using h

theorem isSome_setEntity {id x : String} {row : StoredEntity} (h : (r.entity x).isSome = true) :
    ((r.setEntity id row).entity x).isSome = true := by
  by_cases hx : x = id
  · subst hx
    simp [Rows.setEntity]
  · simpa only [Rows.setEntity, Function.update_of_ne hx] using h

end

theorem cited_step {s : Store} {op : StoreOp} {r' : Rows} (h : Cited (s.rows op.tenant))
    (hop : KeepsCited s op) (hwrote : Wrote (s.rows op.tenant) r' op) : Cited r' := by
  cases op with
  | putEntity tenant entity terms now =>
    obtain ⟨hwritable, rfl⟩ := hwrote
    refine ⟨fun k row hlisted => ?_, fun k row hrow => ?_⟩
    · obtain ⟨hrow, hactive, hsource, htarget⟩ := hlisted
      obtain ⟨hsome, hsome'⟩ := h.ends k row hrow
      have hmutable := fun e he => (hwritable.2 e he).1
      exact h.cites k row ⟨hrow, hactive, live_before hmutable hsome hsource,
        live_before hmutable hsome' htarget⟩
    · exact (h.ends k row hrow).imp isSome_setEntity isSome_setEntity
  | putEvidence tenant evidence terms now entityNow =>
    obtain ⟨-, hentity, entity, -, rfl⟩ := hwrote
    refine ⟨fun k row hlisted v hv => ?_, fun k row hrow => ?_⟩
    · obtain ⟨hrow, hactive, hsource, htarget⟩ := hlisted
      obtain ⟨hsome, hsome'⟩ := h.ends k row hrow
      have hmutable := fun e he => (hentity e he).1
      refine live_update (live_revised _ _ _ _ _) (h.cites k row ⟨hrow, hactive, ?_, ?_⟩ v hv)
      · exact live_before hmutable hsome hsource
      · exact live_before hmutable hsome' htarget
    · exact (h.ends k row hrow).imp isSome_setEntity isSome_setEntity
  | putRelationship tenant relationship terms now =>
    obtain ⟨hlinkable, -, rfl⟩ := hwrote
    refine ⟨fun k row hlisted v hv => ?_, fun k row hrow => ?_⟩
    · obtain ⟨hrow, hactive, hsource, htarget⟩ := hlisted
      by_cases hk : k = relationship.key
      · subst hk
        simp only [Rows.setRelationship, Function.update_self, Option.some.injEq] at hrow
        subst hrow
        exact hlinkable.2.2 v hv
      · simp only [Rows.setRelationship, Function.update_of_ne hk] at hrow
        exact h.cites k row ⟨hrow, hactive, hsource, htarget⟩ v hv
    · by_cases hk : k = relationship.key
      · subst hk
        obtain ⟨⟨e, he, -⟩, ⟨e', he', -⟩, -⟩ := hlinkable
        exact ⟨Option.isSome_of_mem he, Option.isSome_of_mem he'⟩
      · simp only [Rows.setRelationship, Function.update_of_ne hk] at hrow
        exact h.ends k row hrow
  | deleteEntity tenant entityId terms now =>
    obtain ⟨e, time, he, hdeletable, -, rfl⟩ := hwrote
    refine ⟨fun k row hlisted => ?_, fun k row hrow => ?_⟩
    · obtain ⟨hrow, hactive, hsource, htarget⟩ := hlisted
      obtain ⟨hsome, hsome'⟩ := h.ends k row hrow
      have hmutable := forall_active he hdeletable.2.1
      exact h.cites k row ⟨hrow, hactive, live_before hmutable hsome hsource,
        live_before hmutable hsome' htarget⟩
    · exact (h.ends k row hrow).imp isSome_setEntity isSome_setEntity
  | deleteEvidence tenant evidenceId terms now =>
    obtain ⟨old, structural, time, -, -, hstructural, -, hlive, -, rfl⟩ := hwrote
    refine ⟨fun k row hlisted v hv => ?_, fun k row hrow => ?_⟩
    · obtain ⟨hrow, hactive, hsource, htarget⟩ := hlisted
      obtain ⟨hsome, hsome'⟩ := h.ends k row hrow
      have hmutable := forall_active hstructural hlive
      have hbefore : (s.rows tenant).Listed k row := ⟨hrow, hactive,
        live_before hmutable hsome hsource, live_before hmutable hsome' htarget⟩
      have hgone : ¬ Live (((s.rows tenant).setEntity evidenceId
          (tombstone structural terms.reason time)).entity evidenceId) := by
        simp only [Rows.setEntity, Function.update_self]
        exact not_live_tombstone _ _ _
      by_cases hid : v = evidenceId
      · subst hid
        cases hop k row hbefore hv with
        | inl heq => exact absurd (heq ▸ hsource) hgone
        | inr heq => exact absurd (heq ▸ htarget) hgone
      · simpa only [Rows.setEntity, Rows.setEvidence, Function.update_of_ne hid] using
          h.cites k row hbefore v hv
    · exact (h.ends k row hrow).imp isSome_setEntity isSome_setEntity
  | deleteRelationship tenant key terms now =>
    obtain ⟨old, time, hold, -, rfl⟩ := hwrote
    refine ⟨fun k row hlisted v hv => ?_, fun k row hrow => ?_⟩
    · obtain ⟨hrow, hactive, hsource, htarget⟩ := hlisted
      by_cases hk : k = key
      · subst hk
        simp only [Rows.setRelationship, Function.update_self] at hrow
        exact absurd ⟨row, hrow, hactive⟩ (not_live_tombstone old terms.reason time)
      · simp only [Rows.setRelationship, Function.update_of_ne hk] at hrow
        exact h.cites k row ⟨hrow, hactive, hsource, htarget⟩ v hv
    · by_cases hk : k = key
      · subst hk
        exact h.ends k old hold
      · simp only [Rows.setRelationship, Function.update_of_ne hk] at hrow
        exact h.ends k row hrow

theorem cited_empty (tenant : String) : Cited (Store.empty.rows tenant) where
  cites _ _ hlisted := nomatch hlisted.1
  ends _ _ hrow := nomatch hrow

/-- In every run that does not delete cited evidence, each tenant's snapshot can be taken and its
relationships are the listed ones. -/
theorem snapshot_shows_listed {ops : List StoreOp}
    (h : Admissible Store.step KeepsCited Store.empty ops) {tenant : String}
    (htenant : required 200 tenant = true) :
    ∃ brain rows, (runState Store.step Store.empty ops).snapshot tenant = .ok brain ∧
      (runState Store.step Store.empty ops).listRelationships tenant false = .ok rows ∧
      brain.relationships = rows.map (·.record) := by
  have hcited := run_rows (fun _ _ _ => cited_step) cited_empty h tenant
  exact ⟨_, _, Store.snapshot_ok_iff.mpr ⟨htenant, hcited.cites, rfl⟩,
    Store.listRelationships_eq htenant, Store.picture_relationships⟩

namespace Sample

def owner : BrainEntity := ⟨"owner:ana", .owner, "ana", [], by decide +kernel⟩

def ownership : BrainRelationship :=
  ⟨"owner:ana", "service:payments", .owns, ["evidence:1"], by decide +kernel⟩

def linked : List StoreOp :=
  [.putEvidence "acme" pointer terms 1 2, .putEntity "acme" service terms 3,
    .putEntity "acme" owner terms 4, .putRelationship "acme" ownership terms 5]

end Sample

/-- A run that links an owner to a service takes its snapshot. -/
theorem linked_snapshot_shows_listed :
    ∃ brain rows, (runState Store.step Store.empty Sample.linked).snapshot "acme" = .ok brain ∧
      (runState Store.step Store.empty Sample.linked).listRelationships "acme" false = .ok rows ∧
      brain.relationships = rows.map (·.record) := by
  have hok : Admissible Store.step KeepsCited Store.empty Sample.linked :=
    ⟨trivial, trivial, trivial, trivial, trivial⟩
  exact snapshot_shows_listed hok (by decide)

/-- Deleting evidence that a relationship still cites makes every later snapshot raise. -/
theorem deleted_evidence_breaks_snapshot :
    (match (runState Store.step Store.empty (Sample.linked ++
        [.deleteEvidence "acme" "evidence:1" ⟨1, "superseded", none⟩ 6])).snapshot "acme" with
      | .ok _ => none
      | .error x => some x) = some (.unknownEvidence ["evidence:1"]) := by
  decide

end EngineeringIntelligence.CompanyBrain
