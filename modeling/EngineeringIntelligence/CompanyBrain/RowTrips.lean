import EngineeringIntelligence.CompanyBrain.RowCodecs

namespace EngineeringIntelligence.CompanyBrain.Rows

open EngineeringIntelligence.Framework

/-! Which records a row keeps: what each codec reads of what the other one wrote. -/

/-! ### Timestamps -/

theorem astimezone_eq_ok {value : PyDateTime} {naive : RowError} {t : UtcTime} :
    astimezone value naive = .ok t ↔ value.inUtc = some t := by
  unfold astimezone PyDateTime.inUtc
  cases hzone : value.utcoffset with
  | none => simp
  | some offset => cases UtcTime.ofInstant value.instant <;> simp

theorem timestamp_isOk {value : PyDateTime} {label : String} :
    (∃ t, timestamp value label = .ok t) ↔ value.inUtc.isSome = true := by
  rw [Option.isSome_iff_exists]
  exact exists_congr fun t => astimezone_eq_ok

theorem instant_asDateTime (t : UtcTime) : (asDateTime t).instant = t.instant := t.instant_eq

theorem inUtc_asDateTime (t : UtcTime) : (asDateTime t).inUtc = some t := by
  have haware : (asDateTime t).utcoffset.isSome = true := rfl
  rw [PyDateTime.inUtc, if_pos haware, instant_asDateTime, UtcTime.ofInstant_instant]

theorem timestampText_ok {value : PyDateTime} {t : UtcTime} (h : value.inUtc = some t) :
    timestampText value = .ok t.isoformat := by
  rw [timestampText, timestamp, astimezone_eq_ok.mpr h]
  rfl

theorem parseStored_isoformat (t : UtcTime) : parseStored t.isoformat = .ok (asDateTime t) := by
  have hparsed : fromisoformat t.isoformat = some (asDateTime t) := t.fromisoformat_isoformat
  rw [parseStored, hparsed]
  simp only
  rw [timestamp, astimezone_eq_ok.mpr (inUtc_asDateTime t)]
  rfl

theorem parseTimestamp_isoformat (t : UtcTime) (label : String) :
    parseTimestamp (.str t.isoformat) label = .ok (asDateTime t) := by
  have hparsed : fromisoformat t.isoformat = some (asDateTime t) := t.fromisoformat_isoformat
  rw [parseTimestamp, hparsed]
  simp only
  rw [astimezone_eq_ok.mpr (inUtc_asDateTime t)]
  rfl

/-- A column that may be empty keeps the point in time. -/
theorem parseColumn_timestampText {value : Option PyDateTime} (h : ∀ v ∈ value, v.inUtc.isSome = true) :
    ∃ column back, optionally timestampText value = .ok column ∧ parseColumn column = .ok back ∧
      back.map PyDateTime.instant = value.map PyDateTime.instant ∧ ∀ v ∈ back, v.inUtc.isSome = true := by
  cases value with
  | none => exact ⟨none, none, rfl, rfl, rfl, by simp⟩
  | some v =>
    obtain ⟨t, ht⟩ := Option.isSome_iff_exists.mp (h v rfl)
    have hwritten : optionally timestampText (some v) = .ok (some t.isoformat) := by
      rw [optionally, timestampText_ok ht]
      rfl
    have hread : parseColumn (some t.isoformat) = .ok (some (asDateTime t)) := by
      rw [parseColumn, Option.filter_some_pos (by simpa using t.isoformat_ne_empty), optionally,
        parseStored_isoformat]
      rfl
    have hinstant := (PyDateTime.instant_of_inUtc ht).2
    refine ⟨_, _, hwritten, hread, ?_, ?_⟩
    · rw [Option.map_some, Option.map_some, instant_asDateTime, hinstant]
    · rintro _ ⟨⟩
      rw [inUtc_asDateTime, Option.isSome_some]

/-! ### What the constructors ask for -/

theorem refuse_eq_ok {error : String → BrainError} {problem : Option String} :
    refuse error problem = .ok () ↔ problem = none := by
  cases problem <;> simp [refuse]

/-- A check that only asks whether a step succeeds. -/
theorem step_eq_ok {β : Type} {x : Except RowError β} {rest : Except RowError Unit} :
    (x >>= fun _ => rest) = .ok () ↔ (∃ b, x = .ok b) ∧ rest = .ok () := by
  rw [bind_eq_ok_iff]
  constructor
  · rintro ⟨b, hb, hrest⟩
    exact ⟨⟨b, hb⟩, hrest⟩
  · rintro ⟨⟨b, hb⟩, hrest⟩
    exact ⟨b, hb, hrest⟩

theorem exists_refuse_eq_ok {error : String → BrainError} {problem : Option String} :
    (∃ b, refuse error problem = .ok b) ↔ problem = none :=
  ⟨fun ⟨(), h⟩ => refuse_eq_ok.mp h, fun h => ⟨(), refuse_eq_ok.mpr h⟩⟩

theorem provenanceCheck_eq_ok {sourceSystem sourceRecordId sourceRevision projectionPolicyVersion : String}
    {observedAt : PyDateTime} {eventId : Option String} :
    provenanceCheck sourceSystem sourceRecordId sourceRevision projectionPolicyVersion observedAt eventId =
        .ok () ↔
      provenanceProblem sourceSystem sourceRecordId sourceRevision projectionPolicyVersion eventId = none ∧
        observedAt.inUtc.isSome = true := by
  unfold provenanceCheck provenanceProblem
  simp only [step_eq_ok, exists_refuse_eq_ok, refuse_eq_ok, timestamp_isOk, Option.or_eq_none_iff]
  tauto

theorem retentionCheck_eq_ok {retainUntil : Option PyDateTime} :
    retentionCheck retainUntil = .ok () ↔ ∀ v ∈ retainUntil, v.inUtc.isSome = true := by
  unfold retentionCheck
  rw [step_eq_ok]
  cases retainUntil with
  | none => simp [optionally, pure, Except.pure]
  | some v =>
    have hstep : (∃ b, optionally (timestamp · "retain_until") (some v) = .ok b) ↔ v.inUtc.isSome = true := by
      rw [← @timestamp_isOk v "retain_until", optionally]
      cases timestamp v "retain_until" <;> simp [bind, Except.bind, pure, Except.pure]
    simp [hstep, pure, Except.pure]

/-- A tombstone has its reason, and only a tombstone has one. -/
def Explained (deleted : Bool) (reason : Option String) : Prop :=
  if deleted then required 500 (reason.getD "") = true else reason = none

theorem storedCheck_eq_ok {tenantId : String} {version : Int} {createdAt updatedAt : PyDateTime}
    {deletedAt : Option PyDateTime} {deletionReason : Option String} :
    storedCheck tenantId version createdAt updatedAt deletedAt deletionReason = .ok () ↔
      (required 200 tenantId = true ∧ 1 ≤ version) ∧
        (createdAt.inUtc.isSome = true ∧ updatedAt.inUtc.isSome = true) ∧
          (∀ v ∈ deletedAt, v.inUtc.isSome = true) ∧ Explained deletedAt.isSome deletionReason := by
  unfold storedCheck Explained
  cases deletedAt with
  | none =>
    simp only [step_eq_ok, exists_refuse_eq_ok, refuse_eq_ok, timestamp_isOk, invalid_eq_none]
    simp [and_assoc]
  | some v =>
    simp only [step_eq_ok, exists_refuse_eq_ok, refuse_eq_ok, timestamp_isOk, invalid_eq_none]
    simp [and_assoc]

theorem projectionCheck_eq_ok {tenantId sourceKey sourceKind fingerprint : String}
    {entityIds ownedEntityIds evidenceIds : List String} {relationships : List BrainRelationship}
    {updatedAt : PyDateTime} :
    projectionCheck tenantId sourceKey sourceKind fingerprint entityIds ownedEntityIds evidenceIds relationships
        updatedAt = .ok () ↔
      projectionProblem tenantId sourceKey sourceKind fingerprint entityIds ownedEntityIds evidenceIds
        relationships = none ∧ updatedAt.utcoffset.isSome = true := by
  unfold projectionCheck projectionProblem
  simp only [step_eq_ok, exists_refuse_eq_ok, refuse_eq_ok, Option.or_eq_none_iff, ite_some_eq_none_iff,
    and_true]
  have hzone : ¬ updatedAt.utcoffset.isNone = true ↔ updatedAt.utcoffset.isSome = true := by
    cases updatedAt.utcoffset <;> simp
  rw [hzone]
  tauto

/-! ### Records without their zones -/

/-- A record with its timestamps as points in time. -/
def DatedProvenance.instants (p : DatedProvenance) : BrainProvenance :=
  ⟨p.sourceSystem, p.sourceRecordId, p.sourceRevision, p.projectionPolicyVersion, p.observedAt.instant, p.eventId,
    (provenanceCheck_eq_ok.mp p.valid).1⟩

def DatedRetention.instants (r : DatedRetention) : RetentionPolicy :=
  ⟨r.retainUntil.map PyDateTime.instant, r.legalHold⟩

def DatedRecord.instants {α : Type} (r : DatedRecord α) : Stored α :=
  ⟨r.tenantId, r.record, r.version, r.provenance.instants, r.retention.instants, r.createdAt.instant,
    r.updatedAt.instant, r.deletedAt.map PyDateTime.instant, r.deletionReason⟩

def DatedProjection.instants (p : DatedProjection) : BrainSourceProjection :=
  ⟨p.tenantId, p.sourceKey, p.sourceKind, p.state, p.fingerprint, p.provenance.instants, p.entityIds,
    p.ownedEntityIds, p.evidenceIds, p.relationships, p.updatedAt.instant, (projectionCheck_eq_ok.mp p.valid).1⟩

/-- What is written of a record is read back as an equal one. -/
def ReadsBack {ρ σ τ : Type} (write : ρ → Except RowError σ) (read : σ → Except RowError ρ) (instants : ρ → τ)
    (r : ρ) : Prop :=
  ∃ row back, write r = .ok row ∧ read row = .ok back ∧ instants back = instants r

theorem DatedProvenance.make_ok {sourceSystem sourceRecordId sourceRevision projectionPolicyVersion : String}
    {observedAt : PyDateTime} {eventId : Option String}
    (h : provenanceCheck sourceSystem sourceRecordId sourceRevision projectionPolicyVersion observedAt eventId =
      .ok ()) :
    DatedProvenance.make sourceSystem sourceRecordId sourceRevision projectionPolicyVersion observedAt eventId =
      .ok ⟨sourceSystem, sourceRecordId, sourceRevision, projectionPolicyVersion, observedAt, eventId, h⟩ := by
  unfold make
  split
  · next hcheck =>
    rw [h] at hcheck
    cases hcheck
  · rfl

theorem DatedRetention.make_ok {retainUntil : Option PyDateTime} (h : retentionCheck retainUntil = .ok ())
    (legalHold : Bool) : DatedRetention.make retainUntil legalHold = .ok ⟨retainUntil, legalHold, h⟩ := by
  unfold make
  split
  · next hcheck =>
    rw [h] at hcheck
    cases hcheck
  · rfl

theorem DatedRecord.make_ok {α : Type} {tenantId : String} (record : α) {version : Int}
    (provenance : DatedProvenance) (retention : DatedRetention) {createdAt updatedAt : PyDateTime}
    {deletedAt : Option PyDateTime} {deletionReason : Option String}
    (h : storedCheck tenantId version createdAt updatedAt deletedAt deletionReason = .ok ()) :
    DatedRecord.make tenantId record version provenance retention createdAt updatedAt deletedAt deletionReason =
      .ok ⟨tenantId, record, version, provenance, retention, createdAt, updatedAt, deletedAt, deletionReason, h⟩ := by
  unfold make
  split
  · next hcheck =>
    rw [h] at hcheck
    cases hcheck
  · rfl

theorem DatedProjection.make_ok {tenantId sourceKey sourceKind fingerprint : String} (state : ProjectionState)
    (provenance : DatedProvenance) {entityIds ownedEntityIds evidenceIds : List String}
    {relationships : List BrainRelationship} {updatedAt : PyDateTime}
    (h : projectionCheck tenantId sourceKey sourceKind fingerprint entityIds ownedEntityIds evidenceIds
      relationships updatedAt = .ok ()) :
    DatedProjection.make tenantId sourceKey sourceKind state fingerprint provenance entityIds ownedEntityIds
        evidenceIds relationships updatedAt =
      .ok ⟨tenantId, sourceKey, sourceKind, state, fingerprint, provenance, entityIds, ownedEntityIds, evidenceIds,
        relationships, updatedAt, h⟩ := by
  unfold make
  split
  · next hcheck =>
    rw [h] at hcheck
    cases hcheck
  · rfl

/-! ### Payloads that come back -/

/-- A payload as the decoder finds it, of the one that was encoded. -/
def Comes (payload fields : Payload) : Prop := ∀ key, payload.lookup key = (fields.lookup key).map Json.sortKeys

theorem comes_sorted {fields : Payload} (h : (fields.map Prod.fst).Nodup) :
    ∃ payload, Json.sortKeys (.obj fields) = .obj payload ∧ Comes payload fields :=
  ⟨_, rfl, Json.lookup_sorted h⟩

section
variable {payload fields : Payload} {field : String} (h : Comes payload fields)
include h

theorem Comes.get {value : Json} (hvalue : fields.lookup field = some value) :
    Json.get payload field = Json.sortKeys value := by
  rw [Json.get, h, hvalue]
  rfl

theorem Comes.getText {text : String} (htext : fields.lookup field = some (.str text)) :
    Json.get payload field = .str text := h.get htext

theorem requiredText_ok {text : String} (htext : fields.lookup field = some (.str text)) (hne : text ≠ "")
    (label : String) : requiredText payload field label = .ok text := by
  rw [requiredText, h.getText htext]
  exact if_neg hne

theorem optionalText_ok {text : Option String} (htext : fields.lookup field = some (.optStr text)) (label : String) :
    optionalText payload field label = .ok text := by
  rw [optionalText, h.get htext]
  cases text <;> rfl

theorem textSequence_ok {texts : List String} (htexts : fields.lookup field = some (.arr (texts.map .str)))
    (label : String) : textSequence payload field label = .ok texts := by
  rw [textSequence, h.get htexts, Json.sortKeys_texts]
  apply mapM_eq_ok.mpr
  rw [List.forall₂_map_left_iff]
  exact List.forall₂_same.mpr fun _ _ => rfl

theorem requiredTextSequence_ok {texts : List String}
    (htexts : fields.lookup field = some (.arr (texts.map .str))) (label : String) :
    requiredTextSequence payload field label = .ok texts := by
  have hpresent : (payload.lookup field).isNone = false := by
    rw [h, htexts]
    rfl
  rw [requiredTextSequence, hpresent, if_neg (by decide), textSequence_ok h htexts]

theorem textPairs_ok {pairs : List (String × String)}
    (hpairs : fields.lookup field = some (.arr (pairs.map fun a => .arr [.str a.1, .str a.2]))) (label : String) :
    textPairs payload field label = .ok pairs := by
  have hitems : (payload.lookup field).getD (.arr []) = .arr (pairs.map fun a => .arr [.str a.1, .str a.2]) := by
    rw [h, hpairs, Option.map_some, Option.getD_some, Json.sortKeys, Json.sortKeysItems_eq_map, List.map_map]
    rfl
  rw [textPairs, hitems]
  apply mapM_eq_ok.mpr
  rw [List.forall₂_map_left_iff]
  exact List.forall₂_same.mpr fun _ _ => rfl

end

theorem entityKind_value (k : EntityKind) : memberOf entityKinds EntityKind.value k.value = .ok k := by
  cases k <;> rfl

theorem relationshipKind_value (k : RelationshipKind) :
    memberOf relationshipKinds RelationshipKind.value k.value = .ok k := by
  cases k <;> rfl

theorem entityKind_ne_empty (k : EntityKind) : k.value ≠ "" := by
  cases k <;> decide

theorem relationshipKind_ne_empty (k : RelationshipKind) : k.value ≠ "" := by
  cases k <;> decide

theorem ne_empty_of_required {maximum : Nat} {value : String} (h : required maximum value = true) : value ≠ "" := by
  simp only [required, ne_eq, Bool.and_eq_true, decide_eq_true_eq] at h
  exact h.1.1

theorem entityFromPayload_ok {e : BrainEntity} {payload : Payload} (h : Comes payload (entityPayload e)) :
    entityFromPayload payload = .ok e := by
  have hvalid := e.valid
  simp only [entityProblem, Option.or_eq_none_iff, invalid_eq_none] at hvalid
  obtain ⟨hid, hlabel, -⟩ := hvalid
  have hmake : constructed (BrainEntity.make e.entityId e.kind e.label e.attributes) = .ok e := by
    unfold BrainEntity.make
    split
    · next hproblem =>
      rw [e.valid] at hproblem
      cases hproblem
    · rfl
  rw [entityFromPayload, requiredText_ok h rfl (ne_empty_of_required hid),
    requiredText_ok h rfl (entityKind_ne_empty e.kind), requiredText_ok h rfl (ne_empty_of_required hlabel),
    textPairs_ok h rfl]
  simp only [ok_bind, entityKind_value, hmake]

theorem evidenceFromPayload_ok {v : BrainEvidence} {payload : Payload} (h : Comes payload (evidencePayload v)) :
    evidenceFromPayload payload = .ok v := by
  have hvalid := v.valid
  simp only [evidenceProblem, Option.or_eq_none_iff, invalid_eq_none] at hvalid
  obtain ⟨hid, hkind, hcitation, hrevision, -⟩ := hvalid
  have hmake : constructed (BrainEvidence.make v.evidenceId v.sourceKind v.citation v.revision v.aclGroups
      v.aclUsers) = .ok v := by
    unfold BrainEvidence.make
    split
    · next hproblem =>
      rw [v.valid] at hproblem
      cases hproblem
    · rfl
  rw [evidenceFromPayload, requiredText_ok h rfl (ne_empty_of_required hid),
    requiredText_ok h rfl (ne_empty_of_required hkind), requiredText_ok h rfl (ne_empty_of_required hcitation),
    requiredText_ok h rfl (ne_empty_of_required hrevision), textSequence_ok h rfl, textSequence_ok h rfl]
  simp only [ok_bind, hmake]

theorem relationshipFromPayload_ok {r : BrainRelationship} {payload : Payload}
    (h : Comes payload (relationshipPayload r)) : relationshipFromPayload payload = .ok r := by
  obtain ⟨hsource, htarget, -⟩ := relationshipProblem_eq_none.mp r.valid
  rw [relationshipFromPayload, requiredText_ok h rfl (ne_empty_of_required hsource),
    requiredText_ok h rfl (ne_empty_of_required htarget), requiredText_ok h rfl (relationshipKind_ne_empty r.kind),
    textSequence_ok h rfl]
  simp only [ok_bind, relationshipKind_value, BrainRelationship.make_ok r.valid]
  rfl

theorem relationshipPayload_nodup (r : BrainRelationship) : ((relationshipPayload r).map Prod.fst).Nodup := by
  simp [relationshipPayload]

theorem relationshipItem_ok (r : BrainRelationship) :
    relationshipItem (Json.sortKeys (.obj (relationshipPayload r))) = .ok r := by
  obtain ⟨payload, hpayload, hcomes⟩ := comes_sorted (relationshipPayload_nodup r)
  rw [hpayload]
  exact relationshipFromPayload_ok hcomes

/-! ### Columns that come back -/

section
variable (floatRepr : String → String)

theorem payloadFromJson_ok {fields : Payload} (h : Json.Readable floatRepr (.obj fields)) (label : String) :
    ∃ payload, payloadFromJson floatRepr (Json.dumpsSpaced (.obj fields)) label = .ok payload ∧
      Comes payload fields := by
  obtain ⟨payload, hpayload, hcomes⟩ := comes_sorted h.1
  refine ⟨payload, ?_, hcomes⟩
  rw [payloadFromJson, Json.loads_dumpsSpaced floatRepr h, hpayload]

theorem readable_entity (e : BrainEntity) : Json.Readable floatRepr (.obj (entityPayload e)) := by
  have hattributes : Json.Readable floatRepr (.arr (e.attributes.map fun a => .arr [.str a.1, .str a.2])) := by
    apply (Json.readableItems_iff floatRepr).mpr
    intro j hj
    obtain ⟨a, -, rfl⟩ := List.mem_map.mp hj
    exact ⟨trivial, trivial, trivial⟩
  have hkeys : ((entityPayload e).map Prod.fst).Nodup := by simp [entityPayload]
  exact ⟨hkeys, trivial, trivial, trivial, hattributes, trivial⟩

theorem readable_evidence (v : BrainEvidence) : Json.Readable floatRepr (.obj (evidencePayload v)) := by
  have hkeys : ((evidencePayload v).map Prod.fst).Nodup := by simp [evidencePayload]
  exact ⟨hkeys, trivial, trivial, trivial, trivial, Json.readable_texts floatRepr _,
    Json.readable_texts floatRepr _, trivial⟩

theorem readable_relationship (r : BrainRelationship) :
    Json.Readable floatRepr (.obj (relationshipPayload r)) :=
  ⟨relationshipPayload_nodup r, trivial, trivial, trivial, Json.readable_texts floatRepr _, trivial⟩

theorem readable_projection (p : DatedProjection) : Json.Readable floatRepr (.obj (projectionPayload p)) := by
  have hrelationships :
      Json.Readable floatRepr (.arr (p.relationships.map fun r => .obj (relationshipPayload r))) := by
    apply (Json.readableItems_iff floatRepr).mpr
    intro j hj
    obtain ⟨r, -, rfl⟩ := List.mem_map.mp hj
    exact readable_relationship floatRepr r
  have hkeys : ((projectionPayload p).map Prod.fst).Nodup := by simp [projectionPayload]
  exact ⟨hkeys, Json.readable_texts floatRepr _, Json.readable_texts floatRepr _, Json.readable_texts floatRepr _,
    hrelationships, trivial⟩

theorem provenance_readsBack (p : DatedProvenance) (label : String) :
    ReadsBack provenanceText (provenanceFromText floatRepr · label) DatedProvenance.instants p := by
  obtain ⟨hproblem, hdated⟩ := provenanceCheck_eq_ok.mp p.valid
  obtain ⟨t, ht⟩ := Option.isSome_iff_exists.mp hdated
  have hchecks := hproblem
  simp only [provenanceProblem, Option.or_eq_none_iff, invalid_eq_none] at hchecks
  obtain ⟨hsystem, hrecord, hrevision, hpolicy, -⟩ := hchecks
  let fields : Payload := [("source_system", .str p.sourceSystem), ("source_record_id", .str p.sourceRecordId),
    ("source_revision", .str p.sourceRevision), ("projection_policy_version", .str p.projectionPolicyVersion),
    ("observed_at", .str t.isoformat), ("event_id", .optStr p.eventId)]
  have hwritten : provenanceText p = .ok (Json.dumpsSpaced (.obj fields)) := by
    rw [provenanceText, provenancePayload, astimezone_eq_ok.mpr ht]
    rfl
  have hkeys : (fields.map Prod.fst).Nodup := by simp [fields]
  have hreadable : Json.Readable floatRepr (.obj fields) :=
    ⟨hkeys, trivial, trivial, trivial, trivial, trivial, Json.readable_optStr floatRepr _, trivial⟩
  obtain ⟨payload, hpayload, hcomes⟩ := payloadFromJson_ok floatRepr hreadable label
  have hpolicyText : optionalText payload "projection_policy_version" "provenance" =
      .ok (some p.projectionPolicyVersion) := optionalText_ok hcomes rfl _
  have hversion : policyVersionOr (some p.projectionPolicyVersion) = p.projectionPolicyVersion :=
    if_neg (ne_empty_of_required hpolicy)
  have hobserved : Json.get payload "observed_at" = .str t.isoformat := hcomes.getText rfl
  have hvalid : provenanceCheck p.sourceSystem p.sourceRecordId p.sourceRevision p.projectionPolicyVersion
      (asDateTime t) p.eventId = .ok () := by
    refine provenanceCheck_eq_ok.mpr ⟨hproblem, ?_⟩
    rw [inUtc_asDateTime, Option.isSome_some]
  have hread : provenanceFromText floatRepr (Json.dumpsSpaced (.obj fields)) label =
      .ok ⟨_, _, _, _, asDateTime t, _, hvalid⟩ := by
    rw [provenanceFromText, hpayload, ok_bind, provenanceFromPayload,
      requiredText_ok hcomes rfl (ne_empty_of_required hsystem),
      requiredText_ok hcomes rfl (ne_empty_of_required hrecord),
      requiredText_ok hcomes rfl (ne_empty_of_required hrevision), hpolicyText, hobserved,
      parseTimestamp_isoformat, optionalText_ok hcomes rfl]
    simp only [ok_bind, hversion]
    exact DatedProvenance.make_ok hvalid
  refine ⟨_, _, hwritten, hread, ?_⟩
  have hinstant := (PyDateTime.instant_of_inUtc ht).2
  simp only [DatedProvenance.instants, instant_asDateTime, hinstant]

/-- `retain_until` and `legal_hold`. -/
def retentionColumns (r : DatedRetention) : Except RowError (Option String × Int) := do
  let retainUntil ← optionally timestampText r.retainUntil
  return (retainUntil, holdColumn r.legalHold)

theorem retention_columns (r : DatedRetention) :
    ∃ column back, optionally timestampText r.retainUntil = .ok column ∧
      retentionFromRow column (holdColumn r.legalHold) = .ok back ∧ back.instants = r.instants := by
  obtain ⟨column, back, hwritten, hread, hinstants, hvalid⟩ :=
    parseColumn_timestampText (retentionCheck_eq_ok.mp r.valid)
  have hhold : decide (holdColumn r.legalHold ≠ 0) = r.legalHold := by
    cases r.legalHold <;> rfl
  refine ⟨column, ⟨back, r.legalHold, retentionCheck_eq_ok.mpr hvalid⟩, hwritten, ?_, ?_⟩
  · rw [retentionFromRow, hread, ok_bind, hhold]
    exact DatedRetention.make_ok _ _
  · rw [DatedRetention.instants, DatedRetention.instants, hinstants]

theorem retention_readsBack (r : DatedRetention) :
    ReadsBack retentionColumns (fun columns => retentionFromRow columns.1 columns.2) DatedRetention.instants r := by
  obtain ⟨column, back, hwritten, hread, hinstants⟩ := retention_columns r
  refine ⟨(column, holdColumn r.legalHold), back, ?_, hread, hinstants⟩
  rw [retentionColumns, hwritten]
  rfl

theorem timestamp_readsBack {value : PyDateTime} (h : value.inUtc.isSome = true) :
    ∃ text back, timestampText value = .ok text ∧ parseStored text = .ok back ∧ back.instant = value.instant ∧
      back.inUtc.isSome = true := by
  obtain ⟨t, ht⟩ := Option.isSome_iff_exists.mp h
  refine ⟨_, _, timestampText_ok ht, parseStored_isoformat t, ?_, ?_⟩
  · rw [instant_asDateTime, (PyDateTime.instant_of_inUtc ht).2]
  · rw [inUtc_asDateTime, Option.isSome_some]

theorem bindInteger_ok {n : Int} (hpositive : 1 ≤ n) (h : n < 2 ^ 63) : bindInteger n = .ok n := by
  have hlower : -2 ^ 63 ≤ n := by omega
  exact if_pos ⟨hlower, h⟩

theorem lt_of_bindInteger {n m : Int} (h : bindInteger n = .ok m) : n < 2 ^ 63 := by
  unfold bindInteger at h
  split at h
  · next hbounds => exact hbounds.2
  · cases h

section
variable {α κ : Type} {key : α → κ} {payload : α → Payload} {fromPayload : Payload → Except RowError α}

/-- A row keeps its record whenever SQLite takes its version. -/
theorem record_readsBack_iff (hreadable : ∀ a, Json.Readable floatRepr (.obj (payload a)))
    (hpayload : ∀ a fields, Comes fields (payload a) → fromPayload fields = .ok a) (label : String)
    (r : DatedRecord α) :
    ReadsBack (recordValues key payload) (recordFromRow floatRepr fromPayload label) DatedRecord.instants r ↔
      r.version < 2 ^ 63 := by
  obtain ⟨⟨htenant, hpositive⟩, ⟨hcreated, hupdated⟩, hdeleted, hexplained⟩ := storedCheck_eq_ok.mp r.valid
  obtain ⟨provenanceColumn, provenance, hp, hp', hpi⟩ :=
    provenance_readsBack floatRepr r.provenance (label ++ " provenance")
  obtain ⟨untilColumn, retention, hr, hr', hri⟩ := retention_columns r.retention
  obtain ⟨createdText, createdAt, hc, hc', hci, hcv⟩ := timestamp_readsBack hcreated
  obtain ⟨updatedText, updatedAt, hw, hw', hwi, hwv⟩ := timestamp_readsBack hupdated
  obtain ⟨deletedColumn, deletedAt, hd, hd', hdi, hdv⟩ := parseColumn_timestampText hdeleted
  obtain ⟨fields, hfields, hcomes⟩ := payloadFromJson_ok floatRepr (hreadable r.record) label
  have hsame : deletedAt.isSome = r.deletedAt.isSome := by
    rw [← Option.isSome_map (f := PyDateTime.instant), hdi, Option.isSome_map]
  have hvalid : storedCheck r.tenantId r.version createdAt updatedAt deletedAt r.deletionReason = .ok () :=
    storedCheck_eq_ok.mpr ⟨⟨htenant, hpositive⟩, ⟨hcv, hwv⟩, hdv, hsame ▸ hexplained⟩
  constructor
  · rintro ⟨row, -, hwritten, -⟩
    simp only [recordValues, hp, hr, hc, hw, hd, ok_bind] at hwritten
    obtain ⟨_, hversion, _⟩ := bind_eq_ok_iff.mp hwritten
    exact lt_of_bindInteger hversion
  · intro hversion
    refine ⟨⟨r.tenantId, key r.record, Json.dumpsSpaced (.obj (payload r.record)), r.version, provenanceColumn,
      untilColumn, holdColumn r.retention.legalHold, createdText, updatedText, deletedColumn, r.deletionReason⟩,
      ⟨r.tenantId, r.record, r.version, provenance, retention, createdAt, updatedAt, deletedAt, r.deletionReason,
        hvalid⟩, ?_, ?_, ?_⟩
    · rw [recordValues, hp, hr, hc, hw, hd, bindInteger_ok hpositive hversion]
      rfl
    · simp only [recordFromRow, hfields, hpayload r.record fields hcomes, hp', hr', hc', hw', hd', ok_bind]
      exact DatedRecord.make_ok _ _ _ _
    · simp only [DatedRecord.instants, hpi, hri, hci, hwi, hdi]

end

theorem state_value (state : ProjectionState) :
    memberOf [ProjectionState.active, .deleted] stateValue (stateValue state) = .ok state := by
  cases state <;> rfl

theorem relationships_readBack {p : DatedProjection} {raw : Payload} (h : Comes raw (projectionPayload p))
    (label : String) :
    ∃ items, requiredObjectSequence raw "relationships" label = .ok items ∧
      items.mapM relationshipItem = .ok p.relationships := by
  have hlookup : (projectionPayload p).lookup "relationships" =
      some (.arr (p.relationships.map fun r => .obj (relationshipPayload r))) := rfl
  have hget : Json.get raw "relationships" =
      .arr (p.relationships.map fun r => Json.sortKeys (.obj (relationshipPayload r))) := by
    rw [h.get hlookup, Json.sortKeys, Json.sortKeysItems_eq_map, List.map_map]
    rfl
  refine ⟨p.relationships.map fun r => Json.sortKeys (.obj (relationshipPayload r)), ?_, ?_⟩
  · rw [requiredObjectSequence, hget]
  · apply mapM_eq_ok.mpr
    rw [List.forall₂_map_left_iff]
    exact List.forall₂_same.mpr fun r _ => relationshipItem_ok r

/-- The journal keeps a projection whenever its time exists in UTC. -/
theorem projection_readsBack_iff (p : DatedProjection) :
    ReadsBack projectionValues (projectionFromRow floatRepr) DatedProjection.instants p ↔
      86400000000 ≤ p.updatedAt.instant ∧ p.updatedAt.instant ≤ UtcTime.maxInstant := by
  obtain ⟨hproblem, haware⟩ := projectionCheck_eq_ok.mp p.valid
  obtain ⟨provenanceColumn, provenance, hp, hp', hpi⟩ :=
    provenance_readsBack floatRepr p.provenance "source projection provenance"
  obtain ⟨raw, hraw, hcomes⟩ := payloadFromJson_ok floatRepr (readable_projection floatRepr p) "source projection"
  obtain ⟨items, hitems, hrelationships⟩ := relationships_readBack hcomes "source projection"
  have hconverted : p.updatedAt.inUtc = UtcTime.ofInstant p.updatedAt.instant := if_pos haware
  rw [← UtcTime.ofInstant_isSome_iff, ← hconverted, Option.isSome_iff_exists]
  constructor
  · rintro ⟨row, -, hwritten, -⟩
    rw [projectionValues, hp, ok_bind] at hwritten
    obtain ⟨t, ht, _⟩ := bind_eq_ok_iff.mp hwritten
    exact ⟨t, astimezone_eq_ok.mp ht⟩
  · rintro ⟨t, ht⟩
    have hvalid : projectionCheck p.tenantId p.sourceKey p.sourceKind p.fingerprint p.entityIds p.ownedEntityIds
        p.evidenceIds p.relationships (asDateTime t) = .ok () := projectionCheck_eq_ok.mpr ⟨hproblem, rfl⟩
    refine ⟨⟨p.tenantId, p.sourceKey, p.sourceKind, stateValue p.state, p.fingerprint, provenanceColumn,
      Json.dumpsSpaced (.obj (projectionPayload p)), t.isoformat⟩,
      ⟨p.tenantId, p.sourceKey, p.sourceKind, p.state, p.fingerprint, provenance, p.entityIds, p.ownedEntityIds,
        p.evidenceIds, p.relationships, asDateTime t, hvalid⟩, ?_, ?_, ?_⟩
    · rw [projectionValues, hp, ok_bind, astimezone_eq_ok.mpr ht]
      rfl
    · have hentities : requiredTextSequence raw "entity_ids" "source projection" = .ok p.entityIds :=
        requiredTextSequence_ok hcomes rfl _
      have howned : requiredTextSequence raw "owned_entity_ids" "source projection" = .ok p.ownedEntityIds :=
        requiredTextSequence_ok hcomes rfl _
      have hevidence : requiredTextSequence raw "evidence_ids" "source projection" = .ok p.evidenceIds :=
        requiredTextSequence_ok hcomes rfl _
      simp only [projectionFromRow, hraw, state_value, hp', hentities, howned, hevidence, hitems, hrelationships,
        parseTimestamp_isoformat, ok_bind]
      exact DatedProjection.make_ok _ _ _
    · have hinstant := (PyDateTime.instant_of_inUtc ht).2
      simp only [DatedProjection.instants, hpi, instant_asDateTime, hinstant]

end

/-- `BrainSourceProjection("acme", "repo", "file", ACTIVE, "f", provenance)` of midnight of the first day of
year 1, an hour east of UTC. -/
def earlyProjection : DatedProjection where
  tenantId := "acme"
  sourceKey := "repo"
  sourceKind := "file"
  state := .active
  fingerprint := "f"
  provenance := ⟨"git", "repo", "1", "v1", ⟨719163, 0, some 0⟩, none, by decide⟩
  entityIds := []
  ownedEntityIds := []
  evidenceIds := []
  relationships := []
  updatedAt := ⟨1, 0, some 3600000000⟩
  valid := by decide

end EngineeringIntelligence.CompanyBrain.Rows
