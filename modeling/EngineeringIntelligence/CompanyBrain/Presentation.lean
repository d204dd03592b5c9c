import EngineeringIntelligence.CompanyBrain.Disclosure

namespace EngineeringIntelligence.CompanyBrain

open EngineeringIntelligence.Framework

/-! When a qualified context can be handed over as a decision context. -/

/-- Evidence the product contract can refer to. -/
def EvidenceQualification.Citable (e : EvidenceQualification) : Prop :=
  isIdentifier e.evidenceId = true ∧ required 80 e.sourceKind = true

/-- A relationship that is to become a claim. -/
structure Claimable (context : QualifiedWorldModelContext) (item : RelationshipQualification) : Prop where
  usable : item.usable = true
  conflicts : item.conflicts = []
  kind : item.relationship.kind ≠ .hasEvidence
  source : item.relationship.sourceId ∈ context.entities.map (·.entity.entityId)
  target : item.relationship.targetId ∈ context.entities.map (·.entity.entityId)

/-- A context whose identifiers fit the product contract. -/
structure Presentable (context : QualifiedWorldModelContext) : Prop where
  evidence : ∀ e ∈ context.evidence, e.Citable
  endpoints : ∀ item ∈ context.relationships, Claimable context item →
    isIdentifier item.relationship.sourceId = true ∧ isIdentifier item.relationship.targetId = true
  distinct : (context.conflicts.map (·.conflictId)).Nodup
  short : ∀ conflict ∈ context.conflicts, conflict.conflictId.toList.length ≤ 240

/-- What a usable relationship rests on. -/
structure Founded (item : RelationshipQualification) : Prop where
  fresh : item.freshness = .fresh
  positive : 0 < item.confidence
  atMostOne : item.confidence ≤ 1
  evidence : ∃ e ∈ item.evidence, e.freshness = .fresh

/-- What holds of every context a query returns. -/
structure Sound (context : QualifiedWorldModelContext) : Prop where
  texts : ∀ e ∈ context.evidence, required 500 e.citation = true ∧ required 200 e.revision = true
  ids : (context.evidence.map (·.evidenceId)).Nodup
  cited : ∀ item ∈ context.relationships, ∀ e ∈ item.evidence, e ∈ context.evidence
  citedOnce : ∀ item ∈ context.relationships, (item.evidence.map (·.evidenceId)).Nodup
  founded : ∀ item ∈ context.relationships, item.usable = true → Founded item
  keys : (context.relationships.map RelationshipQualification.key).Nodup
  confidence : 0 ≤ context.confidence ∧ context.confidence ≤ 1
  lines : ∀ conflict ∈ context.conflicts, conflict.conflictId ≠ "" ∧ '\n' ∉ conflict.conflictId.toList

/-! ### The records of the contract -/

section
variable {evidenceId sourceKind locator revision : String} {authorized : Bool}

theorem EvidenceReference.make_isOk :
    (EvidenceReference.make evidenceId sourceKind locator revision authorized).isOk = true ↔
      referenceProblem evidenceId sourceKind locator revision authorized = none := by
  unfold make
  split
  · next h => simp [h, Except.isOk, Except.toBool]
  · next h => simp [h, Except.isOk, Except.toBool]

theorem EvidenceReference.make_eq_ok {r : EvidenceReference}
    (h : EvidenceReference.make evidenceId sourceKind locator revision authorized = .ok r) :
    r.evidenceId = evidenceId := by
  unfold make at h
  split at h
  · cases h
  · cases h
    rfl

end

theorem EvidenceBundle.make_isOk {basis : EvidenceBasis} {references : List EvidenceReference}
    {limitations : List String} : (EvidenceBundle.make basis references limitations).isOk = true ↔
      bundleProblem basis references limitations = none := by
  unfold make
  split
  · next h => simp [h, Except.isOk, Except.toBool]
  · next h => simp [h, Except.isOk, Except.toBool]

section
variable {sourceId sourceLabel targetId targetLabel : String} {relationship : RelationshipKind}
  {confidence : ℚ} {freshness : FactFreshness} {evidence : List EvidenceReference}

theorem DecisionContextRelationship.make_isOk : (DecisionContextRelationship.make sourceId sourceLabel
    relationship targetId targetLabel confidence freshness evidence).isOk = true ↔
      claimProblem sourceId sourceLabel relationship targetId targetLabel confidence freshness evidence =
        none := by
  unfold make
  split
  · next h => simp [h, Except.isOk, Except.toBool]
  · next h => simp [h, Except.isOk, Except.toBool]

theorem DecisionContextRelationship.make_eq_ok {claim : DecisionContextRelationship}
    (h : DecisionContextRelationship.make sourceId sourceLabel relationship targetId targetLabel confidence
      freshness evidence = .ok claim) : claim.key = ⟨sourceId, relationship, targetId⟩ := by
  unfold make at h
  split at h
  · cases h
  · cases h
    rfl

theorem claimProblem_eq_none :
    claimProblem sourceId sourceLabel relationship targetId targetLabel confidence freshness evidence = none ↔
      isIdentifier sourceId = true ∧ isIdentifier targetId = true ∧ sourceId ≠ targetId ∧
        required 300 sourceLabel = true ∧ required 300 targetLabel = true ∧ relationship ≠ .hasEvidence ∧
        (0 < confidence ∧ confidence ≤ 1) ∧ freshness = .fresh ∧ evidence ≠ [] ∧
        evidence = sortedBy (·.evidenceId) evidence ∧ (evidence.map (·.evidenceId)).Nodup := by
  unfold claimProblem
  simp only [Option.or_eq_none_iff, invalid_eq_none, ite_some_eq_none_iff, ne_eq, not_not, and_true]

end

theorem DecisionContext.make_isOk {contextVersion : String} {qualified : Bool} {confidence : ℚ}
    {relationships : List DecisionContextRelationship} {evidence : EvidenceBundle}
    {limitations conflictIds : List String} :
    (DecisionContext.make contextVersion qualified confidence relationships evidence limitations
      conflictIds).isOk = true ↔
      decisionProblem contextVersion confidence relationships limitations conflictIds = none := by
  unfold make
  split
  · next h => simp [h, Except.isOk, Except.toBool]
  · next h => simp [h, Except.isOk, Except.toBool]

theorem findSome?_invalid {values : List String} {maximum : Nat} {label : String} :
    (values.findSome? fun value => invalid (required maximum value) label) = none ↔
      ∀ value ∈ values, required maximum value = true := by
  simp only [List.findSome?_eq_none_iff, invalid_eq_none]

theorem sortedUniqueTexts_eq_none {values : List String} {label : String} {maximum : Nat} :
    sortedUniqueTexts values label maximum = none ↔
      values = sortedSet values ∧ ∀ value ∈ values, required maximum value = true := by
  unfold sortedUniqueTexts
  split
  · next h => simp [h]
  · next h =>
    rw [not_not] at h
    rw [findSome?_invalid, and_iff_right h]

theorem decisionProblem_eq_none {contextVersion : String} {confidence : ℚ}
    {relationships : List DecisionContextRelationship} {limitations conflictIds : List String} :
    decisionProblem contextVersion confidence relationships limitations conflictIds = none ↔
      required 240 contextVersion = true ∧ (0 ≤ confidence ∧ confidence ≤ 1) ∧
        relationships = sortedBy (·.key.order) relationships ∧ (relationships.map (·.key)).Nodup ∧
        (limitations = sortedSet limitations ∧ ∀ value ∈ limitations, required 500 value = true) ∧
        (conflictIds = sortedSet conflictIds ∧ ∀ value ∈ conflictIds, required 240 value = true) := by
  unfold decisionProblem
  simp only [Option.or_eq_none_iff, invalid_eq_none, ite_some_eq_none_iff, ne_eq, not_not,
    sortedUniqueTexts_eq_none]

theorem bundleProblem_eq_none {basis : EvidenceBasis} {references : List EvidenceReference}
    {limitations : List String} : bundleProblem basis references limitations = none ↔
      references = sortedBy (·.evidenceId) references ∧ (references.map (·.evidenceId)).Nodup ∧
        ¬ (references = [] ∧ limitations = []) ∧ ¬ (basis = .measured ∧ references = []) ∧
        ∀ value ∈ limitations, required 500 value = true := by
  unfold bundleProblem
  simp only [ite_some_eq_none_iff, ne_eq, not_not, findSome?_invalid]

/-! ### References and claims -/

theorem reference_isOk {e : EvidenceQualification} (hcitation : required 500 e.citation = true)
    (hrevision : required 200 e.revision = true) : e.reference.isOk = true ↔ e.Citable := by
  rw [EvidenceQualification.reference, EvidenceReference.make_isOk]
  unfold referenceProblem EvidenceQualification.Citable
  simp only [Option.or_eq_none_iff, invalid_eq_none, hcitation, hrevision, if_true, and_true]

theorem references_ids {items : List EvidenceQualification} {references : List EvidenceReference}
    (h : items.mapM (·.reference) = .ok references) :
    references.map (·.evidenceId) = items.map (·.evidenceId) := by
  have hall := mapM_eq_ok.mp h
  clear h
  induction hall with
  | nil => rfl
  | cons hhead _ ih => rw [List.map_cons, List.map_cons, EvidenceReference.make_eq_ok hhead, ih]

theorem dictOf_isSome {ρ : Type} {key : ρ → String} {values : List ρ} {k : String} :
    ((dictOf values : Table key).get k).isSome = true ↔ k ∈ values.map key := by
  have hfold : ∀ (xs : List ρ) (t : Table key),
      ((xs.foldl Table.put t).get k).isSome = true ↔ (t.get k).isSome = true ∨ k ∈ xs.map key := by
    intro xs
    induction xs with
    | nil => simp
    | cons x xs ih =>
      intro t
      rw [List.foldl_cons, ih, Table.get_put, List.map_cons, List.mem_cons]
      by_cases hk : k = key x
      · simp [hk]
      · simp [hk]
  rw [dictOf, hfold]
  simp

theorem BrainEntity.label_valid (e : BrainEntity) : required 300 e.label = true := by
  have hvalid := e.valid
  unfold entityProblem at hvalid
  rw [Option.or_eq_none_iff, Option.or_eq_none_iff, invalid_eq_none, invalid_eq_none] at hvalid
  exact hvalid.2.1

section
variable {context : QualifiedWorldModelContext} {item : RelationshipQualification}

/-- The entities of the context by their ids. -/
def QualifiedWorldModelContext.labels (context : QualifiedWorldModelContext) : EntityDict :=
  dictOf (context.entities.map (·.entity))

theorem labels_isSome {id : String} :
    (Table.get context.labels id).isSome = true ↔ id ∈ context.entities.map (·.entity.entityId) := by
  rw [QualifiedWorldModelContext.labels, dictOf_isSome, List.map_map]
  rfl

/-- A claim that goes through has identifiers for its ends. -/
theorem endpoints_of_ok (hsound : Sound context) (hitem : item ∈ context.relationships)
    (hclaimable : Claimable context item)
    (h : (relationshipFromQualification context.labels item).isOk = true) :
    isIdentifier item.relationship.sourceId = true ∧ isIdentifier item.relationship.targetId = true := by
  obtain ⟨husable, hconflicts, hkind, hsource, htarget⟩ := hclaimable
  obtain ⟨source, hgetSource⟩ := Option.isSome_iff_exists.mp (labels_isSome.mpr hsource)
  obtain ⟨target, hgetTarget⟩ := Option.isSome_iff_exists.mp (labels_isSome.mpr htarget)
  obtain ⟨claim, hclaim⟩ := isOk_iff.mp h
  unfold relationshipFromQualification at hclaim
  dsimp only at hclaim
  rw [if_neg (by simp [husable, hconflicts, hkind]), hgetSource, hgetTarget] at hclaim
  dsimp only at hclaim
  obtain ⟨references, hreferences, hrest⟩ := bind_eq_ok_iff.mp hclaim
  have hsome : references ≠ [] := by
    intro hnone
    obtain ⟨e, he, hfresh⟩ := (hsound.founded item hitem husable).evidence
    have hids := references_ids hreferences
    rw [hnone, List.map_nil, eq_comm, List.map_eq_nil_iff, List.filter_eq_nil_iff] at hids
    exact hids e he (by simpa using hfresh)
  rw [if_neg hsome] at hrest
  obtain ⟨made, hmade, -⟩ := bind_eq_ok_iff.mp hrest
  have hproblem := claimProblem_eq_none.mp
    (DecisionContextRelationship.make_isOk.mp (isOk_iff.mpr ⟨made, hmade⟩))
  exact ⟨hproblem.1, hproblem.2.1⟩

theorem claim_isOk (hsound : Sound context) (hpresentable : Presentable context)
    (hitem : item ∈ context.relationships) :
    (relationshipFromQualification context.labels item).isOk = true := by
  unfold relationshipFromQualification
  dsimp only
  split
  · rfl
  · next hcondition =>
    simp only [not_or, Bool.not_eq_false, ne_eq, not_not] at hcondition
    obtain ⟨husable, hconflicts, hkind⟩ := hcondition
    cases hgetSource : Table.get context.labels item.relationship.sourceId with
    | none => rfl
    | some source =>
      cases hgetTarget : Table.get context.labels item.relationship.targetId with
      | none => rfl
      | some target =>
        dsimp only
        have hcitable : ∀ e ∈ item.evidence.filter (·.freshness = .fresh), e.reference.isOk = true := by
          intro e he
          have hcited := hsound.cited item hitem e (List.mem_filter.mp he).1
          obtain ⟨hcitation, hrevision⟩ := hsound.texts e hcited
          exact (reference_isOk hcitation hrevision).mpr (hpresentable.evidence e hcited)
        obtain ⟨references, hreferences⟩ := isOk_iff.mp (mapM_isOk_iff.mpr hcitable)
        rw [hreferences, ok_bind]
        split
        · rfl
        · next hsome =>
          have hclaimable : Claimable context item :=
            ⟨husable, hconflicts, hkind, labels_isSome.mp (by rw [hgetSource]; rfl),
              labels_isSome.mp (by rw [hgetTarget]; rfl)⟩
          obtain ⟨hsourceId, htargetId⟩ := hpresentable.endpoints item hitem hclaimable
          have hfounded := hsound.founded item hitem husable
          have hdiffer : item.relationship.sourceId ≠ item.relationship.targetId :=
            (relationshipProblem_eq_none.mp item.relationship.valid).2.2.1
          have hunique : ((sortedBy (·.evidenceId) references).map (·.evidenceId)).Nodup := by
            rw [((perm_sortedBy (·.evidenceId) references).map _).nodup_iff, references_ids hreferences]
            exact (hsound.citedOnce item hitem).sublist (List.filter_sublist.map _)
          have hnonempty : sortedBy (·.evidenceId) references ≠ [] := by
            intro hnone
            exact hsome (List.Perm.nil_eq (hnone ▸ perm_sortedBy (·.evidenceId) references)).symm
          obtain ⟨claim, hclaim⟩ := isOk_iff.mp (DecisionContextRelationship.make_isOk.mpr
            (claimProblem_eq_none.mpr ⟨hsourceId, htargetId, hdiffer, source.label_valid, target.label_valid,
              hkind, ⟨hfounded.positive, hfounded.atMostOne⟩, hfounded.fresh, hnonempty,
              (sortedBy_sortedBy _ _).symm, hunique⟩))
          rw [hclaim]
          rfl

/-- A claim keeps the key of its relationship. -/
theorem claim_key {labels : EntityDict} {claim : DecisionContextRelationship}
    (h : relationshipFromQualification labels item = .ok (some claim)) : claim.key = item.key := by
  unfold relationshipFromQualification at h
  dsimp only at h
  split at h
  · cases h
  · split at h
    · obtain ⟨references, -, hrest⟩ := bind_eq_ok_iff.mp h
      split at hrest
      · cases hrest
      · obtain ⟨made, hmade, hsome⟩ := bind_eq_ok_iff.mp hrest
        cases hsome
        exact DecisionContextRelationship.make_eq_ok hmade
    · cases h

theorem claims_keys {labels : EntityDict} {items : List RelationshipQualification}
    {claims : List (Option DecisionContextRelationship)}
    (h : items.mapM (relationshipFromQualification labels) = .ok claims) :
    ((claims.filterMap id).map (·.key)).Sublist (items.map RelationshipQualification.key) := by
  have hall := mapM_eq_ok.mp h
  clear h
  induction hall with
  | nil => exact List.Sublist.refl _
  | @cons item claim items claims hhead _ ih =>
    cases claim with
    | none => exact ih.cons _
    | some claim =>
      show ((claim :: claims.filterMap id).map (·.key)).Sublist _
      rw [List.map_cons, List.map_cons, claim_key hhead]
      exact ih.cons_cons _

end

/-! ### The hand-over -/

section
variable {context : QualifiedWorldModelContext} {contextVersion : String} {limitations : List String}

theorem evidenceBundle_isOk (hsound : Sound context) {texts : List String}
    (htexts : ∀ value ∈ texts, required 500 value = true) :
    (evidenceBundle context texts).isOk = true ↔ ∀ e ∈ context.evidence, e.Citable := by
  have hcitable : (∀ e ∈ context.evidence, e.reference.isOk = true) ↔ ∀ e ∈ context.evidence, e.Citable :=
    forall₂_congr fun e he => reference_isOk (hsound.texts e he).1 (hsound.texts e he).2
  rw [← hcitable, ← mapM_isOk_iff]
  unfold evidenceBundle
  cases hreferences : context.evidence.mapM (·.reference) with
  | error x => rfl
  | ok references =>
    refine iff_of_true ?_ rfl
    rw [ok_bind]
    split
    · next hsome =>
      refine EvidenceBundle.make_isOk.mpr (bundleProblem_eq_none.mpr ⟨(sortedBy_sortedBy _ _).symm, ?_, ?_, ?_,
        htexts⟩)
      · rw [((perm_sortedBy (·.evidenceId) references).map _).nodup_iff, references_ids hreferences]
        exact hsound.ids
      · exact fun hnone => hsome (List.Perm.nil_eq (hnone.1 ▸ perm_sortedBy (·.evidenceId) references)).symm
      · exact fun hnone => hsome (List.Perm.nil_eq (hnone.2 ▸ perm_sortedBy (·.evidenceId) references)).symm
    · refine EvidenceBundle.make_isOk.mpr (bundleProblem_eq_none.mpr ⟨rfl, List.nodup_nil, ?_, by simp, ?_⟩)
      · rintro ⟨-, hnone⟩
        split at hnone
        · next hsome => exact hsome hnone
        · cases hnone
      · split
        · exact htexts
        · rw [List.forall_mem_singleton]
          decide

theorem conflictIds_valid (hsound : Sound context) :
    (sortedBy id (context.conflicts.map (·.conflictId)) =
        sortedSet (sortedBy id (context.conflicts.map (·.conflictId))) ∧
      ∀ value ∈ sortedBy id (context.conflicts.map (·.conflictId)), required 240 value = true) ↔
      (context.conflicts.map (·.conflictId)).Nodup ∧
        ∀ conflict ∈ context.conflicts, conflict.conflictId.toList.length ≤ 240 := by
  rw [sortedBy_id_increasing]
  refine and_congr_right fun _ => ?_
  simp only [mem_sortedBy, List.forall_mem_map]
  refine forall₂_congr fun conflict hconflict => ?_
  obtain ⟨hne, hline⟩ := hsound.lines conflict hconflict
  simp [required, hne, hline]

/-- A sound context is handed over if and only if its identifiers fit the product contract. -/
theorem Sound.handOver (hsound : Sound context) (qualified : Bool)
    (hversion : required 240 contextVersion = true)
    (hlimitations : ∀ value ∈ limitations, required 500 value = true) :
    (decisionContextFromWorldModel context contextVersion qualified limitations).isOk = true ↔
      Presentable context := by
  have htexts : ∀ value ∈ sortedSet limitations, required 500 value = true :=
    fun value hvalue => hlimitations value (mem_sortedSet.mp hvalue)
  have hincreasing : sortedSet limitations = sortedSet (sortedSet limitations) :=
    (sortedSet_of_increasing (pairwise_sortedSet limitations)).symm
  have hmake : ∀ {claims evidence}, context.relationships.mapM (relationshipFromQualification context.labels) =
      .ok claims → ((DecisionContext.make contextVersion qualified context.confidence
        (sortedBy (·.key.order) (claims.filterMap id)) evidence (sortedSet limitations)
        (sortedBy id (context.conflicts.map (·.conflictId)))).isOk = true ↔
          (context.conflicts.map (·.conflictId)).Nodup ∧
            ∀ conflict ∈ context.conflicts, conflict.conflictId.toList.length ≤ 240) := by
    intro claims evidence hclaims
    have hkeys : ((sortedBy (fun claim : DecisionContextRelationship => claim.key.order)
        (claims.filterMap id)).map (·.key)).Nodup := by
      rw [((perm_sortedBy (fun claim : DecisionContextRelationship => claim.key.order)
        (claims.filterMap id)).map _).nodup_iff]
      exact hsound.keys.sublist (claims_keys hclaims)
    rw [DecisionContext.make_isOk, decisionProblem_eq_none, conflictIds_valid hsound]
    constructor
    · exact fun h => h.2.2.2.2.2
    · exact fun h => ⟨hversion, hsound.confidence, (sortedBy_sortedBy _ _).symm, hkeys,
        ⟨hincreasing, htexts⟩, h⟩
  unfold decisionContextFromWorldModel
  dsimp only
  rw [← QualifiedWorldModelContext.labels]
  constructor
  · intro h
    obtain ⟨decision, hdecision⟩ := isOk_iff.mp h
    obtain ⟨claims, hclaims, hrest⟩ := bind_eq_ok_iff.mp hdecision
    obtain ⟨bundle, hbundle, hmade⟩ := bind_eq_ok_iff.mp hrest
    obtain ⟨hdistinct, hshort⟩ := (hmake hclaims).mp (isOk_iff.mpr ⟨decision, hmade⟩)
    have hclaimsOk := mapM_isOk_iff.mp (isOk_iff.mpr ⟨claims, hclaims⟩)
    exact ⟨(evidenceBundle_isOk hsound htexts).mp (isOk_iff.mpr ⟨bundle, hbundle⟩),
      fun item hitem hclaimable => endpoints_of_ok hsound hitem hclaimable (hclaimsOk item hitem),
      hdistinct, hshort⟩
  · intro h
    obtain ⟨claims, hclaims⟩ := isOk_iff.mp (mapM_isOk_iff.mpr fun item hitem => claim_isOk hsound h hitem)
    obtain ⟨bundle, hbundle⟩ := isOk_iff.mp ((evidenceBundle_isOk hsound htexts).mpr h.evidence)
    rw [hclaims, ok_bind, hbundle, ok_bind]
    exact (hmake hclaims).mpr ⟨h.distinct, h.short⟩

end

/-! ### What every returned context guarantees -/

theorem SourceTrustRule.confidence_bounds (rule : SourceTrustRule) : 0 < rule.confidence ∧ rule.confidence ≤ 1 := by
  have hvalid := rule.valid
  unfold trustProblem at hvalid
  rw [Option.or_eq_none_iff, Option.or_eq_none_iff] at hvalid
  by_contra hnot
  rw [if_neg hnot] at hvalid
  cases hvalid.2.1

theorem WorldModelPolicy.minimum_positive (policy : WorldModelPolicy) : 0 < policy.minimumConfidence := by
  have hvalid := policy.valid
  unfold policyProblem at hvalid
  rw [Option.or_eq_none_iff] at hvalid
  by_contra hnot
  rw [if_neg fun hboth => hnot hboth.1] at hvalid
  cases hvalid.1

/-- Confidences up to one combine to one at most. -/
theorem combineConfidence_le_one {values : List ℚ} (h : ∀ v ∈ values, 0 < v ∧ v ≤ 1) :
    combineConfidence values ≤ 1 := by
  have hfold : ∀ (factors : List ℚ) (p : ℚ), (∀ q ∈ factors, 0 ≤ q ∧ q ≤ 1) → 0 ≤ p ∧ p ≤ 1 →
      0 ≤ factors.foldl Binary64.mul p ∧ factors.foldl Binary64.mul p ≤ 1 := by
    intro factors
    induction factors with
    | nil => exact fun p _ hp => hp
    | cons q factors ih =>
      intro p hfactors hp
      obtain ⟨hq, hq1⟩ := hfactors q List.mem_cons_self
      refine ih _ (fun q' hq' => hfactors q' (List.mem_cons_of_mem q hq')) ⟨Binary64.zero_le_mul hp.1 hq, ?_⟩
      exact Binary64.mul_le_one hp.1 hq (mul_le_one₀ hp.2 hq hq1)
  obtain ⟨hnonneg, hle⟩ := hfold (values.map (Binary64.sub 1)) 1 (fun q hq => by
    obtain ⟨v, hv, rfl⟩ := List.mem_map.mp hq
    obtain ⟨hpositive, hone⟩ := h v hv
    exact ⟨Binary64.zero_le_sub hone, Binary64.one_sub_le hpositive.le hone⟩) ⟨zero_le_one, le_refl 1⟩
  exact Binary64.one_sub_le hnonneg hle

section
variable {model : WorldModel} {query : ChangeQuery} {s : Store} {now : Int} {tenant : String}
  {policy : WorldModelPolicy} {principal : BrainPrincipal}

/-- Where a qualification of a relationship's evidence comes from. -/
theorem mem_seenEvidence {r : BrainRelationship} {e : EvidenceQualification}
    (h : e ∈ seenEvidence policy (s.evidenceDict tenant) principal now r) :
    ∃ v, ((s.facts tenant).evidence.filter fun v => v.1.visibleTo principal).find?
        (fun v => v.1.evidenceId = e.evidenceId) = some v ∧ e = policy.qualifyRecord now v := by
  rw [seenEvidence_eq] at h
  obtain ⟨id, -, hfind⟩ := List.mem_filterMap.mp h
  obtain ⟨v, hv, rfl⟩ := Option.map_eq_some_iff.mp hfind
  obtain ⟨-, -, hid⟩ := visible_find.mp hv
  refine ⟨v, ?_, rfl⟩
  rw [show (policy.qualifyRecord now v).evidenceId = id from hid]
  exact hv

theorem seenEvidence_nodup (r : BrainRelationship) :
    ((seenEvidence policy (s.evidenceDict tenant) principal now r).map (·.evidenceId)).Nodup := by
  have hids : r.evidenceIds.Nodup := r.evidenceIds_increasing.imp fun hlt => ne_of_lt hlt
  have hsublist : ∀ ids : List String, ((seenAmong policy now ((s.facts tenant).evidence.filter fun v =>
      v.1.visibleTo principal) ids).map (·.evidenceId)).Sublist ids := by
    intro ids
    induction ids with
    | nil => exact List.Sublist.refl _
    | cons id ids ih =>
      unfold seenAmong at ih ⊢
      rw [List.filterMap_cons]
      cases hfind : ((s.facts tenant).evidence.filter fun v => v.1.visibleTo principal).find?
          (fun v => v.1.evidenceId = id) with
      | none => exact ih.cons _
      | some v =>
        obtain ⟨-, -, hid⟩ := visible_find.mp hfind
        rw [Option.map_some, List.map_cons, show (policy.qualifyRecord now v).evidenceId = id from hid]
        exact ih.cons_cons _
  rw [seenEvidence_eq]
  exact hids.sublist (hsublist r.evidenceIds)

theorem Supports.founded {r : BrainRelationship} {item : RelationshipQualification}
    (hevidence : item.evidence = seenEvidence policy (s.evidenceDict tenant) principal now r)
    (hfreshness : item.freshness = .fresh)
    (hconfidence : item.confidence = combineConfidence (freshConfidences item.evidence))
    (h : Supports policy item.evidence) : Founded item := by
  obtain ⟨hsome, hminimum⟩ := h
  have hrange : ∀ v ∈ freshConfidences item.evidence, 0 < v ∧ v ≤ 1 := by
    intro v hv
    obtain ⟨e, he, rfl⟩ := List.mem_map.mp hv
    have hmem := (List.mem_filter.mp he).1
    rw [hevidence] at hmem
    obtain ⟨w, -, hqualified⟩ := mem_seenEvidence hmem
    rw [hqualified]
    exact (policy.ruleFor w.1.sourceKind).confidence_bounds
  refine ⟨hfreshness, ?_, ?_, ?_⟩
  · rw [hconfidence]
    exact lt_of_lt_of_le policy.minimum_positive hminimum
  · rw [hconfidence]
    exact combineConfidence_le_one hrange
  · obtain ⟨v, hv⟩ := List.exists_mem_of_ne_nil _ hsome
    obtain ⟨e, he, -⟩ := List.mem_map.mp hv
    obtain ⟨hmem, hfresh⟩ := List.mem_filter.mp he
    exact ⟨e, hmem, by simpa using hfresh⟩

/-- A settled relationship that is usable was supported when it was first qualified. -/
theorem settled_founded {item : RelationshipQualification}
    (h : item ∈ settled model query (s.entityDict tenant) (s.evidenceDict tenant) (s.listedRecords tenant) now)
    (husable : item.usable = true) : Founded item := by
  obtain ⟨first, hfirst, rfl⟩ := List.mem_map.mp h
  have hkeys : ((assessed model query (s.evidenceDict tenant) (s.listedRecords tenant) now).map
      RelationshipQualification.key).Nodup := by
    rw [assessed_keys]
    exact s.listedRecords_keys tenant
  have hsupported := ((withConflicts_usable hkeys hfirst).mp husable).1
  obtain ⟨r, -, rfl⟩ := List.mem_map.mp hfirst
  have hsupports := (qualifyRelationship_usable r).mp hsupported
  obtain ⟨hfreshness, hconfidence⟩ := qualifyRelationship_fresh hsupports
  have hevidence : (model.policy.qualifyRelationship (s.evidenceDict tenant) query.principal now r).evidence =
      seenEvidence model.policy (s.evidenceDict tenant) query.principal now r :=
    qualifyRelationship_evidence r
  rw [← hevidence] at hsupports hconfidence
  exact Supports.founded hevidence hfreshness hconfidence hsupports

end

theorem sortedBy_pair (a b : String) : sortedBy id [a, b] = [a, b] ∨ sortedBy id [a, b] = [b, a] := by
  by_cases h : a ≤ b
  · exact .inl (by simp [sortedBy, h])
  · exact .inr (by simp [sortedBy, h])

theorem no_newline_of_required {maximum : Nat} {value : String} (h : required maximum value = true) :
    '\n' ∉ value.toList := by
  simp only [required, Bool.and_eq_true, Bool.not_eq_true', List.contains_eq_mem, decide_eq_false_iff_not] at h
  exact h.2

/-- The ids of conflicts are lines of text, as the ids they join are. -/
theorem conflictId_line {items : List RelationshipQualification} {entities : EntityDict}
    (hkeys : (items.map RelationshipQualification.key).Nodup) {conflict : WorldModelConflict}
    (h : conflict ∈ conflictsAmong items entities) :
    conflict.conflictId ≠ "" ∧ '\n' ∉ conflict.conflictId.toList := by
  have hends : ∀ item : RelationshipQualification,
      '\n' ∉ item.relationship.sourceId.toList ∧ '\n' ∉ item.relationship.targetId.toList := by
    intro item
    obtain ⟨hsource, htarget, -⟩ := relationshipProblem_eq_none.mp item.relationship.valid
    exact ⟨no_newline_of_required hsource, no_newline_of_required htarget⟩
  have htext : ∀ {start rest : String}, start.toList ≠ [] → '\n' ∉ start.toList → '\n' ∉ rest.toList →
      start ++ rest ≠ "" ∧ '\n' ∉ (start ++ rest).toList := by
    intro start rest hstart hline hrest
    refine ⟨fun hempty => hstart ?_, ?_⟩
    · have hlist := congrArg String.toList hempty
      rw [String.toList_append] at hlist
      exact (List.append_eq_nil_iff.mp hlist).1
    · rw [String.toList_append, List.mem_append, not_or]
      exact ⟨hline, hrest⟩
  obtain hcycle | howner := List.mem_append.mp h
  · obtain ⟨item, -, hitem⟩ := List.mem_filterMap.mp hcycle
    obtain ⟨-, rfl⟩ := (cycleOf_eq_some hkeys item).mp hitem
    obtain ⟨hsource, htarget⟩ := hends item
    refine htext (by decide) (by decide) ?_
    obtain hpair | hpair := sortedBy_pair item.key.sourceId item.key.targetId
    · rw [hpair, show ":".intercalate [item.key.sourceId, item.key.targetId] =
        item.key.sourceId ++ ":" ++ item.key.targetId from rfl]
      simpa using ⟨hsource, htarget⟩
    · rw [hpair, show ":".intercalate [item.key.targetId, item.key.sourceId] =
        item.key.targetId ++ ":" ++ item.key.sourceId from rfl]
      simpa using ⟨htarget, hsource⟩
  · obtain ⟨serviceId, hservice, hconflict⟩ := List.mem_filterMap.mp howner
    rw [mem_sortedSet, List.mem_map] at hservice
    obtain ⟨item, -, rfl⟩ := hservice
    unfold ownershipOf at hconflict
    dsimp only at hconflict
    split at hconflict
    · cases hconflict
    · cases hconflict
      exact htext (by decide) (by decide) (hends item).2

theorem weakest_bounds {items : List RelationshipQualification}
    (h : ∀ item ∈ items, item.usable = true → Founded item) : 0 ≤ weakest items ∧ weakest items ≤ 1 := by
  unfold weakest
  cases hmin : ((items.filter fun item => item.usable && item.relationship.kind ≠ .hasEvidence).map
      (·.confidence)).min? with
  | none => exact ⟨le_refl 0, zero_le_one⟩
  | some q =>
    obtain ⟨item, hitem, rfl⟩ := List.mem_map.mp (List.min?_mem hmin)
    obtain ⟨hmem, husable⟩ := List.mem_filter.mp hitem
    have hfounded := h item hmem (Bool.and_eq_true_iff.mp husable).1
    exact ⟨hfounded.positive.le, hfounded.atMostOne⟩

theorem deduplicateEvidence_ids (values : List EvidenceQualification) :
    ((deduplicateEvidence values).map (·.evidenceId)).Nodup := by
  rw [deduplicateEvidence, ((perm_sortedBy _ _).map _).nodup_iff]
  exact (dictOf values : Table EvidenceQualification.evidenceId).unique

theorem exists_deduplicated {values : List EvidenceQualification} {e : EvidenceQualification} (h : e ∈ values) :
    ∃ e' ∈ deduplicateEvidence values, e'.evidenceId = e.evidenceId := by
  have hsome : ((dictOf values : Table EvidenceQualification.evidenceId).get e.evidenceId).isSome = true :=
    dictOf_isSome.mpr (List.mem_map_of_mem h)
  obtain ⟨e', he'⟩ := Option.isSome_iff_exists.mp hsome
  exact ⟨e', mem_sortedBy.mpr (Table.mem_of_get he'), Table.key_of_get he'⟩

theorem sound_of_ok {model : WorldModel} {query : ChangeQuery} {s : Store}
    {context : QualifiedWorldModelContext} (h : model.contextForChange query s = .ok context) :
    Sound context := by
  obtain ⟨now, -, -, hassembled⟩ := assembled_of_ok h
  have hkeys : ((assessed model query (s.evidenceDict model.tenantId) (s.listedRecords model.tenantId) now).map
      RelationshipQualification.key).Nodup := by
    rw [assessed_keys]
    exact s.listedRecords_keys model.tenantId
  have hrelevant : ∀ item ∈ context.relationships, item ∈ settled model query (s.entityDict model.tenantId)
      (s.evidenceDict model.tenantId) (s.listedRecords model.tenantId) now := by
    intro item hitem
    rw [hassembled.relevant] at hitem
    exact (List.mem_filter.mp hitem).1
  have hsource : ∀ item ∈ context.relationships, ∀ e ∈ item.evidence, ∃ v,
      ((s.facts model.tenantId).evidence.filter fun v => v.1.visibleTo query.principal).find?
        (fun v => v.1.evidenceId = e.evidenceId) = some v ∧ e = model.policy.qualifyRecord now v := by
    intro item hitem e he
    obtain ⟨r, -, -, hevidence⟩ := mem_settled (hrelevant item hitem)
    rw [hevidence] at he
    exact mem_seenEvidence he
  have hfrom : ∀ e ∈ context.evidence, ∃ item ∈ context.relationships, e ∈ item.evidence := by
    intro e he
    rw [hassembled.cited] at he
    exact List.mem_flatMap.mp (mem_deduplicateEvidence he)
  refine ⟨?_, ?_, ?_, ?_, fun item hitem => settled_founded (hrelevant item hitem), ?_, ?_, ?_⟩
  · intro e he
    obtain ⟨item, hitem, hcited⟩ := hfrom e he
    obtain ⟨v, -, rfl⟩ := hsource item hitem e hcited
    have hvalid := v.1.valid
    unfold evidenceProblem at hvalid
    simp only [Option.or_eq_none_iff, invalid_eq_none] at hvalid
    exact ⟨hvalid.2.2.1, hvalid.2.2.2.1⟩
  · rw [hassembled.cited]
    exact deduplicateEvidence_ids _
  · intro item hitem e he
    obtain ⟨e', he', hid⟩ := exists_deduplicated (List.mem_flatMap.mpr ⟨item, hitem, he⟩)
    rw [← hassembled.cited] at he'
    obtain ⟨item', hitem', hcited'⟩ := hfrom e' he'
    obtain ⟨v, hv, hqualified⟩ := hsource item hitem e he
    obtain ⟨v', hv', hqualified'⟩ := hsource item' hitem' e' hcited'
    rw [hid, hv, Option.some.injEq] at hv'
    rw [hqualified, hv', ← hqualified']
    exact he'
  · intro item hitem
    obtain ⟨r, -, -, hevidence⟩ := mem_settled (hrelevant item hitem)
    rw [hevidence]
    exact seenEvidence_nodup r
  · rw [hassembled.relevant]
    refine List.Nodup.sublist (List.filter_sublist.map _) ?_
    rw [settled_keys]
    exact s.listedRecords_keys model.tenantId
  · rw [hassembled.confidence]
    exact weakest_bounds fun item hitem => settled_founded (hrelevant item hitem)
  · intro conflict hconflict
    rw [hassembled.conflicts] at hconflict
    exact conflictId_line hkeys (mem_sortedBy.mp (List.mem_filter.mp hconflict).1)

namespace Sample

/-- A service whose membership rests on a file with a blank in its path. -/
def spaced : List StoreOp :=
  [.putEntity "acme" repository terms 1, .putEntity "acme" service terms 2,
    .putEvidence "acme" (citing "evidence:github:acme/payments:main:one:docs/run book.md" ["engineering"]
      (by decide +kernel)) terms 3 3,
    .putRelationship "acme" ⟨"service:payments", "repository:acme", .belongsTo,
      ["evidence:github:acme/payments:main:one:docs/run book.md"], by decide +kernel⟩ terms 4]

end Sample

end EngineeringIntelligence.CompanyBrain
