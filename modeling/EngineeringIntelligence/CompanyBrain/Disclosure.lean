import EngineeringIntelligence.CompanyBrain.Withheld

namespace EngineeringIntelligence.CompanyBrain

open EngineeringIntelligence.Framework

/-! The evidence a context names to the principal it is made for. -/

/-- An identifier the tenant has evidence or an evidence entity under. -/
def Facts.names (f : Facts) (id : String) : Bool :=
  (f.evidence.any fun v => v.1.evidenceId = id) || f.entities.any fun e => e.entityId = id && e.kind = .evidence

/-- The ends of an evidence link that are evidence. -/
def Facts.linkEnds (f : Facts) (r : BrainRelationship) : List String :=
  if r.kind = .hasEvidence then r.targetId :: (if f.names r.sourceId then [r.sourceId] else []) else []

/-- The evidence identifiers anywhere in a context. -/
def QualifiedWorldModelContext.evidenceIds (context : QualifiedWorldModelContext) (f : Facts) : List String :=
  context.evidence.map (·.evidenceId) ++
    (context.entities.flatMap fun item => item.evidence.map (·.evidenceId)) ++
    context.relationships.flatMap fun item =>
      item.evidence.map (·.evidenceId) ++ item.relationship.evidenceIds ++ f.linkEnds item.relationship

/-- Every evidence identifier in the context is of evidence the principal may see. -/
def Discreet (f : Facts) (principal : BrainPrincipal) (context : QualifiedWorldModelContext) : Prop :=
  ∀ id ∈ context.evidenceIds f, f.shows principal id = true

instance (f : Facts) (principal : BrainPrincipal) (context : QualifiedWorldModelContext) :
    Decidable (Discreet f principal context) :=
  inferInstanceAs (Decidable (∀ id ∈ context.evidenceIds f, f.shows principal id = true))

/-- A relationship that names only evidence the principal may see. -/
def Facts.Open (f : Facts) (principal : BrainPrincipal) (r : BrainRelationship) : Prop :=
  (∀ id ∈ r.evidenceIds, f.shows principal id = true) ∧
    (r.kind = .hasEvidence → f.shows principal r.targetId = true ∧
      (f.names r.sourceId = true → f.shows principal r.sourceId = true))

section
variable {f : Facts} {principal : BrainPrincipal} {r : BrainRelationship}

theorem open_iff : f.Open principal r ↔
    (∀ id ∈ r.evidenceIds, f.shows principal id = true) ∧ ∀ id ∈ f.linkEnds r, f.shows principal id = true := by
  unfold Facts.Open Facts.linkEnds
  refine and_congr_right fun _ => ?_
  by_cases hkind : r.kind = .hasEvidence
  · cases hnames : f.names r.sourceId with
    | true => simp [hkind]
    | false => simp [hkind]
  · simp [hkind]

end

section
variable {model : WorldModel} {query : ChangeQuery} {s : Store} {now : Int}

/-- What is qualified is evidence the principal may see. -/
theorem shows_of_seen {policy : WorldModelPolicy} {principal : BrainPrincipal} {tenant : String}
    {r : BrainRelationship} {e : EvidenceQualification}
    (h : e ∈ seenEvidence policy (s.evidenceDict tenant) principal now r) :
    (s.facts tenant).shows principal e.evidenceId = true := by
  rw [seenEvidence_eq] at h
  obtain ⟨id, -, hfind⟩ := List.mem_filterMap.mp h
  obtain ⟨v, hv, rfl⟩ := Option.map_eq_some_iff.mp hfind
  obtain ⟨hmem, hvisible, hid⟩ := visible_find.mp hv
  exact List.any_eq_true.mpr ⟨v, hmem, by simp [WorldModelPolicy.qualifyRecord, hvisible]⟩

theorem mem_settled {entities : EntityDict} {evidence : EvidenceDict}
    {relationships : List BrainRelationship} {item : RelationshipQualification}
    (h : item ∈ settled model query entities evidence relationships now) :
    ∃ r ∈ relationships, item.relationship = r ∧
      item.evidence = seenEvidence model.policy evidence query.principal now r := by
  obtain ⟨first, hfirst, rfl⟩ := List.mem_map.mp h
  obtain ⟨r, hr, rfl⟩ := List.mem_map.mp hfirst
  exact ⟨r, hr, qualifyRelationship_relationship r, qualifyRelationship_evidence r⟩

theorem settled_of_mem (model : WorldModel) (query : ChangeQuery) (entities : EntityDict)
    (evidence : EvidenceDict) (now : Int) {relationships : List BrainRelationship} {r : BrainRelationship}
    (h : r ∈ relationships) :
    ∃ item ∈ settled model query entities evidence relationships now, item.relationship = r :=
  ⟨_, List.mem_map_of_mem (List.mem_map_of_mem h), qualifyRelationship_relationship r⟩

theorem mem_deduplicateEvidence {values : List EvidenceQualification} {e : EvidenceQualification}
    (h : e ∈ deduplicateEvidence values) : e ∈ values :=
  mem_rows_dictOf (mem_sortedBy.mp h)

theorem mem_qualifyEntity_evidence {entity : BrainEntity} {byKey : RelationshipDict} {e : EvidenceQualification}
    (h : e ∈ (qualifyEntity entity byKey).evidence) : ∃ item ∈ byKey.rows, e ∈ item.evidence := by
  have hmem : e ∈ deduplicateEvidence ((byKey.rows.filter fun item =>
      item.relationship.kind = .hasEvidence && item.relationship.sourceId = entity.entityId).flatMap
        (·.evidence)) := by
    unfold qualifyEntity at h
    dsimp only at h
    split at h
    · exact h
    · split at h
      · exact h
      · cases h
  obtain ⟨item, hitem, he⟩ := List.mem_flatMap.mp (mem_deduplicateEvidence hmem)
  exact ⟨item, (List.mem_filter.mp hitem).1, he⟩

theorem touches_iff {item : RelationshipQualification} {scope : List String} :
    item.touches scope = true ↔ item.relationship.sourceId ∈ scope ∨ item.relationship.targetId ∈ scope := by
  simp [RelationshipQualification.touches]

/-- A context names only evidence the principal may see if and only if every relationship of an
entity the change concerns does: the records of relationships are passed on as they are stored. -/
theorem discreet_iff {context : QualifiedWorldModelContext} (hnow : query.when = .ok now)
    (h : model.contextForChange query s = .ok context) :
    Discreet (s.facts model.tenantId) query.principal context ↔
      ∀ r ∈ s.listedRecords model.tenantId,
        ((asserted model.policy (s.evidenceDict model.tenantId) query.principal now
            (s.entityDict model.tenantId) (s.listedRecords model.tenantId)).InScope
              query.repositoryId query.changedServices r.sourceId ∨
          (asserted model.policy (s.evidenceDict model.tenantId) query.principal now
            (s.entityDict model.tenantId) (s.listedRecords model.tenantId)).InScope
              query.repositoryId query.changedServices r.targetId) →
        (s.facts model.tenantId).Open query.principal r := by
  obtain ⟨now', hnow', -, hassembled⟩ := assembled_of_ok h
  rw [hnow, Except.ok.injEq] at hnow'
  subst hnow'
  have hscope : ∀ id, id ∈ context.scope ↔ _ := fun id =>
    mem_scope hassembled (s.listedRecords_keys model.tenantId)
  constructor
  · intro hdiscreet r hr htouches
    obtain ⟨item, hitem, rfl⟩ := settled_of_mem model query (s.entityDict model.tenantId)
      (s.evidenceDict model.tenantId) now hr
    have hrelevant : item ∈ context.relationships := by
      rw [hassembled.relevant]
      refine List.mem_filter.mpr ⟨hitem, touches_iff.mpr ?_⟩
      rwa [hscope, hscope]
    have hnamed : ∀ id, (id ∈ item.relationship.evidenceIds ∨
        id ∈ (s.facts model.tenantId).linkEnds item.relationship) →
        (s.facts model.tenantId).shows query.principal id = true := by
      intro id hid
      refine hdiscreet id (List.mem_append_right _ (List.mem_flatMap.mpr ⟨item, hrelevant, ?_⟩))
      obtain hcited | hend := hid
      · exact List.mem_append_left _ (List.mem_append_right _ hcited)
      · exact List.mem_append_right _ hend
    exact open_iff.mpr ⟨fun id hid => hnamed id (.inl hid), fun id hid => hnamed id (.inr hid)⟩
  · intro hopen id hid
    have hseen : ∀ item ∈ settled model query (s.entityDict model.tenantId) (s.evidenceDict model.tenantId)
        (s.listedRecords model.tenantId) now, ∀ e ∈ item.evidence,
          (s.facts model.tenantId).shows query.principal e.evidenceId = true := by
      intro item hitem e he
      obtain ⟨r, -, -, hevidence⟩ := mem_settled hitem
      rw [hevidence] at he
      exact shows_of_seen he
    have hrelevant : ∀ item ∈ context.relationships, item ∈ settled model query (s.entityDict model.tenantId)
        (s.evidenceDict model.tenantId) (s.listedRecords model.tenantId) now ∧
          item.touches context.scope = true := by
      intro item hitem
      rw [hassembled.relevant] at hitem
      exact List.mem_filter.mp hitem
    rw [QualifiedWorldModelContext.evidenceIds, List.mem_append, List.mem_append] at hid
    obtain (hcontext | hentity) | hrelationship := hid
    · obtain ⟨e, he, rfl⟩ := List.mem_map.mp hcontext
      rw [hassembled.cited] at he
      obtain ⟨item, hitem, he⟩ := List.mem_flatMap.mp (mem_deduplicateEvidence he)
      exact hseen item (hrelevant item hitem).1 e he
    · obtain ⟨qualified, hqualified, hcited⟩ := List.mem_flatMap.mp hentity
      obtain ⟨e, he, rfl⟩ := List.mem_map.mp hcited
      rw [hassembled.described] at hqualified
      obtain ⟨entityId, -, hget⟩ := List.mem_filterMap.mp hqualified
      obtain ⟨record, -, rfl⟩ := Option.map_eq_some_iff.mp hget
      obtain ⟨item, hitem, he⟩ := mem_qualifyEntity_evidence he
      rw [rows_byKey (by rw [settled_keys]; exact s.listedRecords_keys _)] at hitem
      exact hseen item hitem e he
    · obtain ⟨item, hitem, hid⟩ := List.mem_flatMap.mp hrelationship
      obtain ⟨hmem, htouches⟩ := hrelevant item hitem
      obtain ⟨r, hr, hrecord, -⟩ := mem_settled hmem
      rw [touches_iff, hscope, hscope, hrecord] at htouches
      obtain ⟨hcited, hends⟩ := open_iff.mp (hopen r hr htouches)
      rw [List.mem_append, List.mem_append, hrecord] at hid
      obtain (hseenId | hcitedId) | hend := hid
      · obtain ⟨e, he, rfl⟩ := List.mem_map.mp hseenId
        exact hseen item hmem e he
      · exact hcited id hcitedId
      · exact hends id hend

end

namespace Sample

theorem engineering_valid : evidenceProblem "evidence:1" "adr" "notes" "1" ["engineering"] [] = none := by
  decide +kernel

theorem security_valid : evidenceProblem "evidence:2" "adr" "notes" "1" ["security"] [] = none := by decide +kernel

/-- A service whose membership rests on evidence engineers may see and on evidence they may not. -/
def mixed : List StoreOp :=
  [.putEntity "acme" repository terms 1, .putEntity "acme" service terms 2,
    .putEvidence "acme" (citing "evidence:1" ["engineering"] engineering_valid) terms 3 3,
    .putEvidence "acme" (citing "evidence:2" ["security"] security_valid) terms 4 4,
    .putRelationship "acme" ⟨"service:payments", "repository:acme", .belongsTo,
      ["evidence:1", "evidence:2"], by decide +kernel⟩ terms 5]

end Sample

theorem member_context_discreet_iff :
    ∃ context, Sample.acmeModel.contextForChange Sample.paymentsChange
        (runState Store.step Store.empty Sample.member) = .ok context ∧
      (Discreet ((runState Store.step Store.empty Sample.member).facts Sample.acmeModel.tenantId)
          Sample.paymentsChange.principal context ↔
        ∀ r ∈ (runState Store.step Store.empty Sample.member).listedRecords Sample.acmeModel.tenantId,
          ((asserted Sample.acmeModel.policy
              ((runState Store.step Store.empty Sample.member).evidenceDict Sample.acmeModel.tenantId)
              Sample.paymentsChange.principal 0
              ((runState Store.step Store.empty Sample.member).entityDict Sample.acmeModel.tenantId)
              ((runState Store.step Store.empty Sample.member).listedRecords
                Sample.acmeModel.tenantId)).InScope
                Sample.paymentsChange.repositoryId Sample.paymentsChange.changedServices r.sourceId ∨
            (asserted Sample.acmeModel.policy
              ((runState Store.step Store.empty Sample.member).evidenceDict Sample.acmeModel.tenantId)
              Sample.paymentsChange.principal 0
              ((runState Store.step Store.empty Sample.member).entityDict Sample.acmeModel.tenantId)
              ((runState Store.step Store.empty Sample.member).listedRecords
                Sample.acmeModel.tenantId)).InScope
                Sample.paymentsChange.repositoryId Sample.paymentsChange.changedServices r.targetId) →
          ((runState Store.step Store.empty Sample.member).facts Sample.acmeModel.tenantId).Open
            Sample.paymentsChange.principal r) := by
  have hanswers : (Sample.acmeModel.contextForChange Sample.paymentsChange
      (runState Store.step Store.empty Sample.member)).isOk = true := by
    decide +kernel
  have hnow : Sample.paymentsChange.when = .ok 0 := rfl
  obtain ⟨context, hcontext⟩ := isOk_iff.mp hanswers
  exact ⟨context, hcontext, discreet_iff hnow hcontext⟩

/-- The record of a relationship carries the id of hidden evidence into the context. -/
theorem hidden_evidence_id_disclosed :
    ∃ context, Sample.acmeModel.contextForChange Sample.paymentsChange
        (runState Store.step Store.empty Sample.mixed) = .ok context ∧
      "evidence:2" ∈ context.relationships.flatMap (·.relationship.evidenceIds) ∧
      ¬ Discreet ((runState Store.step Store.empty Sample.mixed).facts "acme") Sample.engineer context := by
  have hdisclosed : ((Sample.acmeModel.contextForChange Sample.paymentsChange
      (runState Store.step Store.empty Sample.mixed)).toOption.map fun context =>
        (decide ("evidence:2" ∈ context.relationships.flatMap (·.relationship.evidenceIds)),
          decide (Discreet ((runState Store.step Store.empty Sample.mixed).facts "acme") Sample.engineer
            context))) = some (true, false) := by
    decide +kernel
  obtain ⟨context, hcontext, hpair⟩ := Option.map_eq_some_iff.mp hdisclosed
  obtain ⟨hid, hnot⟩ := Prod.mk.inj hpair
  exact ⟨context, toOption_eq_some.mp hcontext, of_decide_eq_true hid, of_decide_eq_false hnot⟩

end EngineeringIntelligence.CompanyBrain
