import EngineeringIntelligence.CompanyBrain.Projector
import EngineeringIntelligence.CompanyBrain.Snapshot

namespace EngineeringIntelligence.CompanyBrain

open EngineeringIntelligence.Framework EngineeringIntelligence.Ingestion

/-! What a change states about the graph, apart from the model it is stated in. -/

/-! ### Kinds and identifiers -/

/-- An identifier that begins with the kind it names. -/
def HasKind (kind : EntityKind) (entityId : String) : Prop :=
  ∃ rest, entityId = kind.value ++ ":" ++ rest

theorem EntityKind.value_injective : Function.Injective EntityKind.value := by
  intro a b h
  revert h
  cases a <;> cases b <;> decide

theorem EntityKind.value_no_colon (kind : EntityKind) : ∀ c ∈ kind.value.toList, (c ≠ ':') = true := by
  have hcolon : ':' ∉ kind.value.toList := by cases kind <;> decide
  intro c hc
  simp only [eq_iff_iff, iff_true]
  rintro rfl
  exact hcolon hc

theorem hasKind_takeWhile {kind : EntityKind} {entityId : String} (h : HasKind kind entityId) :
    entityId.toList.takeWhile (· ≠ ':') = kind.value.toList := by
  obtain ⟨rest, rfl⟩ := h
  have hcolon : (":" : String).toList = [':'] := by decide
  rw [String.toList_append, String.toList_append, hcolon, List.append_assoc,
    List.takeWhile_append_of_pos fun c hc => by simpa using kind.value_no_colon c hc]
  simp

/-- The kind of an entity is told by its identifier. -/
theorem hasKind_unique {kind kind' : EntityKind} {entityId : String} (h : HasKind kind entityId)
    (h' : HasKind kind' entityId) : kind = kind' := by
  apply EntityKind.value_injective
  rw [← String.toList_inj, ← hasKind_takeWhile h, hasKind_takeWhile h']

/-! ### Stating facts -/

namespace Fact

def entityId? : Fact → Option String
  | entity entityId .. => some entityId
  | _ => none

def edgeKey? : Fact → Option EdgeKey
  | edge sourceId targetId kind => some ⟨sourceId, kind, targetId⟩
  | _ => none

def isEvidence : Fact → Bool
  | evidence .. => true
  | _ => false

end Fact

/-- The edges a list of facts states. -/
def edgesOf (facts : List Fact) : List EdgeKey := facts.filterMap Fact.edgeKey?

/-- The model has an edge that cites a piece of evidence. -/
def Cites (b : CompanyBrain) (k : EdgeKey) (v : String) : Prop :=
  ∃ r, b.related.get k = some r ∧ v ∈ r.evidenceIds

section
variable {ev : String} {b b' : CompanyBrain}

theorem recordEvidence_ok {v : BrainEvidence} (h : b.recordEvidence v = (b', .ok ())) :
    ∃ e, evidenceEntity v = .ok e ∧
      b' = ⟨b.entities.put e, b.evidence.put v, b.related⟩ := by
  unfold CompanyBrain.recordEvidence at h
  dsimp only at h
  split at h
  · exact nomatch (Prod.mk.inj h).2
  · next e he => exact ⟨e, he, (Prod.mk.inj h).1.symm⟩

/-- What stating one fact does to the model. -/
theorem stateFact_cases {f : Fact} (h : stateFact ev b f = .ok b') :
    (∃ entityId kind label attributes e, f = .entity entityId kind label attributes ∧
      BrainEntity.make entityId kind label attributes = .ok e ∧ b' = b.upsertEntity e) ∨
    (∃ sourceKind citation revision groups users v e,
      f = .evidence sourceKind citation revision groups users ∧
      BrainEvidence.make ev sourceKind citation revision groups users = .ok v ∧
      evidenceEntity v = .ok e ∧ b' = ⟨b.entities.put e, b.evidence.put v, b.related⟩) ∨
    (∃ sourceId targetId kind r, f = .edge sourceId targetId kind ∧
      b.relate sourceId targetId kind [ev] = .ok (b', r)) := by
  cases f with
  | entity entityId kind label attributes =>
    unfold stateFact at h
    dsimp only at h
    split at h
    · cases h
    · next e he =>
      cases h
      exact .inl ⟨_, _, _, _, e, rfl, he, rfl⟩
  | evidence sourceKind citation revision groups users =>
    unfold stateFact at h
    dsimp only at h
    split at h
    · cases h
    · next v hv =>
      split at h
      · cases h
      · next hrecord =>
        cases h
        obtain ⟨e, he, rfl⟩ := recordEvidence_ok hrecord
        exact .inr (.inl ⟨_, _, _, _, _, v, e, rfl, hv, he, rfl⟩)
  | edge sourceId targetId kind =>
    unfold stateFact at h
    dsimp only at h
    split at h
    · cases h
    · next r hr =>
      cases h
      exact .inr (.inr ⟨_, _, _, r, rfl, hr⟩)

theorem cites_relate {sourceId targetId : String} {kind : RelationshipKind} {r : BrainRelationship}
    (h : b.relate sourceId targetId kind [ev] = .ok (b', r)) (k : EdgeKey) (v : String) :
    Cites b' k v ↔ Cites b k v ∨ v = ev ∧ k = ⟨sourceId, kind, targetId⟩ := by
  obtain ⟨-, -, -, hmake, rfl⟩ := relate_ok_iff.mp h
  obtain ⟨hsource, htarget, hkind, hids⟩ := BrainRelationship.make_eq_ok hmake
  have hkey : r.key = ⟨sourceId, kind, targetId⟩ := by
    simp [BrainRelationship.key, hsource, htarget, hkind]
  unfold Cites
  rw [Table.get_put, hkey]
  by_cases hk : k = ⟨sourceId, kind, targetId⟩
  · subst hk
    simp only [if_pos, Option.some.injEq, exists_eq_left', hids, mem_sortedSet, List.mem_append,
      List.mem_singleton, and_true]
    cases b.related.get ⟨sourceId, kind, targetId⟩ with
    | none => simp
    | some old => simp [or_comm]
  · simp [hk]

/-- The edges that cite evidence after stating facts: those of before and those stated. -/
theorem cites_stateAll {facts : List Fact} (h : stateAll ev b facts = .ok b') (k : EdgeKey)
    (v : String) : Cites b' k v ↔ Cites b k v ∨ v = ev ∧ k ∈ edgesOf facts := by
  induction facts generalizing b with
  | nil =>
    cases h
    simp [edgesOf]
  | cons f facts ih =>
    obtain ⟨mid, hfirst, hrest⟩ := bind_eq_ok_iff.mp h
    rw [ih hrest]
    obtain ⟨_, _, _, _, e, rfl, -, rfl⟩ | ⟨_, _, _, _, _, w, e, rfl, -, -, rfl⟩ |
      ⟨_, _, _, r, rfl, hrelate⟩ := stateFact_cases hfirst
    · exact Iff.rfl
    · exact Iff.rfl
    · rw [cites_relate hrelate]
      simp only [edgesOf, List.filterMap_cons, Fact.edgeKey?, List.mem_cons]
      tauto

/-- Entities that no fact names stay as they were. -/
theorem entities_stateAll {facts : List Fact} (h : stateAll ev b facts = .ok b') {entityId : String}
    (hfacts : ∀ f ∈ facts, f.entityId? ≠ some entityId) (hev : entityId ≠ ev) :
    b'.entities.get entityId = b.entities.get entityId := by
  induction facts generalizing b with
  | nil =>
    cases h
    rfl
  | cons f facts ih =>
    obtain ⟨mid, hfirst, hrest⟩ := bind_eq_ok_iff.mp h
    obtain ⟨hf, hothers⟩ := List.forall_mem_cons.mp hfacts
    rw [ih hrest hothers]
    obtain ⟨_, _, _, _, e, rfl, hmake, rfl⟩ | ⟨_, _, _, _, _, w, e, rfl, hmake, hentity, rfl⟩ |
      ⟨_, _, _, r, rfl, hrelate⟩ := stateFact_cases hfirst
    · have hid := (BrainEntity.make_eq_ok hmake).1
      have hne : entityId ≠ e.entityId := fun heq => hf (by rw [heq, hid]; rfl)
      exact Table.get_put_of_ne _ hne
    · have hid := (BrainEntity.make_eq_ok hentity).1.trans (BrainEvidence.make_eq_ok hmake)
      have hne : entityId ≠ e.entityId := fun heq => hev (heq.trans hid)
      exact Table.get_put_of_ne _ hne
    · obtain ⟨-, -, -, -, rfl⟩ := relate_ok_iff.mp hrelate
      rfl

/-- Evidence other than the change's own stays as it was. -/
theorem evidence_stateAll {facts : List Fact} (h : stateAll ev b facts = .ok b') {evidenceId : String}
    (hev : evidenceId ≠ ev) : b'.evidence.get evidenceId = b.evidence.get evidenceId := by
  induction facts generalizing b with
  | nil =>
    cases h
    rfl
  | cons f facts ih =>
    obtain ⟨mid, hfirst, hrest⟩ := bind_eq_ok_iff.mp h
    rw [ih hrest]
    obtain ⟨_, _, _, _, e, rfl, hmake, rfl⟩ | ⟨_, _, _, _, _, w, e, rfl, hmake, hentity, rfl⟩ |
      ⟨_, _, _, r, rfl, hrelate⟩ := stateFact_cases hfirst
    · rfl
    · have hne : evidenceId ≠ w.evidenceId := fun heq => hev (heq.trans (BrainEvidence.make_eq_ok hmake))
      exact Table.get_put_of_ne _ hne
    · obtain ⟨-, -, -, -, rfl⟩ := relate_ok_iff.mp hrelate
      rfl

/-- An entity that a fact states is in the model as stated, when no other fact has its identifier. -/
theorem stated_entity {facts : List Fact} (h : stateAll ev b facts = .ok b') {entityId : String}
    {kind : EntityKind} {label : String} {attributes : List (String × String)}
    (hmem : .entity entityId kind label attributes ∈ facts)
    (hnodup : (facts.filterMap Fact.entityId?).Nodup) (hev : entityId ≠ ev) :
    ∃ e, BrainEntity.make entityId kind label attributes = .ok e ∧
      b'.entities.get entityId = some e := by
  induction facts generalizing b with
  | nil => cases hmem
  | cons f facts ih =>
    obtain ⟨mid, hfirst, hrest⟩ := bind_eq_ok_iff.mp h
    cases List.mem_cons.mp hmem with
    | inl heq =>
      subst heq
      obtain ⟨_, _, _, _, e, heq, hmake, rfl⟩ | ⟨_, _, _, _, _, _, _, heq, -⟩ | ⟨_, _, _, _, heq, -⟩ :=
        stateFact_cases hfirst
      · cases heq
        have hid := (BrainEntity.make_eq_ok hmake).1
        have hlater : ∀ f ∈ facts, f.entityId? ≠ some entityId := by
          intro f hf hsome
          have hnew := (List.nodup_cons.mp hnodup).1
          exact hnew (List.mem_filterMap.mpr ⟨f, hf, hsome⟩)
        refine ⟨e, hmake, ?_⟩
        rw [entities_stateAll hrest hlater hev, ← hid]
        exact Table.get_put_self _ _
      · cases heq
      · cases heq
    | inr htail =>
      refine ih hrest htail ?_
      cases hid : f.entityId? with
      | none => rwa [List.filterMap_cons_none hid] at hnodup
      | some i =>
        rw [List.filterMap_cons_some hid] at hnodup
        exact hnodup.of_cons

theorem evidence_of_none {facts : List Fact} (h : stateAll ev b facts = .ok b')
    (hfacts : ∀ f ∈ facts, f.isEvidence = false) : b'.evidence = b.evidence := by
  induction facts generalizing b with
  | nil =>
    cases h
    rfl
  | cons f facts ih =>
    obtain ⟨mid, hfirst, hrest⟩ := bind_eq_ok_iff.mp h
    obtain ⟨hf, hothers⟩ := List.forall_mem_cons.mp hfacts
    rw [ih hrest hothers]
    obtain ⟨_, _, _, _, e, rfl, -, rfl⟩ | ⟨_, _, _, _, _, w, e, rfl, -⟩ | ⟨_, _, _, r, rfl, hrelate⟩ :=
      stateFact_cases hfirst
    · rfl
    · cases hf
    · obtain ⟨-, -, -, -, rfl⟩ := relate_ok_iff.mp hrelate
      rfl

theorem entity_after_evidence {facts : List Fact} (h : stateAll ev b facts = .ok b')
    (hev : ∀ f ∈ facts, f.entityId? ≠ some ev) (hfacts : ∀ f ∈ facts, f.isEvidence = false) :
    b'.entities.get ev = b.entities.get ev := by
  induction facts generalizing b with
  | nil =>
    cases h
    rfl
  | cons f facts ih =>
    obtain ⟨mid, hfirst, hrest⟩ := bind_eq_ok_iff.mp h
    obtain ⟨hf, hothers⟩ := List.forall_mem_cons.mp hfacts
    obtain ⟨hid, hids⟩ := List.forall_mem_cons.mp hev
    rw [ih hrest hids hothers]
    obtain ⟨_, _, _, _, e, rfl, hmake, rfl⟩ | ⟨_, _, _, _, _, w, e, rfl, -⟩ |
      ⟨_, _, _, r, rfl, hrelate⟩ := stateFact_cases hfirst
    · have heq := (BrainEntity.make_eq_ok hmake).1
      exact Table.get_put_of_ne _ fun h => hid (by rw [h, heq]; rfl)
    · cases hf
    · obtain ⟨-, -, -, -, rfl⟩ := relate_ok_iff.mp hrelate
      rfl

/-- The evidence that a fact records is in the model, with its entity. -/
theorem stated_evidence {facts : List Fact} (h : stateAll ev b facts = .ok b')
    {sourceKind citation revision : String} {groups users : List String}
    (hmem : .evidence sourceKind citation revision groups users ∈ facts)
    (honce : (facts.filter Fact.isEvidence).length ≤ 1)
    (hev : ∀ f ∈ facts, f.entityId? ≠ some ev) :
    ∃ v e, BrainEvidence.make ev sourceKind citation revision groups users = .ok v ∧
      b'.evidence.get ev = some v ∧ evidenceEntity v = .ok e ∧ b'.entities.get ev = some e := by
  induction facts generalizing b with
  | nil => cases hmem
  | cons f facts ih =>
    obtain ⟨mid, hfirst, hrest⟩ := bind_eq_ok_iff.mp h
    cases List.mem_cons.mp hmem with
    | inl heq =>
      subst heq
      obtain ⟨_, _, _, _, _, heq, -⟩ | ⟨_, _, _, _, _, v, e, heq, hmake, hentity, rfl⟩ |
        ⟨_, _, _, _, heq, -⟩ := stateFact_cases hfirst
      · cases heq
      · cases heq
        have hid := BrainEvidence.make_eq_ok hmake
        have hid' := (BrainEntity.make_eq_ok hentity).1.trans hid
        have hnone : ∀ f ∈ facts, f.isEvidence = false := by
          intro f hf
          by_contra hevidence
          have hpos : 0 < (facts.filter Fact.isEvidence).length :=
            List.length_pos_of_mem (List.mem_filter.mpr ⟨hf, by simpa using hevidence⟩)
          simp only [List.filter_cons, Fact.isEvidence, if_true, List.length_cons] at honce
          omega
        have hlater : ∀ f ∈ facts, f.entityId? ≠ some ev := fun f hf =>
          hev f (List.mem_cons_of_mem _ hf)
        refine ⟨v, e, hmake, ?_, hentity, ?_⟩
        · rw [evidence_of_none hrest hnone, ← hid]
          exact Table.get_put_self _ _
        · rw [entity_after_evidence hrest hlater hnone, ← hid']
          exact Table.get_put_self _ _
      · cases heq
    | inr htail =>
      refine ih hrest htail ?_ fun f hf => hev f (List.mem_cons_of_mem _ hf)
      exact le_trans ((List.sublist_cons_self f facts).filter _).length_le honce

end

/-! ### Stating facts in a larger model -/

section
variable {ev : String} {b b' c : CompanyBrain}

/-- The texts an edge needs: two different identifiers and evidence short enough to be cited. -/
theorem relate_texts {sourceId targetId : String} {kind : RelationshipKind} {r : BrainRelationship}
    (h : b.relate sourceId targetId kind [ev] = .ok (b', r)) :
    required 500 sourceId = true ∧ required 500 targetId = true ∧ sourceId ≠ targetId ∧
      required 200 ev = true := by
  obtain ⟨-, -, -, hmake, -⟩ := relate_ok_iff.mp h
  obtain ⟨hsource, htarget, -, hids⟩ := BrainRelationship.make_eq_ok hmake
  obtain ⟨hs, ht, hne, -, hall⟩ := relationshipProblem_eq_none.mp r.valid
  rw [hsource] at hs hne
  rw [htarget] at ht hne
  exact ⟨hs, ht, hne, hall ev (by rw [hids, mem_sortedSet]; simp)⟩

/-- Two different identifiers that are present can be linked by evidence that is recorded. -/
theorem relate_present {sourceId targetId : String} (kind : RelationshipKind)
    (hsource : (b.entities.get sourceId).isSome = true)
    (htarget : (b.entities.get targetId).isSome = true)
    (hev : (b.evidence.get ev).isSome = true) (hs : required 500 sourceId = true)
    (ht : required 500 targetId = true) (hne : sourceId ≠ targetId) (h200 : required 200 ev = true) :
    ∃ b' r, b.relate sourceId targetId kind [ev] = .ok (b', r) := by
  have hvalid : relationshipProblem sourceId targetId (sortedSet ([ev] ++
      (b.related.get ⟨sourceId, kind, targetId⟩).elim [] (·.evidenceIds))) = none := by
    refine relationshipProblem_eq_none.mpr ⟨hs, ht, hne, pairwise_sortedSet _, fun v hv => ?_⟩
    rw [mem_sortedSet, List.mem_append, List.mem_singleton] at hv
    cases hv with
    | inl heq => rwa [heq]
    | inr hold =>
      cases hget : b.related.get ⟨sourceId, kind, targetId⟩ with
      | none => rw [hget] at hold; cases hold
      | some old =>
        rw [hget] at hold
        exact (relationshipProblem_eq_none.mp old.valid).2.2.2.2 v hold
  exact ⟨_, _, relate_ok_iff.mpr ⟨hsource, htarget, by simpa using hev,
    BrainRelationship.make_ok hvalid, rfl⟩⟩

end

/-! ### Declared edges -/

section
variable {ev : String} {b b' : CompanyBrain} {unresolved : List String}

/-- The declared edges whose named end the model has. -/
def resolved (b : CompanyBrain) (declared : List (String × String × Fact)) : List Fact :=
  (declared.filter fun d => (b.entities.get d.2.1).isSome).map (·.2.2)

theorem stateFact_edge {f : Fact} {k : EdgeKey} (hf : f.edgeKey? = some k)
    (h : stateFact ev b f = .ok b') : b'.entities = b.entities ∧ b'.evidence = b.evidence := by
  obtain ⟨_, _, _, _, _, rfl, -⟩ | ⟨_, _, _, _, _, _, _, rfl, -⟩ | ⟨_, _, _, _, rfl, hrelate⟩ :=
    stateFact_cases h
  · cases hf
  · cases hf
  · obtain ⟨-, -, -, -, rfl⟩ := relate_ok_iff.mp hrelate
    exact ⟨rfl, rfl⟩

/-- Declared edges are stated as far as their named ends are in the model. -/
theorem projectDeclared_ok {declared : List (String × String × Fact)}
    (hedges : ∀ d ∈ declared, ∃ k, d.2.2.edgeKey? = some k)
    (h : projectDeclared ev declared b = .ok (b', unresolved)) :
    stateAll ev b (resolved b declared) = .ok b' ∧ b'.entities = b.entities ∧
      b'.evidence = b.evidence := by
  induction declared generalizing b unresolved with
  | nil =>
    cases h
    exact ⟨rfl, rfl, rfl⟩
  | cons d declared ih =>
    obtain ⟨label, named, edge⟩ := d
    obtain ⟨⟨k, hk⟩, hrest⟩ := List.forall_mem_cons.mp hedges
    unfold projectDeclared at h
    split at h
    · next hsome =>
      split at h
      · cases h
      · next mid hfirst =>
        obtain ⟨hentities, hevidence⟩ := stateFact_edge hk hfirst
        obtain ⟨hall, hentities', hevidence'⟩ := ih hrest h
        refine ⟨?_, hentities'.trans hentities, hevidence'.trans hevidence⟩
        have hsame : resolved mid declared = resolved b declared := by
          simp only [resolved, hentities]
        rw [hsame] at hall
        simp only [resolved, List.filter_cons, hsome, if_true, List.map_cons]
        exact bind_eq_ok_iff.mpr ⟨mid, hfirst, hall⟩
    · next hnone =>
      split at h
      · cases h
      · next hdone =>
        cases h
        obtain ⟨hall, hentities, hevidence⟩ := ih hrest hdone
        refine ⟨?_, hentities, hevidence⟩
        have hskip : resolved b ((label, named, edge) :: declared) = resolved b declared := by
          simp only [resolved, List.filter_cons, hnone, if_false, Bool.false_eq_true]
        rw [hskip]
        exact hall

end

/-! ### Upserts -/

/-- An upsert as the in-memory projector sees it: what it states, the edges it declares, and the
identifiers it reports. -/
structure Upsert where
  facts : List Fact
  declared : List (String × String × Fact)
  entityIds : List String
  evidenceId : String
  aware : Bool

namespace Upsert

/-- The body that `project_file_change` and `project_knowledge_document` share. -/
def project (u : Upsert) (b : CompanyBrain) : Except BrainError (CompanyBrain × ProjectionResult) :=
  if u.aware = false then
    .error (.value "knowledge document updated_at must include a timezone")
  else
    match stateAll u.evidenceId b u.facts with
    | .error x => .error x
    | .ok b' =>
      match projectDeclared u.evidenceId u.declared b' with
      | .error x => .error x
      | .ok (b'', unresolved) =>
        .ok (b'', ⟨sortedBy id u.entityIds, u.evidenceId, sortedBy id unresolved, []⟩)

def ofFile (c : FileChange) : Upsert :=
  ⟨fileFacts c, [], fileEntityIds c, fileEvidenceId c, true⟩

def ofDocument (d : KnowledgeDocument) : Upsert :=
  ⟨knowledgeFacts d, declaredEdges d, knowledgeEntityIds d, knowledgeEvidenceId d, d.updatedAt.aware⟩

theorem projectFile_eq {c : FileChange} (h : c.changeType = .upsert) :
    projectFile c = (ofFile c).project := by
  funext b
  rw [projectFile, h]
  dsimp only [project, ofFile]
  rw [if_neg (by simp)]
  split <;> simp [*, projectDeclared, sortedBy]

theorem projectKnowledge_eq (d : KnowledgeDocument) : projectKnowledge d = (ofDocument d).project :=
  rfl

/-- The upsert describes this entity. -/
def Describes (u : Upsert) (e : BrainEntity) : Prop :=
  ∃ entityId kind label attributes, .entity entityId kind label attributes ∈ u.facts ∧
    BrainEntity.make entityId kind label attributes = .ok e

/-- The upsert records this evidence. -/
def Records (u : Upsert) (v : BrainEvidence) : Prop :=
  ∃ sourceKind citation revision groups users,
    .evidence sourceKind citation revision groups users ∈ u.facts ∧
    BrainEvidence.make u.evidenceId sourceKind citation revision groups users = .ok v

/-- The edges the upsert describes, given which entities there are: a declared edge counts when
the end it names is one of them or its own. -/
def edges (u : Upsert) (present : String → Bool) : List EdgeKey :=
  edgesOf u.facts ++ edgesOf ((u.declared.filter fun d =>
    d.2.1 ∈ u.entityIds || d.2.1 = u.evidenceId || present d.2.1).map (·.2.2))

/-- What the upserts of the two source kinds have in common. -/
structure Sound (u : Upsert) : Prop where
  ids : u.facts.filterMap Fact.entityId? = u.entityIds
  nodup : u.entityIds.Nodup
  kinds : ∀ entityId kind label attributes, .entity entityId kind label attributes ∈ u.facts →
    HasKind kind entityId ∧ kind ≠ .evidence
  evidenceKind : HasKind .evidence u.evidenceId
  records : ∃ sourceKind citation revision groups users,
    .evidence sourceKind citation revision groups users ∈ u.facts
  once : (u.facts.filter Fact.isEvidence).length ≤ 1
  declares : ∀ d ∈ u.declared, ∃ k, d.2.2.edgeKey? = some k

end Upsert

theorem hasKind_of_lead {kind : EntityKind} {entityId : String} (lead rest : String)
    (hlead : lead = kind.value ++ ":") (hid : entityId = lead ++ rest) : HasKind kind entityId :=
  ⟨rest, by rw [hid, hlead]⟩

theorem hasKind_repository (provider repository : String) :
    HasKind .repository (repositoryId provider repository) := by
  refine hasKind_of_lead "repository:" (provider ++ ":" ++ repository) (by decide) ?_
  unfold repositoryId
  simp only [String.append_assoc]

theorem hasKind_service (service : String) : HasKind .service (serviceId service) :=
  hasKind_of_lead "service:" service (by decide) rfl

theorem hasKind_owner (owner : String) : HasKind .owner (ownerId owner) :=
  hasKind_of_lead "owner:" owner (by decide) rfl

/-- The part of a file's identifiers that follows the kind. -/
def revisionText (c : FileChange) : String :=
  c.source.provider ++ ":" ++ c.source.repository ++ ":" ++ c.source.branch ++ ":" ++
    c.source.commitSha ++ ":" ++ c.source.path

theorem hasKind_change (c : FileChange) : HasKind .change (changeEntityId c) := by
  refine hasKind_of_lead "change:" (revisionText c) (by decide) ?_
  unfold changeEntityId revisionText
  simp only [String.append_assoc]

theorem hasKind_fileEvidence (c : FileChange) : HasKind .evidence (fileEvidenceId c) := by
  refine hasKind_of_lead "evidence:" (revisionText c) (by decide) ?_
  unfold fileEvidenceId revisionText
  simp only [String.append_assoc]

theorem hasKind_knowledgeEvidence (d : KnowledgeDocument) :
    HasKind .evidence (knowledgeEvidenceId d) := by
  refine hasKind_of_lead "evidence:" (d.identity.documentId ++ ":" ++ d.revision) (by decide) ?_
  unfold knowledgeEvidenceId
  simp only [String.append_assoc]

theorem hasKind_artifact (d : KnowledgeDocument) :
    HasKind (entityKind d.identity.sourceType) (artifactId d) :=
  ⟨d.identity.provider ++ ":" ++ d.identity.sourceId, by simp only [artifactId, String.append_assoc]⟩

/-- Identifiers of different kinds are different. -/
theorem nodup_of_kinds (entries : List (EntityKind × String)) (h : (entries.map (·.1)).Nodup)
    (hkinds : ∀ p ∈ entries, HasKind p.1 p.2) : (entries.map (·.2)).Nodup := by
  refine List.pairwise_map.mpr (List.Pairwise.imp_of_mem ?_ (List.pairwise_map.mp h))
  intro a b ha hb hne heq
  exact hne (hasKind_unique (hkinds a ha) (heq ▸ hkinds b hb))

theorem entityKind_ne (t : KnowledgeSourceType) :
    entityKind t ≠ .evidence ∧ entityKind t ≠ .service ∧ entityKind t ≠ .owner := by
  cases t <;> decide

/-- The kinds and identifiers of the entities a file change states. -/
def fileEntries (c : FileChange) : List (EntityKind × String) :=
  [(.repository, repositoryId c.source.provider c.source.repository), (.change, changeEntityId c)] ++
  match truthy c.service with
  | none => []
  | some service => (.service, serviceId service) ::
      ((truthy c.owner).map fun owner => (.owner, ownerId owner)).toList

def knowledgeEntries (d : KnowledgeDocument) : List (EntityKind × String) :=
  (entityKind d.identity.sourceType, artifactId d) ::
    ((truthy d.service).map fun service => (.service, serviceId service)).toList ++
    ((truthy d.owner).map fun owner => (.owner, ownerId owner)).toList

def Fact.entry? : Fact → Option (EntityKind × String)
  | entity entityId kind .. => some (kind, entityId)
  | _ => none

theorem fileFacts_entries (c : FileChange) : (fileFacts c).filterMap Fact.entry? = fileEntries c := by
  simp only [fileFacts, fileEntries]
  cases truthy c.service with
  | none => rfl
  | some service => cases truthy c.owner <;> rfl

theorem knowledgeFacts_entries (d : KnowledgeDocument) :
    (knowledgeFacts d).filterMap Fact.entry? = knowledgeEntries d := by
  simp only [knowledgeFacts, knowledgeEntries]
  cases truthy d.service <;> cases truthy d.owner <;> cases d.identity.sourceType <;> rfl

theorem fileEntries_ids (c : FileChange) : (fileEntries c).map (·.2) = fileEntityIds c := by
  simp only [fileEntries, fileEntityIds]
  cases truthy c.service with
  | none => rfl
  | some service => cases truthy c.owner <;> rfl

theorem knowledgeEntries_ids (d : KnowledgeDocument) :
    (knowledgeEntries d).map (·.2) = knowledgeEntityIds d := by
  simp only [knowledgeEntries, knowledgeEntityIds]
  cases truthy d.service <;> cases truthy d.owner <;> rfl

theorem fileEntries_kinds (c : FileChange) : ∀ p ∈ fileEntries c, HasKind p.1 p.2 := by
  have hrepo := hasKind_repository c.source.provider c.source.repository
  have hchange := hasKind_change c
  unfold fileEntries
  cases truthy c.service with
  | none => simp [hrepo, hchange]
  | some service =>
    have hservice := hasKind_service service
    cases truthy c.owner with
    | none => simp [hrepo, hchange, hservice]
    | some owner => simp [hrepo, hchange, hservice, hasKind_owner owner]

theorem knowledgeEntries_kinds (d : KnowledgeDocument) :
    ∀ p ∈ knowledgeEntries d, HasKind p.1 p.2 := by
  have hartifact := hasKind_artifact d
  unfold knowledgeEntries
  cases truthy d.service with
  | none => cases truthy d.owner <;> simp [hartifact, hasKind_owner]
  | some service => cases truthy d.owner <;> simp [hartifact, hasKind_owner, hasKind_service]

theorem fileEntries_nodup (c : FileChange) : ((fileEntries c).map (·.1)).Nodup := by
  unfold fileEntries
  cases truthy c.service with
  | none => simp
  | some service => cases truthy c.owner <;> simp

theorem knowledgeEntries_nodup (d : KnowledgeDocument) : ((knowledgeEntries d).map (·.1)).Nodup := by
  obtain ⟨-, hservice, howner⟩ := entityKind_ne d.identity.sourceType
  unfold knowledgeEntries
  cases truthy d.service <;> cases truthy d.owner <;> simp [hservice, howner]

theorem entityIds_eq_entries (facts : List Fact) :
    facts.filterMap Fact.entityId? = (facts.filterMap Fact.entry?).map (·.2) := by
  rw [List.map_filterMap]
  refine List.filterMap_congr fun f _ => ?_
  cases f <;> rfl

theorem mem_entries {facts : List Fact} {entityId label : String} {kind : EntityKind}
    {attributes : List (String × String)} (h : .entity entityId kind label attributes ∈ facts) :
    (kind, entityId) ∈ facts.filterMap Fact.entry? :=
  List.mem_filterMap.mpr ⟨_, h, rfl⟩

namespace Upsert

theorem sound_file (c : FileChange) : (ofFile c).Sound where
  ids := by rw [entityIds_eq_entries, ofFile, fileFacts_entries, fileEntries_ids]
  nodup := by
    rw [ofFile, ← fileEntries_ids]
    exact nodup_of_kinds _ (fileEntries_nodup c) (fileEntries_kinds c)
  kinds entityId kind label attributes hmem := by
    have hentry := mem_entries hmem
    rw [ofFile, fileFacts_entries] at hentry
    refine ⟨fileEntries_kinds c _ hentry, ?_⟩
    rintro rfl
    revert hentry
    unfold fileEntries
    cases truthy c.service with
    | none => simp
    | some service => cases truthy c.owner <;> simp
  evidenceKind := hasKind_fileEvidence c
  records := ⟨_, _, _, _, _, List.mem_append_left _
    (List.mem_cons_of_mem _ (List.mem_cons_of_mem _ List.mem_cons_self))⟩
  once := by
    simp only [ofFile, fileFacts]
    cases truthy c.service with
    | none => exact le_refl 1
    | some service => cases truthy c.owner <;> exact le_refl 1
  declares := by simp [ofFile]

theorem sound_document (d : KnowledgeDocument) : (ofDocument d).Sound where
  ids := by rw [entityIds_eq_entries, ofDocument, knowledgeFacts_entries, knowledgeEntries_ids]
  nodup := by
    rw [ofDocument, ← knowledgeEntries_ids]
    exact nodup_of_kinds _ (knowledgeEntries_nodup d) (knowledgeEntries_kinds d)
  kinds entityId kind label attributes hmem := by
    have hentry := mem_entries hmem
    rw [ofDocument, knowledgeFacts_entries] at hentry
    refine ⟨knowledgeEntries_kinds d _ hentry, ?_⟩
    rintro rfl
    have hne := (entityKind_ne d.identity.sourceType).1
    revert hentry
    unfold knowledgeEntries
    cases truthy d.service <;> cases truthy d.owner <;> simp [hne.symm]
  evidenceKind := hasKind_knowledgeEvidence d
  records := ⟨_, _, _, _, _, List.mem_append_left _ (List.mem_append_left _
    (List.mem_cons_of_mem _ List.mem_cons_self))⟩
  once := by
    simp only [ofDocument, knowledgeFacts]
    cases truthy d.service <;> cases truthy d.owner <;> cases d.identity.sourceType <;>
      exact le_refl 1
  declares := by
    intro p hp
    simp only [ofDocument, declaredEdges] at hp
    split at hp
    · simp only [List.mem_append, Option.mem_toList, Option.map_eq_some_iff] at hp
      obtain ⟨cause, -, rfl⟩ | ⟨resolution, -, rfl⟩ := hp
      · exact ⟨_, rfl⟩
      · exact ⟨_, rfl⟩
    · cases hp

/-- What the model holds after an upsert has been projected into it. -/
structure Projected (u : Upsert) (b b' : CompanyBrain) : Prop where
  describes : ∀ e, u.Describes e → b'.entities.get e.entityId = some e
  described : ∀ id ∈ u.entityIds, ∃ e, u.Describes e ∧ e.entityId = id
  entities : ∀ id, id ∉ u.entityIds → id ≠ u.evidenceId →
    b'.entities.get id = b.entities.get id
  records : ∃ v e, u.Records v ∧ b'.evidence.get u.evidenceId = some v ∧
    evidenceEntity v = .ok e ∧ b'.entities.get u.evidenceId = some e
  evidence : ∀ id, id ≠ u.evidenceId → b'.evidence.get id = b.evidence.get id
  cites : ∀ k v, Cites b' k v ↔ Cites b k v ∨
    v = u.evidenceId ∧ k ∈ u.edges fun id => (b.entities.get id).isSome

theorem Sound.ne_evidence {u : Upsert} (h : u.Sound) {id : String} (hid : id ∈ u.entityIds) :
    id ≠ u.evidenceId := by
  rw [← h.ids] at hid
  obtain ⟨f, hf, hsome⟩ := List.mem_filterMap.mp hid
  cases f with
  | entity entityId kind label attributes =>
    cases hsome
    obtain ⟨hkind, hne⟩ := h.kinds _ _ _ _ hf
    intro heq
    exact hne (hasKind_unique hkind (heq ▸ h.evidenceKind))
  | evidence => cases hsome
  | edge => cases hsome

theorem Sound.not_stated {u : Upsert} (h : u.Sound) {id : String} (hid : id ∉ u.entityIds) :
    ∀ f ∈ u.facts, f.entityId? ≠ some id := by
  intro f hf hsome
  rw [← h.ids] at hid
  exact hid (List.mem_filterMap.mpr ⟨f, hf, hsome⟩)

/-- The specification of a projection that goes through. -/
theorem project_ok {u : Upsert} (h : u.Sound) {b b' : CompanyBrain} {result : ProjectionResult}
    (hproject : u.project b = .ok (b', result)) :
    result.entityIds = sortedBy id u.entityIds ∧ result.evidenceId = u.evidenceId ∧
      u.Projected b b' := by
  unfold project at hproject
  rw [ite_error_eq_ok_iff] at hproject
  replace hproject := hproject.2
  split at hproject
  · cases hproject
  next mid hmid =>
  split at hproject
  · cases hproject
  next hdeclared =>
  cases hproject
  obtain ⟨hall, hentities, hevidence⟩ := projectDeclared_ok h.declares hdeclared
  have hnodup : (u.facts.filterMap Fact.entityId?).Nodup := h.ids ▸ h.nodup
  have hev : ∀ f ∈ u.facts, f.entityId? ≠ some u.evidenceId :=
    h.not_stated fun hmem => h.ne_evidence hmem rfl
  obtain ⟨_, _, _, _, _, hfact⟩ := h.records
  obtain ⟨v, e, hmake, hget, hentity, hget'⟩ := stated_evidence hmid hfact h.once hev
  have hmem : ∀ e, u.Describes e → mid.entities.get e.entityId = some e ∧ e.entityId ∈ u.entityIds := by
    rintro e ⟨entityId, kind, label, attributes, hmem, hmake⟩
    have hid := (BrainEntity.make_eq_ok hmake).1
    have hin : entityId ∈ u.entityIds := by
      rw [← h.ids]
      exact List.mem_filterMap.mpr ⟨_, hmem, rfl⟩
    obtain ⟨e', hmake', hget⟩ := stated_entity hmid hmem hnodup (h.ne_evidence hin)
    rw [hmake] at hmake'
    cases hmake'
    rw [hid]
    exact ⟨hget, hin⟩
  have hothers : ∀ id, id ∉ u.entityIds → id ≠ u.evidenceId →
      mid.entities.get id = b.entities.get id := fun id hid hne =>
    entities_stateAll hmid (h.not_stated hid) hne
  refine ⟨rfl, rfl, fun e he => ?_, fun id hid => ?_, fun id hid hne => ?_, ?_, fun id hne => ?_,
    fun k v => ?_⟩
  · rw [hentities]
    exact (hmem e he).1
  · rw [← h.ids] at hid
    obtain ⟨f, hf, hsome⟩ := List.mem_filterMap.mp hid
    cases f with
    | entity entityId kind label attributes =>
      cases hsome
      have hin : id ∈ u.entityIds := by rwa [← h.ids]
      obtain ⟨e, hmake, -⟩ := stated_entity hmid hf hnodup (h.ne_evidence hin)
      exact ⟨e, ⟨_, _, _, _, hf, hmake⟩, (BrainEntity.make_eq_ok hmake).1⟩
    | evidence => cases hsome
    | edge => cases hsome
  · rw [hentities]
    exact hothers id hid hne
  · rw [hentities, hevidence]
    exact ⟨v, e, ⟨_, _, _, _, _, hfact, hmake⟩, hget, hentity, hget'⟩
  · rw [hevidence]
    exact evidence_stateAll hmid hne
  · have hpresent : ∀ id, (mid.entities.get id).isSome =
        (id ∈ u.entityIds || id = u.evidenceId || (b.entities.get id).isSome : Bool) := by
      intro id
      by_cases hid : id ∈ u.entityIds
      · have hfound := hid
        rw [← h.ids] at hfound
        obtain ⟨f, hf, hsome⟩ := List.mem_filterMap.mp hfound
        cases f with
        | entity entityId kind label attributes =>
          cases hsome
          obtain ⟨e, -, hgot⟩ := stated_entity hmid hf hnodup (h.ne_evidence hid)
          simp [hgot, hid]
        | evidence => cases hsome
        | edge => cases hsome
      · by_cases hne : id = u.evidenceId
        · subst hne
          simp [hget']
        · simp [hothers id hid hne, hid, hne]
    have hresolved : edgesOf (resolved mid u.declared) = edgesOf ((u.declared.filter fun d =>
        d.2.1 ∈ u.entityIds || d.2.1 = u.evidenceId || (b.entities.get d.2.1).isSome).map
          (·.2.2)) := by
      simp only [resolved, hpresent]
    rw [cites_stateAll hall, cites_stateAll hmid, hresolved]
    simp only [edges, List.mem_append]
    tauto

end Upsert

end EngineeringIntelligence.CompanyBrain
