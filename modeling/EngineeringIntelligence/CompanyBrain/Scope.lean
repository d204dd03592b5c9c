import EngineeringIntelligence.CompanyBrain.Snapshot
import EngineeringIntelligence.CompanyBrain.WorldModel

namespace EngineeringIntelligence.CompanyBrain

open EngineeringIntelligence.Framework

/-! What a change concerns: the services that rest on the changed ones, and who owns them. -/

/-- What is asserted of a tenant: what each entity is, and which relationships are well enough
supported. -/
structure Asserted where
  kindOf : String → Option EntityKind
  Supported : EdgeKey → Prop

namespace Asserted

variable (a : Asserted) (repositoryId : String) (requested : List String)

/-- A relationship decisions may rest on: supported, and not one of two services that depend on
each other. -/
def Relied (k : EdgeKey) : Prop := a.Supported k ∧ ¬ (k.kind = .dependsOn ∧ a.Supported k.reverse)

def Member (x : String) : Prop := a.Relied ⟨x, .belongsTo, repositoryId⟩ ∧ a.kindOf x = some .service

def DependsOn (x y : String) : Prop :=
  a.Relied ⟨x, .dependsOn, y⟩ ∧ a.kindOf x = some .service ∧ a.kindOf y = some .service

/-- A service the change may reach: a changed one of the repository, or one that depends on such a
service, over any number of steps. -/
def Affected (x : String) : Prop :=
  ∃ c ∈ requested, a.Member repositoryId c ∧ Relation.ReflTransGen (fun y z => a.DependsOn z y) c x

def Owner (o : String) : Prop :=
  (∃ x, a.Affected repositoryId requested x ∧ a.Relied ⟨o, .owns, x⟩) ∧
    (a.kindOf o = some .owner ∨ a.kindOf o = some .team)

def InScope (x : String) : Prop :=
  x = repositoryId ∨ a.Affected repositoryId requested x ∨ a.Owner repositoryId requested x

end Asserted

/-! ### Dictionaries -/

section
variable {ρ : Type} {key : ρ → String} {values : List ρ}

theorem get_dictOf (h : (values.map key).Nodup) {k : String} {r : ρ} :
    (dictOf values : Table key).get k = some r ↔ r ∈ values ∧ key r = k :=
  Table.get_foldl_put h

theorem mem_rows_dictOf {r : ρ} (h : r ∈ (dictOf values : Table key).rows) : r ∈ values := by
  have hmem : ∀ (xs : List ρ) (t : Table key), r ∈ (xs.foldl Table.put t).rows → r ∈ t.rows ∨ r ∈ xs := by
    intro xs
    induction xs with
    | nil => exact fun t hr => .inl hr
    | cons x xs ih =>
      intro t hr
      obtain hput | hrest := ih (t.put x) hr
      · obtain rfl | ⟨hold, -⟩ := Table.mem_put.mp hput
        · exact .inr List.mem_cons_self
        · exact .inl hold
      · exact .inr (List.mem_cons_of_mem x hrest)
  obtain hempty | hvalue := hmem values Table.empty h
  · cases hempty
  · exact hvalue

end

theorem rows_byKey {assessments : List RelationshipQualification}
    (h : (assessments.map RelationshipQualification.key).Nodup) :
    (assessments.foldl Table.put (Table.empty : RelationshipDict)).rows = assessments := by
  rw [Table.rows_foldl_put (by simpa [Table.empty] using h)]
  rfl

@[simp] theorem qualifyEntity_entity (entity : BrainEntity) (relationships : RelationshipDict) :
    (qualifyEntity entity relationships).entity = entity := by
  unfold qualifyEntity
  dsimp only
  split
  · rfl
  · split <;> rfl

theorem kindOf_eq_some {entities : EntityDict} {id : String} {kind : EntityKind} :
    entities.kindOf id = some kind ↔ ∃ e, Table.get entities id = some e ∧ e.kind = kind :=
  Option.map_eq_some_iff

/-! ### Support -/

section
variable (policy : WorldModelPolicy) (evidence : EvidenceDict) (principal : BrainPrincipal) (now : Int)

/-- The evidence of a relationship a principal may see, qualified. -/
def seenEvidence (r : BrainRelationship) : List EvidenceQualification :=
  r.evidenceIds.filterMap fun id =>
    ((evidence.get id).filter (·.record.visibleTo principal)).map (policy.qualifyEvidence now)

/-- Fresh evidence the principal may see adds up to the confidence a decision needs. -/
def Supports (seen : List EvidenceQualification) : Prop :=
  freshConfidences seen ≠ [] ∧ policy.minimumConfidence ≤ combineConfidence (freshConfidences seen)

def asserted (entities : EntityDict) (relationships : List BrainRelationship) : Asserted where
  kindOf := entities.kindOf
  Supported k := ∃ r ∈ relationships, r.key = k ∧ Supports policy (seenEvidence policy evidence principal now r)

end

section
variable {policy : WorldModelPolicy} {evidence : EvidenceDict} {principal : BrainPrincipal} {now : Int}

theorem authorized_eq (ids : List String) :
    ((ids.filterMap evidence.get).filter (·.record.visibleTo principal)).map (policy.qualifyEvidence now) =
      ids.filterMap fun id =>
        ((evidence.get id).filter (·.record.visibleTo principal)).map (policy.qualifyEvidence now) := by
  rw [List.filter_filterMap, List.map_filterMap]

@[simp] theorem qualifyRelationship_relationship (r : BrainRelationship) :
    (policy.qualifyRelationship evidence principal now r).relationship = r := by
  unfold WorldModelPolicy.qualifyRelationship
  dsimp only
  split
  · rfl
  · split <;> rfl

@[simp] theorem qualifyRelationship_evidence (r : BrainRelationship) :
    (policy.qualifyRelationship evidence principal now r).evidence =
      seenEvidence policy evidence principal now r := by
  unfold WorldModelPolicy.qualifyRelationship seenEvidence
  dsimp only
  rw [authorized_eq]
  split
  · next h => rw [h]
  · split <;> rfl

theorem qualifyRelationship_usable (r : BrainRelationship) :
    (policy.qualifyRelationship evidence principal now r).usable = true ↔
      Supports policy (seenEvidence policy evidence principal now r) := by
  unfold WorldModelPolicy.qualifyRelationship Supports seenEvidence
  dsimp only
  rw [authorized_eq]
  split
  · next h => simp [h, freshConfidences]
  · split
    · next h => simp [h]
    · next h => simp [h]

theorem qualifyRelationship_fresh {r : BrainRelationship}
    (h : Supports policy (seenEvidence policy evidence principal now r)) :
    (policy.qualifyRelationship evidence principal now r).freshness = .fresh ∧
      (policy.qualifyRelationship evidence principal now r).confidence =
        combineConfidence (freshConfidences (seenEvidence policy evidence principal now r)) := by
  obtain ⟨hfresh, -⟩ := h
  have hsome : seenEvidence policy evidence principal now r ≠ [] := by
    intro hnone
    rw [hnone] at hfresh
    exact hfresh rfl
  unfold seenEvidence at hfresh hsome ⊢
  unfold WorldModelPolicy.qualifyRelationship
  dsimp only
  rw [authorized_eq, if_neg hsome, if_neg hfresh]
  exact ⟨rfl, rfl⟩

end

/-! ### Conflicts -/

section
variable {assessments : List RelationshipQualification} {entities : EntityDict}

@[simp] theorem EdgeKey.reverse_reverse {k : EdgeKey} (h : k.kind = .dependsOn) : k.reverse.reverse = k := by
  cases k
  simp_all [EdgeKey.reverse]

/-- The relationship with a key is usable. -/
def usableAt (assessments : List RelationshipQualification) (k : EdgeKey) : Prop :=
  ∃ item ∈ assessments, item.key = k ∧ item.usable = true

theorem usableAt_iff (h : (assessments.map RelationshipQualification.key).Nodup) {k : EdgeKey} :
    ((assessments.foldl Table.put (Table.empty : RelationshipDict)).get k).all (!·.usable) = false ↔
      usableAt assessments k := by
  cases hget : (assessments.foldl Table.put (Table.empty : RelationshipDict)).get k with
  | none =>
    refine iff_of_false (by simp) ?_
    rintro ⟨item, hitem, hkey, -⟩
    have hsome := (Table.get_foldl_put h).mpr ⟨hitem, hkey⟩
    rw [hget] at hsome
    cases hsome
  | some found =>
    obtain ⟨hfound, hkey⟩ := (Table.get_foldl_put h).mp hget
    simp only [Option.all_some, Bool.not_eq_false']
    constructor
    · exact fun husable => ⟨found, hfound, hkey, husable⟩
    · rintro ⟨item, hitem, hkey', husable⟩
      rw [List.inj_on_of_nodup_map h hfound hitem (hkey.trans hkey'.symm)]
      exact husable

/-- Where an assessment is the first edge of a cycle, and what the cycle then is. -/
theorem cycleOf_eq_some (h : (assessments.map RelationshipQualification.key).Nodup)
    (item : RelationshipQualification) {conflict : WorldModelConflict} :
    cycleOf (assessments.foldl Table.put Table.empty) item = some conflict ↔
      (item.key.kind = .dependsOn ∧ item.usable = true ∧ usableAt assessments item.key.reverse ∧
        ¬ item.key.reverse.order < item.key.order) ∧
        conflict = ⟨"dependency-cycle:" ++ ":".intercalate (sortedBy id [item.key.sourceId, item.key.targetId]),
          .dependencyCycle, sortedBy id [item.key.sourceId, item.key.targetId],
          sortedBy EdgeKey.order [item.key, item.key.reverse],
          "A direct dependency cycle has conflicting decision semantics and is excluded."⟩ := by
  unfold cycleOf
  dsimp only
  by_cases hfirst : item.key.kind = .dependsOn ∧ item.usable = true
  · obtain ⟨hkind, husable⟩ := hfirst
    rw [if_neg (by simp [hkind, husable])]
    by_cases hsecond : usableAt assessments item.key.reverse ∧ ¬ item.key.reverse.order < item.key.order
    · obtain ⟨hreverse, horder⟩ := hsecond
      rw [if_neg (by rw [not_or, Bool.not_eq_true]; exact ⟨(usableAt_iff h).mpr hreverse, horder⟩)]
      rw [Option.some.injEq, eq_comm]
      exact (and_iff_right ⟨hkind, husable, hreverse, horder⟩).symm
    · rw [if_pos, iff_false_left (by simp)]
      · rintro ⟨⟨-, -, hboth⟩, -⟩
        exact hsecond hboth
      · by_contra hnot
        rw [not_or, Bool.not_eq_true] at hnot
        exact hsecond ⟨(usableAt_iff h).mp hnot.1, hnot.2⟩
  · rw [if_pos]
    · refine iff_of_false (by simp) ?_
      rintro ⟨⟨hkind, husable, -⟩, -⟩
      exact hfirst ⟨hkind, husable⟩
    · by_contra hnot
      rw [not_or, not_not, Bool.not_eq_false] at hnot
      exact hfirst hnot

theorem mem_cycleKeys (h : (assessments.map RelationshipQualification.key).Nodup) {k : EdgeKey} :
    k ∈ (assessments.filterMap (cycleOf (assessments.foldl Table.put Table.empty))).flatMap
        (·.relationshipKeys) ↔
      k.kind = .dependsOn ∧ usableAt assessments k ∧ usableAt assessments k.reverse := by
  rw [List.mem_flatMap]
  constructor
  · rintro ⟨conflict, hconflict, hk⟩
    obtain ⟨item, hitem, hcycle⟩ := List.mem_filterMap.mp hconflict
    obtain ⟨⟨hkind, husable, hreverse, -⟩, rfl⟩ := (cycleOf_eq_some h item).mp hcycle
    have hhere : usableAt assessments item.key := ⟨item, hitem, rfl, husable⟩
    simp only [mem_sortedBy, List.mem_cons, List.not_mem_nil, or_false] at hk
    obtain rfl | rfl := hk
    · exact ⟨hkind, hhere, hreverse⟩
    · rw [EdgeKey.reverse_reverse hkind]
      exact ⟨rfl, hreverse, hhere⟩
  · rintro ⟨hkind, hhere, hthere⟩
    by_cases horder : k.reverse.order < k.order
    · obtain ⟨item, hitem, hkey, husable⟩ := hthere
      have hreverse : item.key.reverse = k := by rw [hkey, EdgeKey.reverse_reverse hkind]
      have hcycle := (cycleOf_eq_some h item).mpr ⟨⟨by rw [hkey]; rfl, husable,
        by rwa [hreverse], by rw [hreverse, hkey]; exact lt_asymm horder⟩, rfl⟩
      refine ⟨_, List.mem_filterMap.mpr ⟨item, hitem, hcycle⟩, ?_⟩
      simp [hreverse]
    · obtain ⟨item, hitem, rfl, husable⟩ := hhere
      have hcycle := (cycleOf_eq_some h item).mpr ⟨⟨hkind, husable, hthere, horder⟩, rfl⟩
      refine ⟨_, List.mem_filterMap.mpr ⟨item, hitem, hcycle⟩, ?_⟩
      simp

/-- The conflicts between some assessments, cycles first. -/
def conflictsAmong (assessments : List RelationshipQualification) (entities : EntityDict) :
    List WorldModelConflict :=
  assessments.filterMap (cycleOf (assessments.foldl Table.put Table.empty)) ++
    (sortedSet ((assessments.filter (ownsSomething entities)).map (·.relationship.targetId))).filterMap
      (ownershipOf (assessments.filter (ownsSomething entities)))

/-- An assessment once the conflicts are known. -/
def withConflicts (assessments : List RelationshipQualification) (entities : EntityDict)
    (item : RelationshipQualification) : RelationshipQualification :=
  { item with
    usable := if item.key ∈ (assessments.filterMap (cycleOf (assessments.foldl Table.put Table.empty))).flatMap
      (·.relationshipKeys) then false else item.usable
    conflicts := sortedBy id (conflictIdsAt (conflictsAmong assessments entities) item.key) }

theorem detectConflicts_eq (entities : EntityDict) (h : (assessments.map RelationshipQualification.key).Nodup) :
    detectConflicts assessments entities =
      (assessments.map (withConflicts assessments entities),
        sortedBy (·.conflictId) (conflictsAmong assessments entities)) := by
  unfold detectConflicts
  dsimp only
  rw [rows_byKey h]
  rfl

@[simp] theorem withConflicts_key (item : RelationshipQualification) :
    (withConflicts assessments entities item).key = item.key := rfl

theorem withConflicts_usable (h : (assessments.map RelationshipQualification.key).Nodup)
    {item : RelationshipQualification} (hitem : item ∈ assessments) :
    (withConflicts assessments entities item).usable = true ↔
      item.usable = true ∧ ¬ (item.key.kind = .dependsOn ∧ usableAt assessments item.key.reverse) := by
  unfold withConflicts
  dsimp only
  split
  · next hcycle =>
    obtain ⟨hkind, -, hreverse⟩ := (mem_cycleKeys h).mp hcycle
    refine iff_of_false (by simp) ?_
    rintro ⟨-, hnot⟩
    exact hnot ⟨hkind, hreverse⟩
  · next hcycle =>
    refine (and_iff_left_of_imp ?_).symm
    rintro husable ⟨hkind, hreverse⟩
    exact hcycle ((mem_cycleKeys h).mpr ⟨hkind, ⟨item, hitem, rfl, husable⟩, hreverse⟩)

theorem usableAt_withConflicts (h : (assessments.map RelationshipQualification.key).Nodup) {k : EdgeKey} :
    usableAt (assessments.map (withConflicts assessments entities)) k ↔
      usableAt assessments k ∧ ¬ (k.kind = .dependsOn ∧ usableAt assessments k.reverse) := by
  constructor
  · rintro ⟨item', hitem', hkey, husable⟩
    obtain ⟨item, hitem, rfl⟩ := List.mem_map.mp hitem'
    obtain ⟨hfirst, hnot⟩ := (withConflicts_usable h hitem).mp husable
    rw [withConflicts_key] at hkey
    subst hkey
    exact ⟨⟨item, hitem, rfl, hfirst⟩, hnot⟩
  · rintro ⟨⟨item, hitem, rfl, husable⟩, hnot⟩
    exact ⟨_, List.mem_map_of_mem hitem, rfl, (withConflicts_usable h hitem).mpr ⟨husable, hnot⟩⟩

/-! ### What the query covers -/

theorem mem_repositoryServices {repositoryId x : String} :
    x ∈ repositoryServices repositoryId assessments entities ↔
      usableAt assessments ⟨x, .belongsTo, repositoryId⟩ ∧ entities.kindOf x = some .service := by
  simp only [repositoryServices, List.mem_map, List.mem_filter, Bool.and_eq_true, decide_eq_true_eq]
  constructor
  · rintro ⟨item, ⟨hitem, ⟨⟨husable, hkind⟩, htarget⟩, hservice⟩, rfl⟩
    refine ⟨⟨item, hitem, ?_, husable⟩, by simpa using hservice⟩
    simp [RelationshipQualification.key, BrainRelationship.key, hkind, htarget]
  · rintro ⟨⟨item, hitem, hkey, husable⟩, hservice⟩
    obtain ⟨rfl, hkind, htarget⟩ := EdgeKey.mk.inj hkey
    exact ⟨item, ⟨hitem, ⟨⟨husable, hkind⟩, htarget⟩, by simpa using hservice⟩, rfl⟩

theorem mem_dependents {x y : String} :
    x ∈ dependents assessments entities y ↔
      usableAt assessments ⟨x, .dependsOn, y⟩ ∧ entities.kindOf x = some .service ∧
        entities.kindOf y = some .service := by
  simp only [dependents, mem_sortedSet, List.mem_map, List.mem_filter, serviceDependency, Bool.and_eq_true,
    decide_eq_true_eq]
  constructor
  · rintro ⟨item, ⟨hitem, ⟨⟨⟨husable, hkind⟩, hsource⟩, hservice⟩, htarget⟩, rfl⟩
    rw [htarget] at hservice
    refine ⟨⟨item, hitem, ?_, husable⟩, hsource, hservice⟩
    simp [RelationshipQualification.key, BrainRelationship.key, hkind, htarget]
  · rintro ⟨⟨item, hitem, hkey, husable⟩, hsource, hservice⟩
    obtain ⟨rfl, hkind, rfl⟩ := EdgeKey.mk.inj hkey
    exact ⟨item, ⟨hitem, ⟨⟨⟨husable, hkind⟩, hsource⟩, hservice⟩, rfl⟩, rfl⟩

theorem mem_blastRadius {changed : List String} {x : String} :
    x ∈ blastRadius changed assessments entities ↔
      ∃ c ∈ changed, Relation.ReflTransGen (fun y z => usableAt assessments ⟨z, .dependsOn, y⟩ ∧
        entities.kindOf z = some .service ∧ entities.kindOf y = some .service) c x := by
  have hnodes : ∀ y, ∀ z ∈ dependents assessments entities y,
      z ∈ assessments.map (·.relationship.sourceId) := by
    intro y z hz
    obtain ⟨⟨item, hitem, hkey, -⟩, -⟩ := mem_dependents.mp hz
    exact List.mem_map.mpr ⟨item, hitem, (EdgeKey.mk.inj hkey).1⟩
  rw [blastRadius, mem_sortedSet, mem_worklist hnodes (fun z => List.mem_reverse) (by simp)]
  have hstep : (fun y z => z ∈ dependents assessments entities y) =
      fun y z => usableAt assessments ⟨z, .dependsOn, y⟩ ∧ entities.kindOf z = some .service ∧
        entities.kindOf y = some .service := by
    funext y z
    exact propext mem_dependents
  rw [hstep]

theorem blastRadius_increasing (changed : List String) (assessments : List RelationshipQualification)
    (entities : EntityDict) : (blastRadius changed assessments entities).Pairwise (· < ·) :=
  pairwise_sortedSet _

theorem ownerIds_increasing (radius : List String) (assessments : List RelationshipQualification)
    (entities : EntityDict) : (ownerIds radius assessments entities).Pairwise (· < ·) :=
  pairwise_sortedSet _

theorem mem_ownerIds {radius : List String} {o : String} :
    o ∈ ownerIds radius assessments entities ↔
      (∃ x ∈ radius, usableAt assessments ⟨o, .owns, x⟩) ∧
        (entities.kindOf o = some .owner ∨ entities.kindOf o = some .team) := by
  simp only [ownerIds, mem_sortedSet, List.mem_map, List.mem_filter, ownsSomething, Bool.and_eq_true,
    Bool.or_eq_true, decide_eq_true_eq]
  constructor
  · rintro ⟨item, ⟨hitem, ⟨⟨hkind, husable⟩, howner⟩, hradius⟩, rfl⟩
    refine ⟨⟨item.relationship.targetId, hradius, item, hitem, ?_, husable⟩, howner⟩
    simp [RelationshipQualification.key, BrainRelationship.key, hkind]
  · rintro ⟨⟨x, hx, item, hitem, hkey, husable⟩, howner⟩
    obtain ⟨rfl, hkind, rfl⟩ := EdgeKey.mk.inj hkey
    exact ⟨item, ⟨hitem, ⟨⟨hkind, husable⟩, howner⟩, hx⟩, rfl⟩

end

/-! ### The context -/

/-- The entities a context is about. -/
def QualifiedWorldModelContext.scope (context : QualifiedWorldModelContext) : List String :=
  sortedSet (context.repositoryId :: (context.changedServices ++ context.blastRadius ++ context.ownerIds))

section
variable (model : WorldModel) (query : ChangeQuery) (entities : EntityDict) (evidence : EvidenceDict)
  (relationships : List BrainRelationship) (now : Int)

/-- The relationships as they are first qualified. -/
def assessed : List RelationshipQualification :=
  relationships.map (model.policy.qualifyRelationship evidence query.principal now)

/-- The relationships once conflicts are known. -/
def settled : List RelationshipQualification :=
  (assessed model query evidence relationships now).map
    (withConflicts (assessed model query evidence relationships now) entities)

/-- What a context is made of. -/
structure Assembled (context : QualifiedWorldModelContext) : Prop where
  repositoryId : context.repositoryId = query.repositoryId
  changedServices : context.changedServices = (sortedSet query.changedServices).filter
    (· ∈ repositoryServices query.repositoryId (settled model query entities evidence relationships now) entities)
  blastRadius : context.blastRadius = CompanyBrain.blastRadius context.changedServices
    (settled model query entities evidence relationships now) entities
  ownerIds : context.ownerIds = CompanyBrain.ownerIds context.blastRadius
    (settled model query entities evidence relationships now) entities
  confidence : context.confidence = weakest context.relationships
  described : context.entities = context.scope.filterMap fun id => (Table.get entities id).map
    (qualifyEntity · ((settled model query entities evidence relationships now).foldl Table.put Table.empty))
  relevant : context.relationships =
    (settled model query entities evidence relationships now).filter (·.touches context.scope)
  cited : context.evidence = deduplicateEvidence (context.relationships.flatMap (·.evidence))
  conflicts : context.conflicts = (sortedBy (·.conflictId)
    (conflictsAmong (assessed model query evidence relationships now) entities)).filter
      (·.entityIds.any (· ∈ context.scope))

end

section
variable {model : WorldModel} {query : ChangeQuery} {entities : EntityDict} {evidence : EvidenceDict}
  {relationships : List BrainRelationship} {now : Int}

@[simp] theorem assessed_keys (model : WorldModel) (query : ChangeQuery) (evidence : EvidenceDict)
    (relationships : List BrainRelationship) (now : Int) : (assessed model query evidence relationships now).map
    RelationshipQualification.key = relationships.map BrainRelationship.key := by
  simp [assessed, RelationshipQualification.key, Function.comp_def]

@[simp] theorem settled_keys : (settled model query entities evidence relationships now).map
    RelationshipQualification.key = relationships.map BrainRelationship.key := by
  rw [settled, List.map_map, ← assessed_keys model query evidence relationships now]
  rfl

theorem usableAt_assessed (entities : EntityDict) {k : EdgeKey} :
    usableAt (assessed model query evidence relationships now) k ↔
      (asserted model.policy evidence query.principal now entities relationships).Supported k := by
  constructor
  · rintro ⟨item, hitem, hkey, husable⟩
    obtain ⟨r, hr, rfl⟩ := List.mem_map.mp hitem
    refine ⟨r, hr, ?_, (qualifyRelationship_usable r).mp husable⟩
    rw [← hkey, RelationshipQualification.key, qualifyRelationship_relationship]
  · rintro ⟨r, hr, hkey, hsupports⟩
    refine ⟨_, List.mem_map_of_mem hr, ?_, (qualifyRelationship_usable r).mpr hsupports⟩
    rw [← hkey, RelationshipQualification.key, qualifyRelationship_relationship]

/-- A settled relationship is usable just when decisions may rest on it. -/
theorem usableAt_settled (h : (relationships.map BrainRelationship.key).Nodup) {k : EdgeKey} :
    usableAt (settled model query entities evidence relationships now) k ↔
      (asserted model.policy evidence query.principal now entities relationships).Relied k := by
  rw [settled, usableAt_withConflicts (by rwa [assessed_keys]), usableAt_assessed entities,
    usableAt_assessed entities]
  rfl

theorem mapM_get {β : Type} {entities : EntityDict} {f : BrainEntity → β} {ids : List String}
    (h : ∀ id ∈ ids, (Table.get entities id).isSome = true) :
    (ids.mapM fun id => (entities.item id).map f) =
      .ok (ids.filterMap fun id => (Table.get entities id).map f) := by
  induction ids with
  | nil => rfl
  | cons id ids ih =>
    obtain ⟨entity, hentity⟩ := Option.isSome_iff_exists.mp (h id List.mem_cons_self)
    have hrest := ih fun id' hid' => h id' (List.mem_cons_of_mem id hid')
    rw [List.mapM_cons, hrest, List.filterMap_cons, EntityDict.item, hentity]
    rfl

theorem isSome_of_kindOf {entities : EntityDict} {id : String} {kind : EntityKind}
    (h : entities.kindOf id = some kind) : (Table.get entities id).isSome = true := by
  obtain ⟨e, he, -⟩ := kindOf_eq_some.mp h
  rw [he]
  rfl

/-- The services the change starts from are those of the repository. -/
theorem kindOf_blastRadius {assessments : List RelationshipQualification} {changed : List String} {x : String}
    (hchanged : ∀ c ∈ changed, entities.kindOf c = some .service)
    (h : x ∈ blastRadius changed assessments entities) : entities.kindOf x = some .service := by
  obtain ⟨c, hc, hpath⟩ := mem_blastRadius.mp h
  cases hpath with
  | refl => exact hchanged _ hc
  | tail _ hstep => exact hstep.2.1

/-- The entities of a context are all there, and none of them is an evidence entity. -/
theorem kindOf_scope {context : QualifiedWorldModelContext}
    (hassembled : Assembled model query entities evidence relationships now context)
    (hrepository : entities.kindOf query.repositoryId = some .repository) {id : String} (hid : id ∈ context.scope) :
    ∃ kind, kind ≠ .evidence ∧ entities.kindOf id = some kind := by
  have hchanged : ∀ c ∈ context.changedServices, entities.kindOf c = some .service := by
    intro c hc
    rw [hassembled.changedServices, List.mem_filter, decide_eq_true_eq] at hc
    exact (mem_repositoryServices.mp hc.2).2
  rw [QualifiedWorldModelContext.scope, mem_sortedSet, List.mem_cons, List.mem_append, List.mem_append,
    hassembled.repositoryId] at hid
  obtain rfl | (hservice | hservice) | howner := hid
  · exact ⟨.repository, by decide, hrepository⟩
  · exact ⟨.service, by decide, hchanged id hservice⟩
  · rw [hassembled.blastRadius] at hservice
    exact ⟨.service, by decide, kindOf_blastRadius hchanged hservice⟩
  · rw [hassembled.ownerIds] at howner
    obtain ⟨-, hkind | hkind⟩ := mem_ownerIds.mp howner
    · exact ⟨.owner, by decide, hkind⟩
    · exact ⟨.team, by decide, hkind⟩

/-- With the repository among the entities the query comes to an answer. -/
theorem assemble_ok (model : WorldModel) (evidence : EvidenceDict) (now : Int)
    (hrepository : entities.kindOf query.repositoryId = some .repository)
    (hkeys : (relationships.map BrainRelationship.key).Nodup) :
    ∃ context, model.assemble query entities evidence relationships now = .ok context ∧
      Assembled model query entities evidence relationships now context := by
  have hdetected := detectConflicts_eq entities (show ((assessed model query evidence relationships now).map
    RelationshipQualification.key).Nodup by rwa [assessed_keys])
  unfold WorldModel.assemble
  rw [show relationships.map (model.policy.qualifyRelationship evidence query.principal now) =
    assessed model query evidence relationships now from rfl, hdetected]
  dsimp only
  rw [← settled]
  generalize hscoped : (sortedSet query.changedServices).filter (fun x => decide (x ∈ repositoryServices
    query.repositoryId (settled model query entities evidence relationships now) entities)) = changed
  generalize hradius : blastRadius changed (settled model query entities evidence relationships now) entities = radius
  generalize howners : ownerIds radius (settled model query entities evidence relationships now) entities = owners
  have hpresent : ∀ id ∈ sortedSet (query.repositoryId :: (changed ++ radius ++ owners)),
      (Table.get entities id).isSome = true := by
    intro id hid
    have hchanged : ∀ c ∈ changed, entities.kindOf c = some .service := by
      intro c hc
      rw [← hscoped, List.mem_filter, decide_eq_true_eq] at hc
      exact (mem_repositoryServices.mp hc.2).2
    rw [mem_sortedSet, List.mem_cons, List.mem_append, List.mem_append] at hid
    obtain rfl | (hservice | hservice) | howner := hid
    · exact isSome_of_kindOf hrepository
    · exact isSome_of_kindOf (hchanged id hservice)
    · rw [← hradius] at hservice
      exact isSome_of_kindOf (kindOf_blastRadius hchanged hservice)
    · rw [← howners] at howner
      obtain ⟨-, hkind | hkind⟩ := mem_ownerIds.mp howner
      · exact isSome_of_kindOf hkind
      · exact isSome_of_kindOf hkind
  rw [mapM_get hpresent]
  refine ⟨_, rfl, ?_⟩
  subst hscoped hradius howners
  exact ⟨rfl, rfl, rfl, rfl, rfl, rfl, rfl, rfl, rfl⟩

/-- The scope of a context is what the change concerns. -/
theorem mem_scope {context : QualifiedWorldModelContext}
    (hassembled : Assembled model query entities evidence relationships now context)
    (hkeys : (relationships.map BrainRelationship.key).Nodup) {id : String} :
    id ∈ context.scope ↔ (asserted model.policy evidence query.principal now entities relationships).InScope
      query.repositoryId query.changedServices id := by
  have hchanged : ∀ c, c ∈ context.changedServices ↔ c ∈ query.changedServices ∧
      (asserted model.policy evidence query.principal now entities relationships).Member query.repositoryId c := by
    intro c
    rw [hassembled.changedServices, List.mem_filter, decide_eq_true_eq, mem_sortedSet,
      mem_repositoryServices, usableAt_settled hkeys]
    rfl
  have hradius : ∀ x, x ∈ context.blastRadius ↔
      (asserted model.policy evidence query.principal now entities relationships).Affected query.repositoryId
        query.changedServices x := by
    intro x
    rw [hassembled.blastRadius, mem_blastRadius]
    simp only [usableAt_settled hkeys, hchanged, and_assoc]
    rfl
  have howners : ∀ o, o ∈ context.ownerIds ↔
      (asserted model.policy evidence query.principal now entities relationships).Owner query.repositoryId
        query.changedServices o := by
    intro o
    rw [hassembled.ownerIds, mem_ownerIds]
    simp only [usableAt_settled hkeys, hradius]
    rfl
  rw [QualifiedWorldModelContext.scope, mem_sortedSet, List.mem_cons, List.mem_append, List.mem_append,
    hradius, howners, hassembled.repositoryId]
  constructor
  · rintro (rfl | (hservice | hservice) | howner)
    · exact .inl rfl
    · obtain ⟨hrequested, hmember⟩ := (hchanged id).mp hservice
      exact .inr (.inl ⟨id, hrequested, hmember, .refl⟩)
    · exact .inr (.inl hservice)
    · exact .inr (.inr howner)
  · rintro (rfl | hservice | howner)
    · exact .inl rfl
    · exact .inr (.inl (.inr hservice))
    · exact .inr (.inr howner)

end

/-! ### The store -/

namespace Store

/-- The records of the active entities of a tenant, as the query keeps them. -/
def entityDict (s : Store) (tenant : String) : EntityDict :=
  dictOf ((sortedBy (·.record.entityId) (s.entities.rows.filter fun r =>
    r.tenantId = tenant && (false || r.isActive))).map (·.record))

def evidenceDict (s : Store) (tenant : String) : EvidenceDict :=
  dictOf (sortedBy (·.record.evidenceId) (s.evidence.rows.filter fun r =>
    r.tenantId = tenant && (false || r.isActive)))

def listedRecords (s : Store) (tenant : String) : List BrainRelationship := (s.listed tenant).map (·.record)

theorem listedRecords_keys (s : Store) (tenant : String) :
    ((s.listedRecords tenant).map BrainRelationship.key).Nodup := by
  rw [listedRecords, List.map_map]
  exact listed_keys_nodup

end Store

theorem reads_eq_ok {α : Type} {checks : List (Bool × String)} {answer a : α} :
    reads (reading checks answer) = .ok a ↔ (∀ c ∈ checks, c.1 = true) ∧ a = answer := by
  rw [← reading_eq_ok]
  constructor
  · exact mapError_eq_ok
  · intro h
    rw [h]
    rfl

/-- When the query answers, and from what. -/
theorem contextForChange_eq_ok {model : WorldModel} {query : ChangeQuery} {s : Store}
    {context : QualifiedWorldModelContext} :
    model.contextForChange query s = .ok context ↔
      ∃ now, query.when = .ok now ∧ required 200 model.tenantId = true ∧
        (s.entityDict model.tenantId).kindOf query.repositoryId = some .repository ∧
        model.assemble query (s.entityDict model.tenantId) (s.evidenceDict model.tenantId)
          (s.listedRecords model.tenantId) now = .ok context := by
  unfold WorldModel.contextForChange
  simp only [bind_eq_ok_iff, Store.listEntities, Store.listEvidence, Store.listRelationships, reads_eq_ok,
    List.forall_mem_singleton, ite_error_eq_ok_iff, not_not]
  constructor
  · rintro ⟨now, hwhen, _, ⟨htenant, rfl⟩, hrepository, _, ⟨-, rfl⟩, _, ⟨-, rfl⟩, hassemble⟩
    exact ⟨now, hwhen, htenant, hrepository, hassemble⟩
  · rintro ⟨now, hwhen, htenant, hrepository, hassemble⟩
    exact ⟨now, hwhen, _, ⟨htenant, rfl⟩, hrepository, _, ⟨htenant, rfl⟩, _, ⟨htenant, rfl⟩, hassemble⟩

/-- What a context that is returned was made from. -/
theorem assembled_of_ok {model : WorldModel} {query : ChangeQuery} {s : Store}
    {context : QualifiedWorldModelContext} (h : model.contextForChange query s = .ok context) :
    ∃ now, query.when = .ok now ∧
      (s.entityDict model.tenantId).kindOf query.repositoryId = some .repository ∧
      Assembled model query (s.entityDict model.tenantId) (s.evidenceDict model.tenantId)
        (s.listedRecords model.tenantId) now context := by
  obtain ⟨now, hwhen, -, hrepository, hassemble⟩ := contextForChange_eq_ok.mp h
  obtain ⟨context', hok, hassembled⟩ := assemble_ok model (s.evidenceDict model.tenantId) now
    hrepository (s.listedRecords_keys model.tenantId)
  rw [hassemble, Except.ok.injEq] at hok
  subst hok
  exact ⟨now, hwhen, hrepository, hassembled⟩

end EngineeringIntelligence.CompanyBrain
