import EngineeringIntelligence.CompanyBrain.DecisionContext

namespace EngineeringIntelligence.CompanyBrain

open EngineeringIntelligence.Framework

/-! Evidence a principal may not see: what a query does with it, and what it tells of it. -/

/-- What the store lists of a tenant, as far as a query reads it: entities, evidence with the time
it was observed, and relationships. -/
structure Facts where
  entities : List BrainEntity
  evidence : List (BrainEvidence × Int)
  relationships : List BrainRelationship

/-- What is left of the facts when some of them are disregarded. -/
structure Remainder where
  entities : List BrainEntity
  evidence : List (BrainEvidence × Int)
  relationships : List (EdgeKey × List String)

def Store.facts (s : Store) (tenant : String) : Facts where
  entities := (sortedBy (·.record.entityId) (s.entities.rows.filter fun r =>
    r.tenantId = tenant && (false || r.isActive))).map (·.record)
  evidence := (sortedBy (·.record.evidenceId) (s.evidence.rows.filter fun r =>
    r.tenantId = tenant && (false || r.isActive))).map fun r => (r.record, r.provenance.observedAt)
  relationships := s.listedRecords tenant

namespace Facts

variable (f : Facts) (principal : BrainPrincipal)

def hides (id : String) : Bool := f.evidence.any fun v => v.1.evidenceId = id && !v.1.visibleTo principal

def shows (id : String) : Bool := f.evidence.any fun v => v.1.evidenceId = id && v.1.visibleTo principal

/-- A `has_evidence` edge to evidence the principal may not see. -/
def linksHidden (r : BrainRelationship) : Bool := r.kind = .hasEvidence && f.hides principal r.targetId

/-- Such an edge that cites no evidence the principal may see. -/
def linksOnlyHidden (r : BrainRelationship) : Bool :=
  f.linksHidden principal r && !r.evidenceIds.any (f.shows principal)

/-- The facts without the evidence the principal may not see: its records, the evidence entities,
the edges named, and its ids in the evidence of relationships. -/
def without (drops : BrainRelationship → Bool) : Remainder where
  entities := f.entities.filter fun e => e.kind ≠ .evidence
  evidence := f.evidence.filter fun v => v.1.visibleTo principal
  relationships := (f.relationships.filter fun r => !drops r).map fun r =>
    (r.key, r.evidenceIds.filter fun id => !f.hides principal id)

end Facts

/-! ### What decisions are made on -/

/-- What a qualified relationship contributes to decisions. -/
structure Standing where
  key : EdgeKey
  confidence : ℚ
  freshness : FactFreshness
  evidence : List EvidenceQualification
  usable : Bool
  conflicts : List String

/-- An evidence link with nothing behind it. -/
def Standing.void (st : Standing) : Bool := st.key.kind = .hasEvidence && st.evidence = []

def RelationshipQualification.standing (item : RelationshipQualification) : Standing :=
  ⟨item.key, item.confidence, item.freshness, item.evidence, item.usable, item.conflicts⟩

def standings (items : List RelationshipQualification) : List Standing :=
  (items.map (·.standing)).filter fun st => !st.void

section
variable {items items' : List RelationshipQualification}

theorem filterMap_of_map_eq {α γ β : Type} {f : α → γ} {g g' : α → Option β}
    (hg : ∀ x y, f x = f y → g x = g' y) {xs ys : List α} (h : xs.map f = ys.map f) :
    xs.filterMap g = ys.filterMap g' := by
  induction xs generalizing ys with
  | nil =>
    have hnil : ys = [] := List.map_eq_nil_iff.mp h.symm
    rw [hnil]
    rfl
  | cons x xs ih =>
    cases ys with
    | nil => cases h
    | cons y ys =>
      obtain ⟨hhead, htail⟩ := List.cons.inj h
      rw [List.filterMap_cons, List.filterMap_cons, hg x y hhead, ih htail]

theorem usableAt_standings {k : EdgeKey} (hk : k.kind ≠ .hasEvidence) :
    usableAt items k ↔ ∃ st ∈ standings items, st.key = k ∧ st.usable = true := by
  constructor
  · rintro ⟨item, hitem, rfl, husable⟩
    refine ⟨item.standing, List.mem_filter.mpr ⟨List.mem_map_of_mem hitem, ?_⟩, rfl, husable⟩
    simp [Standing.void, RelationshipQualification.standing, hk]
  · rintro ⟨st, hst, rfl, husable⟩
    obtain ⟨item, hitem, rfl⟩ := List.mem_map.mp (List.mem_filter.mp hst).1
    exact ⟨item, hitem, rfl, husable⟩

variable (h : standings items = standings items')
include h

theorem usableAt_congr {k : EdgeKey} (hk : k.kind ≠ .hasEvidence) : usableAt items k ↔ usableAt items' k := by
  rw [usableAt_standings hk, usableAt_standings hk, h]

/-- What is collected of relationships by their standing, leaving out evidence links with nothing
behind them. -/
theorem collect_congr {β : Type} {g g' : RelationshipQualification → Option β}
    (hg : ∀ item item', item.standing = item'.standing → g item = g' item')
    (hvoid : ∀ item, item.standing.void = true → g item = none ∧ g' item = none) :
    items.filterMap g = items'.filterMap g' := by
  have hdrop : ∀ (g : RelationshipQualification → Option β) (items : List RelationshipQualification),
      (∀ item, item.standing.void = true → g item = none) →
        items.filterMap g = (items.filter fun item => !item.standing.void).filterMap g := by
    intro g items hnone
    rw [List.filterMap_filter]
    refine List.filterMap_congr fun item _ => ?_
    cases hitem : item.standing.void with
    | true => simp [hnone item hitem]
    | false => rfl
  rw [hdrop g items fun item hitem => (hvoid item hitem).1,
    hdrop g' items' fun item hitem => (hvoid item hitem).2]
  unfold standings at h
  rw [List.filter_map, List.filter_map] at h
  exact filterMap_of_map_eq hg h

theorem weakest_congr : weakest items = weakest items' := by
  have hlist : ∀ items : List RelationshipQualification,
      (items.filter fun item => item.usable && item.relationship.kind ≠ .hasEvidence).map (·.confidence) =
        items.filterMap fun item =>
          if (item.usable && item.relationship.kind ≠ .hasEvidence) = true then some item.confidence else none := by
    intro items
    rw [← List.filterMap_eq_map, List.filterMap_filter]
    rfl
  unfold weakest
  rw [hlist, hlist, collect_congr h]
  · intro item item' hst
    obtain ⟨hkey, hconfidence, -, -, husable, -⟩ := Standing.mk.inj hst
    rw [husable, hconfidence, show item.relationship.kind = item'.relationship.kind from
      (EdgeKey.mk.inj hkey).2.1]
  · intro item hvoid
    simp only [Standing.void, Bool.and_eq_true, decide_eq_true_eq] at hvoid
    have hkind : item.relationship.kind = .hasEvidence := hvoid.1
    simp [hkind]

theorem evidence_congr : items.flatMap (·.evidence) = items'.flatMap (·.evidence) := by
  have hlist : ∀ items : List RelationshipQualification,
      items.flatMap (·.evidence) = (standings items).flatMap (·.evidence) := by
    intro items
    induction items with
    | nil => rfl
    | cons item items ih =>
      have hcons : standings (item :: items) =
          if item.standing.void = true then standings items else item.standing :: standings items := by
        cases hvoid : item.standing.void <;> simp [standings, hvoid]
      rw [List.flatMap_cons, ih, hcons]
      split
      · next hvoid =>
        simp only [Standing.void, Bool.and_eq_true, decide_eq_true_eq] at hvoid
        have hnone : item.evidence = [] := hvoid.2
        rw [hnone, List.nil_append]
      · rfl
  rw [hlist, hlist, h]

theorem touches_congr (scope : List String) :
    standings (items.filter (·.touches scope)) = standings (items'.filter (·.touches scope)) := by
  have hlist : ∀ items : List RelationshipQualification, standings (items.filter (·.touches scope)) =
      (standings items).filter fun st => st.key.sourceId ∈ scope || st.key.targetId ∈ scope := by
    intro items
    unfold standings
    rw [List.filter_filter, List.filter_map, List.filter_map, List.filter_filter]
    refine congrArg _ (List.filter_congr fun item _ => ?_)
    rw [Bool.and_comm]
    rfl
  rw [hlist, hlist, h]

end

/-! ### Conflicts and settled relationships -/

/-- The entities are the same but for evidence entities. -/
def Agree (entities entities' : EntityDict) : Prop :=
  ∀ id e, e.kind ≠ .evidence → (Table.get entities id = some e ↔ Table.get entities' id = some e)

theorem Agree.kindOf {entities entities' : EntityDict} (h : Agree entities entities') (id : String)
    {kind : EntityKind} (hkind : kind ≠ .evidence) :
    entities.kindOf id = some kind ↔ entities'.kindOf id = some kind := by
  rw [kindOf_eq_some, kindOf_eq_some]
  refine exists_congr fun e => ?_
  constructor
  · rintro ⟨he, rfl⟩
    exact ⟨(h id e hkind).mp he, rfl⟩
  · rintro ⟨he, rfl⟩
    exact ⟨(h id e hkind).mpr he, rfl⟩

section
variable {items items' : List RelationshipQualification} {entities entities' : EntityDict}

theorem ownsSomething_congr (hagree : Agree entities entities') {item item' : RelationshipQualification}
    (h : item.standing = item'.standing) : ownsSomething entities item = ownsSomething entities' item' := by
  obtain ⟨hkey, -, -, -, husable, -⟩ := Standing.mk.inj h
  obtain ⟨hsource, hkind, -⟩ := EdgeKey.mk.inj hkey
  have howner := hagree.kindOf item'.relationship.sourceId (show EntityKind.owner ≠ .evidence by decide)
  have hteam := hagree.kindOf item'.relationship.sourceId (show EntityKind.team ≠ .evidence by decide)
  unfold ownsSomething
  rw [husable, hkind, hsource, Bool.eq_iff_iff]
  simp only [Bool.and_eq_true, Bool.or_eq_true, decide_eq_true_eq, howner, hteam]

theorem owningKeys_congr (hagree : Agree entities entities') (h : standings items = standings items') :
    (items.filter (ownsSomething entities)).map (·.key) = (items'.filter (ownsSomething entities')).map (·.key) := by
  have hlist : ∀ (entities : EntityDict) (items : List RelationshipQualification),
      (items.filter (ownsSomething entities)).map (·.key) =
        items.filterMap fun item => if ownsSomething entities item = true then some item.key else none := by
    intro entities items
    rw [← List.filterMap_eq_map, List.filterMap_filter]
    rfl
  rw [hlist, hlist]
  refine collect_congr h ?_ ?_
  · intro item item' hst
    rw [ownsSomething_congr hagree hst, show item.key = item'.key from (Standing.mk.inj hst).1]
  · intro item hvoid
    simp only [Standing.void, Bool.and_eq_true, decide_eq_true_eq] at hvoid
    have hkind : item.relationship.kind = .hasEvidence := hvoid.1
    simp [ownsSomething, hkind]

theorem ownershipOf_congr {asserted asserted' : List RelationshipQualification}
    (h : asserted.map (·.key) = asserted'.map (·.key)) (serviceId : String) :
    ownershipOf asserted serviceId = ownershipOf asserted' serviceId := by
  have hhere : (asserted.filter (·.relationship.targetId = serviceId)).map (·.key) =
      (asserted'.filter (·.relationship.targetId = serviceId)).map (·.key) := by
    have hlist : ∀ asserted : List RelationshipQualification,
        (asserted.filter (·.relationship.targetId = serviceId)).map (·.key) =
          (asserted.map (·.key)).filter (·.targetId = serviceId) := by
      intro asserted
      rw [List.filter_map]
      rfl
    rw [hlist, hlist, h]
  have hsources : (asserted.filter (·.relationship.targetId = serviceId)).map (·.relationship.sourceId) =
      (asserted'.filter (·.relationship.targetId = serviceId)).map (·.relationship.sourceId) := by
    have hmap := congrArg (List.map EdgeKey.sourceId) hhere
    rwa [List.map_map, List.map_map] at hmap
  unfold ownershipOf
  dsimp only
  rw [hhere, hsources]

theorem conflictsAmong_congr (hagree : Agree entities entities') (h : standings items = standings items')
    (hkeys : (items.map RelationshipQualification.key).Nodup)
    (hkeys' : (items'.map RelationshipQualification.key).Nodup) :
    items.filterMap (cycleOf (items.foldl Table.put Table.empty)) =
        items'.filterMap (cycleOf (items'.foldl Table.put Table.empty)) ∧
      conflictsAmong items entities = conflictsAmong items' entities' := by
  have hcycles : items.filterMap (cycleOf (items.foldl Table.put Table.empty)) =
      items'.filterMap (cycleOf (items'.foldl Table.put Table.empty)) := by
    refine collect_congr h ?_ ?_
    · intro item item' hst
      obtain ⟨hkey, -, -, -, husable, -⟩ := Standing.mk.inj hst
      refine Option.ext fun conflict => ?_
      have hreverse : item'.key.reverse.kind ≠ .hasEvidence := by simp [EdgeKey.reverse]
      rw [cycleOf_eq_some hkeys, cycleOf_eq_some hkeys', hkey, husable, usableAt_congr h hreverse]
    · intro item hvoid
      simp only [Standing.void, Bool.and_eq_true, decide_eq_true_eq] at hvoid
      have hkind : item.key.kind = .hasEvidence := hvoid.1
      have hnone : ∀ byKey, cycleOf byKey item = none := by
        intro byKey
        unfold cycleOf
        simp [hkind]
      exact ⟨hnone _, hnone _⟩
  refine ⟨hcycles, ?_⟩
  have howning := owningKeys_congr hagree h
  have htargets : (items.filter (ownsSomething entities)).map (·.relationship.targetId) =
      (items'.filter (ownsSomething entities')).map (·.relationship.targetId) := by
    have hmap := congrArg (List.map EdgeKey.targetId) howning
    rwa [List.map_map, List.map_map] at hmap
  unfold conflictsAmong
  rw [hcycles, htargets]
  exact congrArg _ (List.filterMap_congr fun service _ => ownershipOf_congr howning service)

theorem withConflicts_congr (hagree : Agree entities entities') (h : standings items = standings items')
    (hkeys : (items.map RelationshipQualification.key).Nodup)
    (hkeys' : (items'.map RelationshipQualification.key).Nodup) :
    standings (items.map (withConflicts items entities)) = standings (items'.map (withConflicts items' entities')) := by
  obtain ⟨hcycles, hconflicts⟩ := conflictsAmong_congr hagree h hkeys hkeys'
  have hlist : ∀ (others : List RelationshipQualification) (entities : EntityDict)
      (items : List RelationshipQualification),
      standings (items.map (withConflicts others entities)) = (standings items).map fun st =>
        { st with
          usable := if st.key ∈ (others.filterMap (cycleOf (others.foldl Table.put Table.empty))).flatMap
            (·.relationshipKeys) then false else st.usable
          conflicts := sortedBy id (conflictIdsAt (conflictsAmong others entities) st.key) } := by
    intro others entities items
    unfold standings
    rw [List.map_map, List.filter_map, List.filter_map, List.map_map]
    rfl
  rw [hlist, hlist, h, hcycles, hconflicts]

end

/-! ### Qualification by what may be seen -/

/-- `_qualify_evidence` of a pointer and the time it was observed. -/
def WorldModelPolicy.qualifyRecord (policy : WorldModelPolicy) (now : Int) (v : BrainEvidence × Int) :
    EvidenceQualification :=
  let age := max 0 (now - v.2)
  let rule := policy.ruleFor v.1.sourceKind
  ⟨v.1.evidenceId, v.1.sourceKind, v.1.citation, v.1.revision, v.2, age, rule.confidence,
    if age ≤ rule.maxAge then .fresh else .stale⟩

/-- The visible evidence with the given ids, qualified. -/
def seenAmong (policy : WorldModelPolicy) (now : Int) (visible : List (BrainEvidence × Int))
    (ids : List String) : List EvidenceQualification :=
  ids.filterMap fun id => (visible.find? fun v => v.1.evidenceId = id).map (policy.qualifyRecord now)

/-- What evidence makes of a relationship before conflicts are known. -/
def standingOf (policy : WorldModelPolicy) (key : EdgeKey) (seen : List EvidenceQualification) : Standing :=
  if seen = [] then ⟨key, 0, .unknown, [], false, []⟩
  else if freshConfidences seen = [] then ⟨key, 0, .stale, seen, false, []⟩
  else ⟨key, combineConfidence (freshConfidences seen), .fresh, seen,
    decide (policy.minimumConfidence ≤ combineConfidence (freshConfidences seen)), []⟩

theorem standing_qualifyRelationship {policy : WorldModelPolicy} {evidence : EvidenceDict}
    {principal : BrainPrincipal} {now : Int} (r : BrainRelationship) :
    (policy.qualifyRelationship evidence principal now r).standing =
      standingOf policy r.key (seenEvidence policy evidence principal now r) := by
  unfold WorldModelPolicy.qualifyRelationship standingOf seenEvidence
  dsimp only
  rw [authorized_eq]
  split
  · rfl
  · split <;> rfl

theorem standingOf_void {policy : WorldModelPolicy} {key : EdgeKey} (h : key.kind = .hasEvidence) :
    (standingOf policy key []).void = true := by
  simp [standingOf, Standing.void, h]

section
variable {s : Store} {tenant : String} {policy : WorldModelPolicy} {principal : BrainPrincipal} {now : Int}

theorem evidenceIds_nodup (s : Store) (tenant : String) :
    ((sortedBy (·.record.evidenceId) (s.evidence.rows.filter fun r =>
      r.tenantId = tenant && (false || r.isActive))).map fun r => r.record.evidenceId).Nodup := by
  have hrows := tenant_keys_nodup s.evidence tenant
    (fun r => r.tenantId = tenant && (false || r.isActive)) fun r hr =>
      of_decide_eq_true (Bool.and_eq_true_iff.mp hr).1
  exact ((perm_sortedBy _ _).map _).nodup_iff.mpr hrows

theorem entityIds_nodup (s : Store) (tenant : String) :
    ((s.facts tenant).entities.map BrainEntity.entityId).Nodup := by
  have hrows := tenant_keys_nodup s.entities tenant
    (fun r => r.tenantId = tenant && (false || r.isActive)) fun r hr =>
      of_decide_eq_true (Bool.and_eq_true_iff.mp hr).1
  rw [Store.facts, List.map_map]
  exact ((perm_sortedBy _ _).map _).nodup_iff.mpr hrows

theorem factEvidence_nodup (s : Store) (tenant : String) :
    ((s.facts tenant).evidence.map fun v => v.1.evidenceId).Nodup := by
  rw [Store.facts, List.map_map]
  exact evidenceIds_nodup s tenant

theorem entityDict_get {id : String} {e : BrainEntity} :
    Table.get (s.entityDict tenant) id = some e ↔ e ∈ (s.facts tenant).entities ∧ e.entityId = id :=
  get_dictOf (entityIds_nodup s tenant)

theorem evidenceDict_get {id : String} {v : BrainEvidence × Int} :
    ((s.evidenceDict tenant).get id).map (fun r => (r.record, r.provenance.observedAt)) = some v ↔
      v ∈ (s.facts tenant).evidence ∧ v.1.evidenceId = id := by
  rw [Option.map_eq_some_iff]
  constructor
  · rintro ⟨r, hr, rfl⟩
    obtain ⟨hmem, hid⟩ := (get_dictOf (evidenceIds_nodup s tenant)).mp hr
    exact ⟨List.mem_map_of_mem hmem, hid⟩
  · rintro ⟨hmem, hid⟩
    obtain ⟨r, hr, rfl⟩ := List.mem_map.mp hmem
    exact ⟨r, (get_dictOf (evidenceIds_nodup s tenant)).mpr ⟨hr, hid⟩, rfl⟩

/-- What a lookup gives that only sees visible evidence. -/
theorem visible_find {id : String} {v : BrainEvidence × Int} :
    ((s.facts tenant).evidence.filter fun v => v.1.visibleTo principal).find? (fun v => v.1.evidenceId = id) =
        some v ↔
      v ∈ (s.facts tenant).evidence ∧ v.1.visibleTo principal = true ∧ v.1.evidenceId = id := by
  constructor
  · intro h
    have hmem := List.mem_filter.mp (List.mem_of_find?_eq_some h)
    exact ⟨hmem.1, hmem.2, by simpa using List.find?_some h⟩
  · rintro ⟨hmem, hvisible, hid⟩
    cases hfind : ((s.facts tenant).evidence.filter fun v => v.1.visibleTo principal).find?
        (fun v => v.1.evidenceId = id) with
    | none =>
      have hne := List.find?_eq_none.mp hfind v (List.mem_filter.mpr ⟨hmem, hvisible⟩)
      exact absurd hid (by simpa using hne)
    | some w =>
      have hw := List.mem_filter.mp (List.mem_of_find?_eq_some hfind)
      have hwid : w.1.evidenceId = id := by simpa using List.find?_some hfind
      rw [List.inj_on_of_nodup_map (factEvidence_nodup s tenant) hw.1 hmem (hwid.trans hid.symm)]

theorem seenEvidence_eq (r : BrainRelationship) :
    seenEvidence policy (s.evidenceDict tenant) principal now r =
      seenAmong policy now ((s.facts tenant).evidence.filter fun v => v.1.visibleTo principal) r.evidenceIds := by
  refine List.filterMap_congr fun id _ => ?_
  have hlookup : (((s.evidenceDict tenant).get id).filter (·.record.visibleTo principal)).map
      (fun r => (r.record, r.provenance.observedAt)) =
        ((s.facts tenant).evidence.filter fun v => v.1.visibleTo principal).find?
          (fun v => v.1.evidenceId = id) := by
    refine Option.ext fun v => ?_
    rw [visible_find, Option.map_eq_some_iff]
    constructor
    · rintro ⟨row, hrow, rfl⟩
      obtain ⟨hget, hvisible⟩ := Option.filter_eq_some_iff.mp hrow
      obtain ⟨hmem, hid⟩ := evidenceDict_get.mp (by rw [hget]; rfl)
      exact ⟨hmem, hvisible, hid⟩
    · rintro ⟨hmem, hvisible, hid⟩
      obtain ⟨row, hrow, rfl⟩ := Option.map_eq_some_iff.mp (evidenceDict_get.mpr ⟨hmem, hid⟩)
      exact ⟨row, Option.filter_eq_some_iff.mpr ⟨hrow, hvisible⟩, rfl⟩
  rw [← hlookup, Option.map_map]
  rfl

/-- Ids of evidence that may not be seen make no difference. -/
theorem seenAmong_hidden (ids : List String) :
    seenAmong policy now ((s.facts tenant).evidence.filter fun v => v.1.visibleTo principal) ids =
      seenAmong policy now ((s.facts tenant).evidence.filter fun v => v.1.visibleTo principal)
        (ids.filter fun id => !(s.facts tenant).hides principal id) := by
  unfold seenAmong
  rw [List.filterMap_filter]
  refine List.filterMap_congr fun id _ => ?_
  cases hhides : (s.facts tenant).hides principal id with
  | false => rfl
  | true =>
    obtain ⟨v, hv, hboth⟩ := List.any_eq_true.mp hhides
    rw [Bool.and_eq_true, decide_eq_true_eq, Bool.not_eq_true'] at hboth
    have hnone : ((s.facts tenant).evidence.filter fun v => v.1.visibleTo principal).find?
        (fun v => v.1.evidenceId = id) = none := by
      by_contra hsome
      obtain ⟨w, hw⟩ := Option.ne_none_iff_exists'.mp hsome
      obtain ⟨hmem, hvisible, hid⟩ := visible_find.mp hw
      rw [List.inj_on_of_nodup_map (factEvidence_nodup s tenant) hmem hv (hid.trans hboth.1.symm)] at hvisible
      rw [hboth.2] at hvisible
      cases hvisible
    rw [hnone]
    rfl

/-- An edge that cites nothing visible has nothing behind it. -/
theorem seenAmong_of_not_shows {ids : List String} (h : ids.any ((s.facts tenant).shows principal) = false) :
    seenAmong policy now ((s.facts tenant).evidence.filter fun v => v.1.visibleTo principal) ids = [] := by
  refine List.filterMap_eq_nil_iff.mpr fun id hid => ?_
  rw [Option.map_eq_none_iff]
  by_contra hsome
  obtain ⟨v, hv⟩ := Option.ne_none_iff_exists'.mp hsome
  obtain ⟨hmem, hvisible, hvid⟩ := visible_find.mp hv
  have hshows : (s.facts tenant).shows principal id = true :=
    List.any_eq_true.mpr ⟨v, hmem, by simp [hvid, hvisible]⟩
  rw [List.any_eq_false] at h
  exact h id hid hshows

end

section
variable {model : WorldModel} {query : ChangeQuery} {now : Int}

/-- The standing of the relationships is read off what is left without hidden evidence. -/
theorem standings_assessed (s : Store) :
    standings (assessed model query (s.evidenceDict model.tenantId) (s.listedRecords model.tenantId) now) =
      ((((s.facts model.tenantId).without query.principal
        ((s.facts model.tenantId).linksOnlyHidden query.principal)).relationships.map fun p =>
          standingOf model.policy p.1 (seenAmong model.policy now ((s.facts model.tenantId).without query.principal
            ((s.facts model.tenantId).linksOnlyHidden query.principal)).evidence p.2)).filter
        fun st => !st.void) := by
  unfold Facts.without
  dsimp only
  rw [List.map_map, show (s.facts model.tenantId).relationships = s.listedRecords model.tenantId from rfl]
  unfold assessed standings
  rw [List.map_map, List.filter_map, List.filter_map, List.filter_filter]
  have hstanding : ∀ r : BrainRelationship,
      ((RelationshipQualification.standing ∘
        model.policy.qualifyRelationship (s.evidenceDict model.tenantId) query.principal now) r) =
      standingOf model.policy r.key (seenAmong model.policy now
        ((s.facts model.tenantId).evidence.filter fun v => v.1.visibleTo query.principal)
          (r.evidenceIds.filter fun id => !(s.facts model.tenantId).hides query.principal id)) := by
    intro r
    rw [Function.comp_apply, standing_qualifyRelationship, seenEvidence_eq, seenAmong_hidden]
  have hkept : (s.listedRecords model.tenantId).filter (fun r => !((RelationshipQualification.standing ∘
        model.policy.qualifyRelationship (s.evidenceDict model.tenantId) query.principal now) r).void) =
      (s.listedRecords model.tenantId).filter (fun r =>
        (!(standingOf model.policy r.key (seenAmong model.policy now
          ((s.facts model.tenantId).evidence.filter fun v => v.1.visibleTo query.principal)
            (r.evidenceIds.filter fun id => !(s.facts model.tenantId).hides query.principal id))).void) &&
          !(s.facts model.tenantId).linksOnlyHidden query.principal r) := by
    refine List.filter_congr fun r _ => ?_
    rw [hstanding]
    cases hdropped : (s.facts model.tenantId).linksOnlyHidden query.principal r with
    | false => simp
    | true =>
      simp only [Facts.linksOnlyHidden, Facts.linksHidden, Bool.and_eq_true, decide_eq_true_eq,
        Bool.not_eq_true'] at hdropped
      obtain ⟨⟨hkind, -⟩, hnone⟩ := hdropped
      rw [← seenAmong_hidden, seenAmong_of_not_shows hnone, standingOf_void hkind]
      rfl
  rw [show (fun st : Standing => !st.void) ∘ (RelationshipQualification.standing ∘
      model.policy.qualifyRelationship (s.evidenceDict model.tenantId) query.principal now) =
    fun r => !((RelationshipQualification.standing ∘
      model.policy.qualifyRelationship (s.evidenceDict model.tenantId) query.principal now) r).void from rfl, hkept]
  exact List.map_congr_left fun r _ => hstanding r

end

/-! ### Two stores that differ in hidden evidence -/

/-- What a context decides. -/
structure Decisions where
  changedServices : List String
  blastRadius : List String
  ownerIds : List String
  confidence : ℚ
  evidence : List EvidenceQualification
  conflicts : List WorldModelConflict

def QualifiedWorldModelContext.decisions (context : QualifiedWorldModelContext) : Decisions :=
  ⟨context.changedServices, context.blastRadius, context.ownerIds, context.confidence, context.evidence,
    context.conflicts⟩

/-- Two contexts that no product can tell apart by what it decides on. -/
structure SameGrounds (context context' : QualifiedWorldModelContext) : Prop where
  decisions : context.decisions = context'.decisions
  entities : context.entities.map (·.entity) = context'.entities.map (·.entity)
  standings : standings context.relationships = standings context'.relationships

section
variable {model : WorldModel} {query : ChangeQuery} {entities entities' : EntityDict}
  {evidence evidence' : EvidenceDict} {relationships relationships' : List BrainRelationship} {now : Int}
  {context context' : QualifiedWorldModelContext}

theorem Assembled.sameGrounds (hagree : Agree entities entities')
    (hassessed : standings (assessed model query evidence relationships now) =
      standings (assessed model query evidence' relationships' now))
    (hkeys : (relationships.map BrainRelationship.key).Nodup)
    (hkeys' : (relationships'.map BrainRelationship.key).Nodup)
    (hrepository : entities.kindOf query.repositoryId = some .repository)
    (h : Assembled model query entities evidence relationships now context)
    (h' : Assembled model query entities' evidence' relationships' now context') :
    SameGrounds context context' := by
  have hsettled : standings (settled model query entities evidence relationships now) =
      standings (settled model query entities' evidence' relationships' now) :=
    withConflicts_congr hagree hassessed (by rwa [assessed_keys]) (by rwa [assessed_keys])
  have hservice : ∀ id, entities.kindOf id = some .service ↔ entities'.kindOf id = some .service :=
    fun id => hagree.kindOf id (by decide)
  have hchanged : context.changedServices = context'.changedServices := by
    rw [h.changedServices, h'.changedServices]
    refine List.filter_congr fun x _ => ?_
    rw [Bool.eq_iff_iff, decide_eq_true_eq, decide_eq_true_eq, mem_repositoryServices,
      mem_repositoryServices, usableAt_congr hsettled (by simp), hservice]
  have hradius : context.blastRadius = context'.blastRadius := by
    rw [h.blastRadius, h'.blastRadius, hchanged]
    refine increasing_ext (blastRadius_increasing _ _ _) (blastRadius_increasing _ _ _) fun x => ?_
    have hsteps : ∀ y z, usableAt (settled model query entities evidence relationships now) ⟨z, .dependsOn, y⟩ ↔
        usableAt (settled model query entities' evidence' relationships' now) ⟨z, .dependsOn, y⟩ :=
      fun y z => usableAt_congr hsettled (by simp)
    rw [mem_blastRadius, mem_blastRadius]
    simp only [hsteps, hservice]
  have howners : context.ownerIds = context'.ownerIds := by
    rw [h.ownerIds, h'.ownerIds, hradius]
    refine increasing_ext (ownerIds_increasing _ _ _) (ownerIds_increasing _ _ _) fun o => ?_
    have hedges : ∀ x, usableAt (settled model query entities evidence relationships now) ⟨o, .owns, x⟩ ↔
        usableAt (settled model query entities' evidence' relationships' now) ⟨o, .owns, x⟩ :=
      fun x => usableAt_congr hsettled (by simp)
    rw [mem_ownerIds, mem_ownerIds, hagree.kindOf o (show EntityKind.owner ≠ .evidence by decide),
      hagree.kindOf o (show EntityKind.team ≠ .evidence by decide)]
    simp only [hedges]
  have hscope : context.scope = context'.scope := by
    unfold QualifiedWorldModelContext.scope
    rw [h.repositoryId, h'.repositoryId, hchanged, hradius, howners]
  have hrelevant : standings context.relationships = standings context'.relationships := by
    rw [h.relevant, h'.relevant, hscope]
    exact touches_congr hsettled _
  refine ⟨?_, ?_, hrelevant⟩
  · unfold QualifiedWorldModelContext.decisions
    rw [hchanged, hradius, howners, h.confidence, h'.confidence, weakest_congr hrelevant, h.cited, h'.cited,
      evidence_congr hrelevant, h.conflicts, h'.conflicts, hscope,
      (conflictsAmong_congr hagree hassessed (by rwa [assessed_keys]) (by rwa [assessed_keys])).2]
  · have hlist : ∀ (entities : EntityDict) (byKey : RelationshipDict) (ids : List String),
        (ids.filterMap fun entityId => (Table.get entities entityId).map (qualifyEntity · byKey)).map (·.entity) =
          ids.filterMap (Table.get entities) := by
      intro entities byKey ids
      rw [List.map_filterMap]
      refine List.filterMap_congr fun entityId _ => ?_
      cases hget : Table.get entities entityId with
      | none => rfl
      | some e => simp
    rw [h.described, h'.described, hlist, hlist, ← hscope]
    refine List.filterMap_congr fun id hid => ?_
    obtain ⟨kind, hkind, hsome⟩ := kindOf_scope h hrepository hid
    obtain ⟨e, he, rfl⟩ := kindOf_eq_some.mp hsome
    rw [he, (hagree id e hkind).mp he]

end

/-! ### Decision contexts on the same grounds -/

/-- `_relationship_from_qualification`, by the standing of the relationship. -/
def claimOf (labels : EntityDict) (st : Standing) :
    Except ProductContractError (Option DecisionContextRelationship) :=
  if st.usable = false ∨ st.conflicts ≠ [] ∨ st.key.kind = .hasEvidence then .ok none
  else
    match Table.get labels st.key.sourceId, Table.get labels st.key.targetId with
    | some source, some target => do
      let evidence ← (st.evidence.filter (·.freshness = .fresh)).mapM (·.reference)
      if evidence = [] then return none
      let claim ← DecisionContextRelationship.make st.key.sourceId source.label st.key.kind st.key.targetId
        target.label st.confidence st.freshness (sortedBy (·.evidenceId) evidence)
      return some claim
    | _, _ => .ok none

theorem relationshipFromQualification_eq (labels : EntityDict) (item : RelationshipQualification) :
    relationshipFromQualification labels item = claimOf labels item.standing := rfl

theorem claims_standings (labels : EntityDict) (items : List RelationshipQualification) :
    (items.mapM (relationshipFromQualification labels)).map (·.filterMap id) =
      ((standings items).mapM (claimOf labels)).map (·.filterMap id) := by
  induction items with
  | nil => rfl
  | cons item items ih =>
    rw [List.mapM_cons, relationshipFromQualification_eq]
    cases hvoid : item.standing.void with
    | true =>
      have hnone : claimOf labels item.standing = .ok none := by
        simp only [Standing.void, Bool.and_eq_true, decide_eq_true_eq] at hvoid
        exact if_pos (.inr (.inr hvoid.1))
      have hskip : standings (item :: items) = standings items := by simp [standings, hvoid]
      rw [hskip, ← ih, hnone]
      cases items.mapM (relationshipFromQualification labels) with
      | error x => rfl
      | ok claims => rfl
    | false =>
      have hkeep : standings (item :: items) = item.standing :: standings items := by simp [standings, hvoid]
      rw [hkeep, List.mapM_cons]
      cases claimOf labels item.standing with
      | error x => rfl
      | ok claim =>
        cases hrest : items.mapM (relationshipFromQualification labels) with
        | error x =>
          cases hrest' : (standings items).mapM (claimOf labels) with
          | error y =>
            rw [hrest, hrest'] at ih
            exact ih
          | ok claims =>
            rw [hrest, hrest'] at ih
            cases ih
        | ok claims =>
          cases hrest' : (standings items).mapM (claimOf labels) with
          | error y =>
            rw [hrest, hrest'] at ih
            cases ih
          | ok claims' =>
            rw [hrest, hrest'] at ih
            have hsame : claims.filterMap id = claims'.filterMap id := Except.ok.inj ih
            cases claim with
            | none => exact congrArg Except.ok hsame
            | some claim => exact congrArg (fun rest => Except.ok (claim :: rest)) hsame

theorem bind_filterMap {ε α β : Type} (x : Except ε (List (Option α))) (f : List α → Except ε β) :
    (x >>= fun claims => f (claims.filterMap id)) = (x.map (·.filterMap id) >>= f) := by
  cases x with
  | error e => rfl
  | ok claims => rfl

theorem SameGrounds.decisionContext {context context' : QualifiedWorldModelContext}
    (h : SameGrounds context context') (contextVersion : String) (qualified : Bool) (limitations : List String) :
    decisionContextFromWorldModel context contextVersion qualified limitations =
      decisionContextFromWorldModel context' contextVersion qualified limitations := by
  obtain ⟨-, -, -, hconfidence, hevidence, hconflicts⟩ := Decisions.mk.inj h.decisions
  have hbundle : ∀ texts, evidenceBundle context texts = evidenceBundle context' texts := by
    intro texts
    unfold evidenceBundle
    rw [hevidence]
  unfold decisionContextFromWorldModel
  dsimp only
  rw [h.entities, bind_filterMap _ fun claims => do
      let evidence ← evidenceBundle context (sortedSet limitations)
      DecisionContext.make contextVersion qualified context.confidence (sortedBy (·.key.order) claims) evidence
        (sortedSet limitations) (sortedBy id (context.conflicts.map (·.conflictId))),
    bind_filterMap _ fun claims => do
      let evidence ← evidenceBundle context' (sortedSet limitations)
      DecisionContext.make contextVersion qualified context'.confidence (sortedBy (·.key.order) claims) evidence
        (sortedSet limitations) (sortedBy id (context'.conflicts.map (·.conflictId))),
    claims_standings, claims_standings, h.standings, hbundle, hconfidence, hconflicts]

/-! ### The query on either store -/

/-- The query, its reads done. -/
theorem contextForChange_eq (model : WorldModel) (query : ChangeQuery) (s : Store) :
    model.contextForChange query s = (query.when >>= fun now =>
      match argumentProblem [(required 200 model.tenantId, "tenant_id")] with
      | some x => .error (.store x)
      | none =>
        if (s.entityDict model.tenantId).kindOf query.repositoryId ≠ some .repository then
          .error (.worldModel "repository_id does not identify an active repository in this tenant")
        else model.assemble query (s.entityDict model.tenantId) (s.evidenceDict model.tenantId)
          (s.listedRecords model.tenantId) now) := by
  unfold WorldModel.contextForChange
  refine congrArg _ (funext fun now => ?_)
  unfold Store.listEntities Store.listEvidence Store.listRelationships reading
  cases argumentProblem [(required 200 model.tenantId, "tenant_id")] with
  | some x => rfl
  | none => rfl

theorem agree_of_without {s t : Store} {tenant : String} {principal : BrainPrincipal}
    {drops drops' : BrainRelationship → Bool}
    (h : (s.facts tenant).without principal drops = (t.facts tenant).without principal drops') :
    Agree (s.entityDict tenant) (t.entityDict tenant) := by
  obtain ⟨hentities, -⟩ := Remainder.mk.inj h
  intro entityId e hkind
  have hmem : e ∈ (s.facts tenant).entities ↔ e ∈ (t.facts tenant).entities := by
    have hfilter : e ∈ (s.facts tenant).entities.filter (fun e => e.kind ≠ .evidence) ↔
        e ∈ (t.facts tenant).entities.filter (fun e => e.kind ≠ .evidence) := by
      rw [hentities]
    rw [List.mem_filter, List.mem_filter] at hfilter
    simpa [hkind] using hfilter
  rw [entityDict_get, entityDict_get, hmem]

/-- Evidence a principal may not see has no influence: two stores that are the same once it is
disregarded are answered alike, whatever the answer is. -/
theorem hidden_evidence_has_no_influence (model : WorldModel) (query : ChangeQuery) (s t : Store)
    (h : (s.facts model.tenantId).without query.principal
        ((s.facts model.tenantId).linksOnlyHidden query.principal) =
      (t.facts model.tenantId).without query.principal
        ((t.facts model.tenantId).linksOnlyHidden query.principal)) :
    (model.contextForChange query s).map (·.decisions) = (model.contextForChange query t).map (·.decisions) ∧
      ∀ contextVersion qualified limitations,
        (model.contextForChange query s).map (fun context =>
            decisionContextFromWorldModel context contextVersion qualified limitations) =
          (model.contextForChange query t).map (fun context =>
            decisionContextFromWorldModel context contextVersion qualified limitations) := by
  have hagree := agree_of_without h
  rw [contextForChange_eq, contextForChange_eq]
  cases query.when with
  | error x => simp only [bind, Except.bind, Except.map, implies_true, and_self]
  | ok now =>
    rw [ok_bind, ok_bind]
    cases argumentProblem [(required 200 model.tenantId, "tenant_id")] with
    | some x => simp only [Except.map, implies_true, and_self]
    | none =>
      dsimp only
      have hkind := hagree.kindOf query.repositoryId (show EntityKind.repository ≠ .evidence by decide)
      by_cases hrepository : (s.entityDict model.tenantId).kindOf query.repositoryId = some .repository
      · have hassessed : standings (assessed model query (s.evidenceDict model.tenantId)
              (s.listedRecords model.tenantId) now) =
            standings (assessed model query (t.evidenceDict model.tenantId)
              (t.listedRecords model.tenantId) now) := by
          rw [standings_assessed, standings_assessed, h]
        obtain ⟨context, hcontext, hassembled⟩ := assemble_ok model (s.evidenceDict model.tenantId) now
          hrepository (s.listedRecords_keys model.tenantId)
        obtain ⟨context', hcontext', hassembled'⟩ := assemble_ok model (t.evidenceDict model.tenantId) now
          (hkind.mp hrepository) (t.listedRecords_keys model.tenantId)
        have hgrounds : SameGrounds context context' :=
          hassembled.sameGrounds hagree hassessed (s.listedRecords_keys _) (t.listedRecords_keys _)
            hrepository hassembled'
        rw [if_neg (not_not.mpr hrepository), if_neg (not_not.mpr (hkind.mp hrepository)), hcontext, hcontext']
        exact ⟨congrArg Except.ok hgrounds.decisions, fun contextVersion qualified limitations =>
          congrArg Except.ok (hgrounds.decisionContext contextVersion qualified limitations)⟩
      · rw [if_pos hrepository, if_pos fun hother => hrepository (hkind.mpr hother)]
        exact ⟨rfl, fun _ _ _ => rfl⟩

namespace Sample

def repository : BrainEntity := ⟨"repository:acme", .repository, "acme", [], by decide +kernel⟩

def citing (evidenceId : String) (groups : List String)
    (h : evidenceProblem evidenceId "adr" "notes" "1" groups [] = none) : BrainEvidence :=
  ⟨evidenceId, "adr", "notes", "1", groups, [], h⟩

def engineer : BrainPrincipal := ⟨["engineering"], [], by decide +kernel⟩

def acmeModel : WorldModel := ⟨"acme", defaultPolicy, by decide +kernel⟩

def paymentsChange : ChangeQuery := ⟨"repository:acme", ["service:payments"], engineer, none, 0⟩

/-- A service of a repository, with evidence engineers may see, some of which nothing cites yet. -/
def member : List StoreOp :=
  [.putEntity "acme" repository terms 1, .putEntity "acme" service terms 2,
    .putEvidence "acme" (citing "evidence:1" ["engineering"] (by decide +kernel)) terms 3 3,
    .putEvidence "acme" (citing "evidence:3" ["engineering"] (by decide +kernel)) terms 4 4,
    .putRelationship "acme" ⟨"service:payments", "repository:acme", .belongsTo, ["evidence:1"],
      by decide +kernel⟩ terms 5]

/-- The same with an evidence link to a finding engineers may not see. -/
def aside : List StoreOp :=
  member ++ [.putEvidence "acme" (citing "evidence:2" ["security"] (by decide +kernel)) terms 6 6,
    .putRelationship "acme" ⟨"service:payments", "evidence:2", .hasEvidence, ["evidence:3"],
      by decide +kernel⟩ terms 7]

/-- The same with evidence engineers may not see, linked to the service. -/
def covered : List StoreOp :=
  member ++ [.putEvidence "acme" (citing "evidence:2" ["security"] (by decide +kernel)) terms 6 6,
    .putRelationship "acme" ⟨"service:payments", "evidence:2", .hasEvidence, ["evidence:2"],
      by decide +kernel⟩ terms 7]

end Sample

/-- The data of a record, without the proof it carries. -/
def BrainEntity.data (e : BrainEntity) : String × EntityKind × String × List (String × String) :=
  (e.entityId, e.kind, e.label, e.attributes)

def BrainEvidence.data (v : BrainEvidence) : (String × String × String × String) × List String × List String :=
  ((v.evidenceId, v.sourceKind, v.citation, v.revision), v.aclGroups, v.aclUsers)

theorem BrainEntity.data_injective : Function.Injective BrainEntity.data := by
  intro e e' h
  cases e
  cases e'
  simp_all [BrainEntity.data]

theorem BrainEvidence.data_injective : Function.Injective BrainEvidence.data := by
  intro v v' h
  cases v
  cases v'
  simp_all [BrainEvidence.data]

theorem remainder_eq {m m' : Remainder} (hentities : m.entities.map (·.data) = m'.entities.map (·.data))
    (hevidence : m.evidence.map (fun v => (v.1.data, v.2)) = m'.evidence.map (fun v => (v.1.data, v.2)))
    (hrelationships : m.relationships = m'.relationships) : m = m' := by
  have hpointer : Function.Injective fun v : BrainEvidence × Int => (v.1.data, v.2) := by
    intro v v' h
    obtain ⟨hdata, htime⟩ := Prod.mk.inj h
    exact Prod.ext (BrainEvidence.data_injective hdata) htime
  cases m
  cases m'
  rw [Remainder.mk.injEq]
  exact ⟨List.map_injective_iff.mpr BrainEntity.data_injective hentities,
    List.map_injective_iff.mpr hpointer hevidence, hrelationships⟩

theorem covered_evidence_has_no_influence :
    (Sample.acmeModel.contextForChange Sample.paymentsChange (runState Store.step Store.empty Sample.covered)).map
        (·.decisions) =
      (Sample.acmeModel.contextForChange Sample.paymentsChange (runState Store.step Store.empty Sample.member)).map
        (·.decisions) :=
  (hidden_evidence_has_no_influence Sample.acmeModel Sample.paymentsChange
    (runState Store.step Store.empty Sample.covered) (runState Store.step Store.empty Sample.member)
    (remainder_eq (by decide) (by decide) (by decide))).1

/-- An evidence link to hidden evidence that cites visible evidence brings the latter into the
context. -/
theorem hidden_link_brings_evidence :
    ((runState Store.step Store.empty Sample.aside).facts "acme").without Sample.engineer
        (((runState Store.step Store.empty Sample.aside).facts "acme").linksHidden Sample.engineer) =
      ((runState Store.step Store.empty Sample.member).facts "acme").without Sample.engineer
        (((runState Store.step Store.empty Sample.member).facts "acme").linksHidden Sample.engineer) ∧
      ((Sample.acmeModel.contextForChange Sample.paymentsChange
          (runState Store.step Store.empty Sample.aside)).toOption.map fun context =>
            context.decisions.evidence.map (·.evidenceId)) = some ["evidence:1", "evidence:3"] ∧
      ((Sample.acmeModel.contextForChange Sample.paymentsChange
          (runState Store.step Store.empty Sample.member)).toOption.map fun context =>
            context.decisions.evidence.map (·.evidenceId)) = some ["evidence:1"] := by
  exact ⟨remainder_eq (by decide +kernel) (by decide +kernel) (by decide +kernel), by decide +kernel,
    by decide +kernel⟩

end EngineeringIntelligence.CompanyBrain
