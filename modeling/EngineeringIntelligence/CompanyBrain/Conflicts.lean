import EngineeringIntelligence.CompanyBrain.Scope

namespace EngineeringIntelligence.CompanyBrain

open EngineeringIntelligence.Framework

/-! What the detection of conflicts reports. Ids are joined by colons, so two cycles may share one. -/

section
variable (assessments : List RelationshipQualification) (entities : EntityDict)

/-- Two ids, in order, with a usable dependency of each on the other. -/
def MutualPair (a c : String) : Prop :=
  a < c ∧ usableAt assessments ⟨a, .dependsOn, c⟩ ∧ usableAt assessments ⟨c, .dependsOn, a⟩

/-- An owner or a team usably said to own something. -/
def OwnedBy (targetId x : String) : Prop :=
  usableAt assessments ⟨x, .owns, targetId⟩ ∧
    (entities.kindOf x = some .owner ∨ entities.kindOf x = some .team)

def Contested (targetId : String) : Prop :=
  ∃ x y, x ≠ y ∧ OwnedBy assessments entities targetId x ∧ OwnedBy assessments entities targetId y

/-- An assessment without what the detection decides. -/
def RelationshipQualification.unjudged (item : RelationshipQualification) : RelationshipQualification :=
  { item with usable := false, conflicts := [] }

/-- What is reported of some assessments is what there is to report. -/
structure DetectsExactly (qualified : List RelationshipQualification) (conflicts : List WorldModelConflict) :
    Prop where
  kept : qualified.map RelationshipQualification.unjudged = assessments.map RelationshipQualification.unjudged
  usable : List.Forall₂ (fun before after => after.usable = true ↔
    before.usable = true ∧ ¬ (before.key.kind = .dependsOn ∧ usableAt assessments before.key.reverse))
    assessments qualified
  cycleOnce : ∀ a c, MutualPair assessments a c →
    conflicts.countP (fun x => x.kind = .dependencyCycle ∧ x.entityIds = [a, c]) = 1
  cycleOnly : ∀ x ∈ conflicts, x.kind = .dependencyCycle → ∃ a c, MutualPair assessments a c ∧
    x.entityIds = [a, c] ∧ x.relationshipKeys = [⟨a, .dependsOn, c⟩, ⟨c, .dependsOn, a⟩]
  ownersOnce : ∀ t, Contested assessments entities t →
    conflicts.countP (fun x => x.kind = .ambiguousOwnership ∧ ∀ k ∈ x.relationshipKeys, k.targetId = t) = 1
  ownersOnly : ∀ x ∈ conflicts, x.kind = .ambiguousOwnership → ∃ t, Contested assessments entities t ∧
    (∀ id, id ∈ x.entityIds ↔ id = t ∨ OwnedBy assessments entities t id) ∧
    ∀ k, k ∈ x.relationshipKeys ↔
      k.kind = .owns ∧ k.targetId = t ∧ OwnedBy assessments entities t k.sourceId
  carried : ∀ item ∈ qualified, ∀ x ∈ conflicts,
    x.conflictId ∈ item.conflicts ↔ item.key ∈ x.relationshipKeys

/-- Pairs that depend on each other are told apart by their joined ids. -/
def PairsToldApart : Prop :=
  ∀ a c a' c', MutualPair assessments a c → MutualPair assessments a' c' →
    a ++ ":" ++ c = a' ++ ":" ++ c' → a = a' ∧ c = c'

end

def cycleConflict (a c : String) : WorldModelConflict :=
  ⟨"dependency-cycle:" ++ (a ++ ":" ++ c), .dependencyCycle, [a, c],
    [⟨a, .dependsOn, c⟩, ⟨c, .dependsOn, a⟩],
    "A direct dependency cycle has conflicting decision semantics and is excluded."⟩

@[simp] theorem cycleConflict_kind (a c : String) : (cycleConflict a c).kind = .dependencyCycle := rfl

@[simp] theorem cycleConflict_entityIds (a c : String) : (cycleConflict a c).entityIds = [a, c] := rfl

@[simp] theorem cycleConflict_conflictId (a c : String) :
    (cycleConflict a c).conflictId = "dependency-cycle:" ++ (a ++ ":" ++ c) := rfl

@[simp] theorem cycleConflict_relationshipKeys (a c : String) :
    (cycleConflict a c).relationshipKeys = [⟨a, .dependsOn, c⟩, ⟨c, .dependsOn, a⟩] := rfl

section
variable {assessments : List RelationshipQualification} {entities : EntityDict}

theorem reverse_order_lt {a c : String} :
    (⟨c, .dependsOn, a⟩ : EdgeKey).order < (⟨a, .dependsOn, c⟩ : EdgeKey).order ↔ c < a := by
  simp only [EdgeKey.order, List.cons_lt_cons_iff]
  constructor
  · rintro (hlt | ⟨rfl, hlt | ⟨-, hlt | ⟨-, hnil⟩⟩⟩)
    · exact hlt
    · exact absurd hlt (lt_irrefl _)
    · exact hlt
    · exact absurd hnil (lt_irrefl _)
  · exact .inl

/-- What is reported of the first edge of a pair. -/
theorem cycleConflict_eq {a c : String} (h : a < c) :
    (⟨"dependency-cycle:" ++ ":".intercalate (sortedBy id [a, c]), .dependencyCycle, sortedBy id [a, c],
      sortedBy EdgeKey.order [⟨a, .dependsOn, c⟩, EdgeKey.reverse ⟨a, .dependsOn, c⟩],
      "A direct dependency cycle has conflicting decision semantics and is excluded."⟩ : WorldModelConflict) =
      cycleConflict a c := by
  have horder : (⟨a, .dependsOn, c⟩ : EdgeKey).order ≤ (EdgeKey.reverse ⟨a, .dependsOn, c⟩).order :=
    not_lt.mp fun hca => lt_asymm h (reverse_order_lt.mp hca)
  have hpair : sortedBy id [a, c] = [a, c] := sortedBy_of_pairwise (by simpa using h.le)
  have hsorted : sortedBy EdgeKey.order [⟨a, .dependsOn, c⟩, EdgeKey.reverse ⟨a, .dependsOn, c⟩] =
      [⟨a, .dependsOn, c⟩, ⟨c, .dependsOn, a⟩] :=
    sortedBy_of_pairwise (List.pairwise_pair.mpr horder)
  rw [hpair, hsorted]
  rfl

/-- An assessment is the first edge of a cycle when it goes from the smaller id of a pair. -/
theorem cycleOf_eq_cycleConflict (h : (assessments.map RelationshipQualification.key).Nodup)
    {item : RelationshipQualification} (hitem : item ∈ assessments) {conflict : WorldModelConflict} :
    cycleOf (assessments.foldl Table.put Table.empty) item = some conflict ↔
      ∃ a c, MutualPair assessments a c ∧ item.key = ⟨a, .dependsOn, c⟩ ∧ conflict = cycleConflict a c := by
  rw [cycleOf_eq_some h item]
  have hdiffer : item.key.sourceId ≠ item.key.targetId :=
    (relationshipProblem_eq_none.mp item.relationship.valid).2.2.1
  generalize hkey : item.key = k at *
  obtain ⟨a, kind, c⟩ := k
  constructor
  · rintro ⟨⟨hkind, husable, hreverse, horder⟩, rfl⟩
    cases hkind
    have hlt : a < c := lt_of_le_of_ne (not_lt.mp fun hca => horder (reverse_order_lt.mpr hca)) hdiffer
    exact ⟨a, c, ⟨hlt, ⟨item, hitem, hkey, husable⟩, hreverse⟩, rfl, cycleConflict_eq hlt⟩
  · rintro ⟨a', c', ⟨hlt, ⟨found, hfound, hfoundKey, husable⟩, hreverse⟩, hk, rfl⟩
    cases hk
    have hsame : found = item := List.inj_on_of_nodup_map h hfound hitem (hfoundKey.trans hkey.symm)
    subst hsame
    have horder : ¬ (⟨c, .dependsOn, a⟩ : EdgeKey).order < (⟨a, .dependsOn, c⟩ : EdgeKey).order :=
      fun hca => lt_asymm hlt (reverse_order_lt.mp hca)
    exact ⟨⟨rfl, husable, hreverse, horder⟩, (cycleConflict_eq hlt).symm⟩

/-- The cycles that are reported are the pairs there are. -/
theorem mem_cycles (h : (assessments.map RelationshipQualification.key).Nodup) {conflict : WorldModelConflict} :
    conflict ∈ assessments.filterMap (cycleOf (assessments.foldl Table.put Table.empty)) ↔
      ∃ a c, MutualPair assessments a c ∧ conflict = cycleConflict a c := by
  rw [List.mem_filterMap]
  constructor
  · rintro ⟨item, hitem, hcycle⟩
    obtain ⟨a, c, hpair, -, rfl⟩ := (cycleOf_eq_cycleConflict h hitem).mp hcycle
    exact ⟨a, c, hpair, rfl⟩
  · rintro ⟨a, c, hpair, rfl⟩
    obtain ⟨item, hitem, hkey, -⟩ := hpair.2.1
    exact ⟨item, hitem, (cycleOf_eq_cycleConflict h hitem).mpr ⟨a, c, hpair, hkey, rfl⟩⟩

theorem count_key (h : (assessments.map RelationshipQualification.key).Nodup) {k : EdgeKey}
    (hk : usableAt assessments k) : assessments.countP (fun item => item.key = k) = 1 := by
  obtain ⟨item, hitem, hkey, -⟩ := hk
  have hmem : k ∈ assessments.map RelationshipQualification.key := hkey ▸ List.mem_map_of_mem hitem
  have hcount := List.count_eq_one_of_mem h hmem
  rw [List.count, List.countP_map] at hcount
  refine Eq.trans (List.countP_congr fun x _ => ?_) hcount
  simp

theorem countP_cycles (h : (assessments.map RelationshipQualification.key).Nodup) {a c : String}
    (hpair : MutualPair assessments a c) :
    (assessments.filterMap (cycleOf (assessments.foldl Table.put Table.empty))).countP
      (fun x => x.kind = .dependencyCycle ∧ x.entityIds = [a, c]) = 1 := by
  rw [List.countP_filterMap]
  refine Eq.trans (List.countP_congr fun item hitem => ?_) (count_key h hpair.2.1)
  rw [decide_eq_true_eq]
  constructor
  · intro hthis
    cases hcycle : cycleOf (assessments.foldl Table.put Table.empty) item with
    | none =>
      rw [hcycle] at hthis
      cases hthis
    | some conflict =>
      rw [hcycle] at hthis
      obtain ⟨a', c', -, hkey, rfl⟩ := (cycleOf_eq_cycleConflict h hitem).mp hcycle
      simp only [cycleConflict_entityIds, cycleConflict_kind, Option.map_some, Option.getD_some,
        decide_eq_true_eq, List.cons.injEq, and_true, true_and] at hthis
      rw [hkey, hthis.1, hthis.2]
  · intro hkey
    rw [(cycleOf_eq_cycleConflict h hitem).mpr ⟨a, c, hpair, hkey, rfl⟩]
    simp

/-! ### Owners -/

/-- The usable edges of owners to something. -/
def ownerEdges (assessments : List RelationshipQualification) (entities : EntityDict) (targetId : String) :
    List RelationshipQualification :=
  (assessments.filter (ownsSomething entities)).filter (·.relationship.targetId = targetId)

theorem mem_ownerEdges {targetId : String} {item : RelationshipQualification} :
    item ∈ ownerEdges assessments entities targetId ↔ item ∈ assessments ∧ item.usable = true ∧
      item.key = ⟨item.relationship.sourceId, .owns, targetId⟩ ∧
      (entities.kindOf item.relationship.sourceId = some .owner ∨
        entities.kindOf item.relationship.sourceId = some .team) := by
  simp only [ownerEdges, ownsSomething, List.mem_filter, Bool.and_eq_true, Bool.or_eq_true, decide_eq_true_eq,
    RelationshipQualification.key, BrainRelationship.key, EdgeKey.mk.injEq, true_and]
  tauto

theorem mem_owners {targetId x : String} :
    x ∈ (ownerEdges assessments entities targetId).map (·.relationship.sourceId) ↔
      OwnedBy assessments entities targetId x := by
  rw [List.mem_map]
  constructor
  · rintro ⟨item, hitem, rfl⟩
    obtain ⟨hmem, husable, hkey, hkind⟩ := mem_ownerEdges.mp hitem
    exact ⟨⟨item, hmem, hkey, husable⟩, hkind⟩
  · rintro ⟨⟨item, hmem, hkey, husable⟩, hkind⟩
    have hsource : item.relationship.sourceId = x := congrArg EdgeKey.sourceId hkey
    subst hsource
    exact ⟨item, mem_ownerEdges.mpr ⟨hmem, husable, hkey, hkind⟩, rfl⟩

theorem mem_ownerKeys {targetId : String} {k : EdgeKey} :
    k ∈ (ownerEdges assessments entities targetId).map RelationshipQualification.key ↔
      k.kind = .owns ∧ k.targetId = targetId ∧ OwnedBy assessments entities targetId k.sourceId := by
  rw [List.mem_map]
  constructor
  · rintro ⟨item, hitem, rfl⟩
    obtain ⟨-, -, hkey, -⟩ := mem_ownerEdges.mp hitem
    refine ⟨congrArg EdgeKey.kind hkey, congrArg EdgeKey.targetId hkey, ?_⟩
    exact mem_owners.mp (List.mem_map_of_mem hitem)
  · obtain ⟨source, kind, target⟩ := k
    rintro ⟨rfl, rfl, ⟨item, hmem, hkey, husable⟩, hkind⟩
    have hsource : item.relationship.sourceId = source := congrArg EdgeKey.sourceId hkey
    subst hsource
    exact ⟨item, mem_ownerEdges.mpr ⟨hmem, husable, hkey, hkind⟩, hkey⟩

theorem one_lt_length_sortedSet {xs : List String} :
    ¬ (sortedSet xs).length ≤ 1 ↔ ∃ x y, x ≠ y ∧ x ∈ xs ∧ y ∈ xs := by
  have hsorted := pairwise_sortedSet xs
  have hmem : ∀ x, x ∈ sortedSet xs ↔ x ∈ xs := fun x => mem_sortedSet
  constructor
  · intro hlong
    obtain ⟨x, y, rest, hshape⟩ : ∃ x y rest, sortedSet xs = x :: y :: rest := by
      match hshape : sortedSet xs with
      | [] | [_] => simp [hshape] at hlong
      | x :: y :: rest => exact ⟨x, y, rest, rfl⟩
    rw [hshape] at hsorted hmem
    have hlt : x < y := (List.pairwise_cons.mp hsorted).1 y List.mem_cons_self
    exact ⟨x, y, hlt.ne, (hmem x).mp (by simp), (hmem y).mp (by simp)⟩
  · rintro ⟨x, y, hne, hx, hy⟩ hshort
    rw [← hmem] at hx hy
    match hshape : sortedSet xs with
    | [] => simp [hshape] at hx
    | [z] =>
      rw [hshape, List.mem_singleton] at hx hy
      exact hne (hx.trans hy.symm)
    | _ :: _ :: _ => simp [hshape] at hshort

theorem ownershipOf_eq_some {targetId : String} {conflict : WorldModelConflict} :
    ownershipOf (assessments.filter (ownsSomething entities)) targetId = some conflict ↔
      Contested assessments entities targetId ∧
        conflict = ⟨"ambiguous-ownership:" ++ targetId, .ambiguousOwnership,
          sortedBy id (targetId :: sortedSet ((ownerEdges assessments entities targetId).map
            (·.relationship.sourceId))),
          sortedBy EdgeKey.order ((ownerEdges assessments entities targetId).map RelationshipQualification.key),
          "Multiple fresh owners are asserted; no single owner is inferred."⟩ := by
  have hcontested : ¬ (sortedSet ((ownerEdges assessments entities targetId).map
      (·.relationship.sourceId))).length ≤ 1 ↔ Contested assessments entities targetId := by
    rw [one_lt_length_sortedSet]
    simp only [mem_owners, Contested]
  unfold ownershipOf
  dsimp only
  rw [← ownerEdges, ← hcontested]
  split
  · next hshort => simp [hshort]
  · next hlong => rw [Option.some.injEq, eq_comm, and_iff_right hlong]

theorem ownershipOf_targets {targetId : String} {conflict : WorldModelConflict}
    (h : ownershipOf (assessments.filter (ownsSomething entities)) targetId = some conflict) (t : String) :
    (∀ k ∈ conflict.relationshipKeys, k.targetId = t) ↔ t = targetId := by
  obtain ⟨⟨x, -, -, hx, -⟩, rfl⟩ := ownershipOf_eq_some.mp h
  simp only [mem_sortedBy, mem_ownerKeys]
  constructor
  · exact fun hall => (hall ⟨x, .owns, targetId⟩ ⟨rfl, rfl, hx⟩).symm
  · rintro rfl k ⟨-, htarget, -⟩
    exact htarget

theorem target_of_contested {t : String} (ht : Contested assessments entities t) :
    t ∈ sortedSet ((assessments.filter (ownsSomething entities)).map (·.relationship.targetId)) := by
  obtain ⟨x, -, -, hx, -⟩ := ht
  obtain ⟨item, hitem, -⟩ := List.mem_map.mp (mem_owners.mpr hx)
  obtain ⟨hasserted, htarget⟩ := List.mem_filter.mp hitem
  rw [mem_sortedSet, List.mem_map]
  exact ⟨item, hasserted, of_decide_eq_true htarget⟩

/-- The disputes that are reported are the targets with several owners. -/
theorem mem_disputes {conflict : WorldModelConflict} :
    conflict ∈ (sortedSet ((assessments.filter (ownsSomething entities)).map (·.relationship.targetId))).filterMap
        (ownershipOf (assessments.filter (ownsSomething entities))) ↔
      ∃ t, ownershipOf (assessments.filter (ownsSomething entities)) t = some conflict := by
  rw [List.mem_filterMap]
  constructor
  · rintro ⟨t, -, hconflict⟩
    exact ⟨t, hconflict⟩
  · rintro ⟨t, hconflict⟩
    exact ⟨t, target_of_contested (ownershipOf_eq_some.mp hconflict).1, hconflict⟩

theorem countP_disputes {t : String} (ht : Contested assessments entities t) :
    ((sortedSet ((assessments.filter (ownsSomething entities)).map (·.relationship.targetId))).filterMap
        (ownershipOf (assessments.filter (ownsSomething entities)))).countP
      (fun x => x.kind = .ambiguousOwnership ∧ ∀ k ∈ x.relationshipKeys, k.targetId = t) = 1 := by
  obtain ⟨conflict, hconflict⟩ : ∃ conflict,
      ownershipOf (assessments.filter (ownsSomething entities)) t = some conflict :=
    ⟨_, ownershipOf_eq_some.mpr ⟨ht, rfl⟩⟩
  have hnodup := (pairwise_sortedSet ((assessments.filter (ownsSomething entities)).map
    (·.relationship.targetId))).imp (fun hlt => hlt.ne)
  rw [List.countP_filterMap]
  refine Eq.trans (List.countP_congr fun u _ => ?_) (List.count_eq_one_of_mem hnodup (target_of_contested ht))
  rw [beq_iff_eq]
  cases hu : ownershipOf (assessments.filter (ownsSomething entities)) u with
  | none =>
    refine iff_of_false (by simp) ?_
    rintro rfl
    rw [hconflict] at hu
    cases hu
  | some other =>
    have hkind : other.kind = .ambiguousOwnership := by
      rw [(ownershipOf_eq_some.mp hu).2]
    simp only [Option.map_some, Option.getD_some, decide_eq_true_eq, hkind, true_and,
      ownershipOf_targets hu t]
    exact eq_comm

/-! ### What is reported -/

theorem mem_conflictsAmong (h : (assessments.map RelationshipQualification.key).Nodup)
    {conflict : WorldModelConflict} :
    conflict ∈ conflictsAmong assessments entities ↔
      (∃ a c, MutualPair assessments a c ∧ conflict = cycleConflict a c) ∨
        ∃ t, ownershipOf (assessments.filter (ownsSomething entities)) t = some conflict := by
  rw [conflictsAmong, List.mem_append, mem_cycles h, mem_disputes]

theorem kind_of_dispute {t : String} {conflict : WorldModelConflict}
    (h : ownershipOf (assessments.filter (ownsSomething entities)) t = some conflict) :
    conflict.kind = .ambiguousOwnership ∧ conflict.conflictId = "ambiguous-ownership:" ++ t := by
  rw [(ownershipOf_eq_some.mp h).2]
  exact ⟨rfl, rfl⟩

theorem countP_conflictsAmong_cycle (h : (assessments.map RelationshipQualification.key).Nodup) {a c : String}
    (hpair : MutualPair assessments a c) :
    (conflictsAmong assessments entities).countP
      (fun x => x.kind = .dependencyCycle ∧ x.entityIds = [a, c]) = 1 := by
  rw [conflictsAmong, List.countP_append, countP_cycles h hpair, Nat.add_eq_left, List.countP_eq_zero]
  intro conflict hconflict
  obtain ⟨t, ht⟩ := mem_disputes.mp hconflict
  simp [(kind_of_dispute ht).1]

theorem countP_conflictsAmong_owners (h : (assessments.map RelationshipQualification.key).Nodup) {t : String}
    (ht : Contested assessments entities t) :
    (conflictsAmong assessments entities).countP
      (fun x => x.kind = .ambiguousOwnership ∧ ∀ k ∈ x.relationshipKeys, k.targetId = t) = 1 := by
  rw [conflictsAmong, List.countP_append, countP_disputes ht, Nat.add_eq_right, List.countP_eq_zero]
  intro conflict hconflict
  obtain ⟨a, c, -, rfl⟩ := (mem_cycles h).mp hconflict
  simp

theorem mem_conflictIdsAt {conflicts : List WorldModelConflict} {k : EdgeKey} {id : String} :
    id ∈ conflictIdsAt conflicts k ↔ ∃ x ∈ conflicts, k ∈ x.relationshipKeys ∧ x.conflictId = id := by
  simp only [conflictIdsAt, List.mem_flatMap, List.mem_map, List.mem_filter, decide_eq_true_eq]
  constructor
  · rintro ⟨x, hx, k', ⟨hk, rfl⟩, hid⟩
    exact ⟨x, hx, hk, hid⟩
  · rintro ⟨x, hx, hk, hid⟩
    exact ⟨x, hx, k, ⟨hk, rfl⟩, hid⟩

/-- Where pairs are told apart, an id tells which conflict it is of. -/
theorem eq_of_conflictId (h : (assessments.map RelationshipQualification.key).Nodup)
    (hapart : PairsToldApart assessments) {x y : WorldModelConflict} (hx : x ∈ conflictsAmong assessments entities)
    (hy : y ∈ conflictsAmong assessments entities) (hid : x.conflictId = y.conflictId) : x = y := by
  have hstarts : ∀ u v : String, "dependency-cycle:" ++ u ≠ "ambiguous-ownership:" ++ v := by
    intro u v heq
    have hcycle : "dependency-cycle:".toList.head? = some 'd' := by decide
    have howner : "ambiguous-ownership:".toList.head? = some 'a' := by decide
    have hhead := congrArg (fun text : String => text.toList.head?) heq
    simp only [String.toList_append, List.head?_append, hcycle, howner, Option.some_or] at hhead
    exact absurd hhead (by decide)
  obtain ⟨a, c, hpair, rfl⟩ | ⟨t, ht⟩ := (mem_conflictsAmong h).mp hx
  · obtain ⟨a', c', hpair', rfl⟩ | ⟨t', ht'⟩ := (mem_conflictsAmong h).mp hy
    · obtain ⟨rfl, rfl⟩ := hapart a c a' c' hpair hpair' (String.append_right_inj _ |>.mp hid)
      rfl
    · rw [(kind_of_dispute ht').2] at hid
      exact absurd hid (hstarts _ _)
  · rw [(kind_of_dispute ht).2] at hid
    obtain ⟨a', c', -, rfl⟩ | ⟨t', ht'⟩ := (mem_conflictsAmong h).mp hy
    · exact absurd hid.symm (hstarts _ _)
    · rw [(kind_of_dispute ht').2] at hid
      obtain rfl := String.append_right_inj _ |>.mp hid
      exact Option.some.inj (ht.symm.trans ht')

/-- Edges carry the ids of just the conflicts that list them when pairs are told apart. -/
theorem carried_iff (h : (assessments.map RelationshipQualification.key).Nodup) :
    (∀ item ∈ assessments.map (withConflicts assessments entities),
      ∀ x ∈ conflictsAmong assessments entities,
        x.conflictId ∈ item.conflicts ↔ item.key ∈ x.relationshipKeys) ↔ PairsToldApart assessments := by
  constructor
  · intro hcarried a c a' c' hpair hpair' hjoined
    obtain ⟨item, hitem, hkey, -⟩ := hpair.2.1
    have hlisted : cycleConflict a c ∈ conflictsAmong assessments entities :=
      (mem_conflictsAmong h).mpr (.inl ⟨a, c, hpair, rfl⟩)
    have hother : cycleConflict a' c' ∈ conflictsAmong assessments entities :=
      (mem_conflictsAmong h).mpr (.inl ⟨a', c', hpair', rfl⟩)
    -- the first edge of one pair carries the id of the other's cycle as well
    have hid : (cycleConflict a' c').conflictId ∈ (withConflicts assessments entities item).conflicts := by
      rw [withConflicts, mem_sortedBy, mem_conflictIdsAt]
      refine ⟨cycleConflict a c, hlisted, by rw [hkey]; exact List.mem_cons_self, ?_⟩
      rw [cycleConflict_conflictId, cycleConflict_conflictId, hjoined]
    have hedge := (hcarried _ (List.mem_map_of_mem hitem) _ hother).mp hid
    rw [withConflicts_key, hkey] at hedge
    simp only [cycleConflict_relationshipKeys, List.mem_cons, EdgeKey.mk.injEq, true_and, List.not_mem_nil,
      or_false] at hedge
    obtain hsame | ⟨rfl, rfl⟩ := hedge
    · exact hsame
    · exact absurd hpair'.1 (lt_asymm hpair.1)
  · intro hapart item' hitem' x hx
    obtain ⟨item, -, rfl⟩ := List.mem_map.mp hitem'
    rw [withConflicts_key, withConflicts, mem_sortedBy, mem_conflictIdsAt]
    constructor
    · rintro ⟨y, hy, hkey, hid⟩
      rwa [eq_of_conflictId h hapart hx hy hid.symm]
    · exact fun hkey => ⟨x, hx, hkey, rfl⟩

/-- The detection reports what there is to report, and edges carry the right ids, when no two pairs of
ids that depend on each other are joined to one text. -/
theorem detect_conflicts_exact_iff (h : (assessments.map RelationshipQualification.key).Nodup) :
    DetectsExactly assessments entities (detectConflicts assessments entities).1
      (detectConflicts assessments entities).2 ↔ PairsToldApart assessments := by
  have hcarried : (∀ item ∈ assessments.map (withConflicts assessments entities),
      ∀ x ∈ conflictsAmong assessments entities,
        x.conflictId ∈ item.conflicts ↔ item.key ∈ x.relationshipKeys) ↔ PairsToldApart assessments :=
    carried_iff h
  rw [detectConflicts_eq entities h, ← hcarried]
  constructor
  · intro hexact item hitem x hx
    exact hexact.carried item hitem x (mem_sortedBy.mpr hx)
  · intro hcarried
    refine ⟨?_, ?_, ?_, ?_, ?_, ?_, ?_⟩
    · rw [List.map_map]
      rfl
    · rw [List.forall₂_map_right_iff, List.forall₂_same]
      exact fun item hitem => withConflicts_usable h hitem
    · intro a c hpair
      rw [(perm_sortedBy _ _).countP_eq]
      exact countP_conflictsAmong_cycle h hpair
    · intro x hx hkind
      obtain ⟨a, c, hpair, rfl⟩ | ⟨t, ht⟩ := (mem_conflictsAmong h).mp (mem_sortedBy.mp hx)
      · exact ⟨a, c, hpair, rfl, rfl⟩
      · rw [(kind_of_dispute ht).1] at hkind
        cases hkind
    · intro t ht
      rw [(perm_sortedBy _ _).countP_eq]
      exact countP_conflictsAmong_owners h ht
    · intro x hx hkind
      obtain ⟨a, c, hpair, rfl⟩ | ⟨t, ht⟩ := (mem_conflictsAmong h).mp (mem_sortedBy.mp hx)
      · cases hkind
      · obtain ⟨hcontested, rfl⟩ := ownershipOf_eq_some.mp ht
        refine ⟨t, hcontested, fun id => ?_, fun k => ?_⟩
        · rw [mem_sortedBy, List.mem_cons, mem_sortedSet, mem_owners]
        · rw [mem_sortedBy, mem_ownerKeys]
    · intro item hitem x hx
      exact hcarried item hitem x (mem_sortedBy.mp hx)

end

/-- A usable assessment of a relationship. -/
def relied (r : BrainRelationship) : RelationshipQualification := ⟨r, 1, .fresh, [], 0, true, [], []⟩

theorem ledger_pay_valid : relationshipProblem "service:ledger" "service:pay" [] = none := by decide +kernel

theorem pay_ledger_valid : relationshipProblem "service:pay" "service:ledger" [] = none := by decide +kernel

def twoWay : List RelationshipQualification :=
  [relied ⟨"service:ledger", "service:pay", .dependsOn, [], ledger_pay_valid⟩,
    relied ⟨"service:pay", "service:ledger", .dependsOn, [], pay_ledger_valid⟩]

theorem two_way_detected :
    DetectsExactly twoWay Table.empty (detectConflicts twoWay Table.empty).1
      (detectConflicts twoWay Table.empty).2 := by
  refine (detect_conflicts_exact_iff (by decide)).mpr ?_
  have hpair : ∀ a c, MutualPair twoWay a c → a = "service:ledger" ∧ c = "service:pay" := by
    rintro a c ⟨hlt, ⟨item, hitem, hkey, -⟩, -⟩
    simp only [twoWay, List.mem_cons, List.not_mem_nil, or_false] at hitem
    obtain rfl | rfl := hitem
    · cases hkey
      exact ⟨rfl, rfl⟩
    · cases hkey
      exact absurd hlt (by decide)
  intro a c a' c' h h' _
  rw [(hpair a c h).1, (hpair a c h).2, (hpair a' c' h').1, (hpair a' c' h').2]
  exact ⟨rfl, rfl⟩

/-- Two cycles whose ids join to the same text. -/
def twins : List RelationshipQualification :=
  [relied ⟨"service:a", "service:b:service:c", .dependsOn, [], by decide +kernel⟩,
    relied ⟨"service:b:service:c", "service:a", .dependsOn, [], by decide +kernel⟩,
    relied ⟨"service:a:service:b", "service:c", .dependsOn, [], by decide +kernel⟩,
    relied ⟨"service:c", "service:a:service:b", .dependsOn, [], by decide +kernel⟩]

/-- Each edge of such cycles carries the id of the other cycle too. -/
theorem twins_misreported :
    (twins.map RelationshipQualification.key).Nodup ∧
      ¬ DetectsExactly twins Table.empty (detectConflicts twins Table.empty).1
        (detectConflicts twins Table.empty).2 := by
  refine ⟨by decide, fun h => ?_⟩
  have hcarried := h.carried
  revert hcarried
  decide +kernel

end EngineeringIntelligence.CompanyBrain
