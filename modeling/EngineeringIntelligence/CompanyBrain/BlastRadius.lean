import EngineeringIntelligence.CompanyBrain.Queries
import EngineeringIntelligence.CompanyBrain.Scope

namespace EngineeringIntelligence

open CompanyBrain Framework

/-! What the two computations of a blast radius return: a least set of services, found by a search
that comes to an end. -/

namespace CompanyBrain

/-- After some number of rounds nothing is left to look at, and `result` is what was seen. -/
def FoundBy (next : String → List String) (start pending result : List String) : Prop :=
  ∃ n, ((searchRound next)^[n] (start, pending)).2 = [] ∧
    result = sortedSet ((searchRound next)^[n] (start, pending)).1

/-- A usable dependency of one service on another. -/
def UsableDependency (assessments : List RelationshipQualification) (entities : EntityDict)
    (x y : String) : Prop :=
  usableAt assessments ⟨x, .dependsOn, y⟩ ∧ entities.kindOf x = some .service ∧
    entities.kindOf y = some .service

variable (b : CompanyBrain)

def kindOf (entityId : String) : Option EntityKind := (b.entities.get entityId).map (·.kind)

/-- A dependency of a service, whatever vouches for it. -/
def Dependency (x y : String) : Prop :=
  (∃ r ∈ b.related.rows, r.key = ⟨x, .dependsOn, y⟩) ∧ b.kindOf x = some .service

/-- The changed services that the model has. -/
def present (changedServices : List String) : List String :=
  (changedServices.filter fun service => (b.entities.get service).isSome).dedup

/-- One round of the loop of `blast_radius`, which may fail to find an entity. -/
def spreadRound (s : Except QueryError (List String × List String)) :
    Except QueryError (List String × List String) :=
  match s with
  | .ok (seen, current :: pending) => b.visitDependents seen pending (b.incoming current .dependsOn)
  | s => s

/-- The loop ends: after some number of rounds nothing is pending. -/
def SpreadEnds (changedServices radius : List String) : Prop :=
  ∃ n seen, b.spreadRound^[n] (.ok (b.present changedServices, (b.present changedServices).reverse)) =
    .ok (seen, []) ∧ radius = sortedSet seen

theorem nodes_of_dependents {assessments : List RelationshipQualification} {entities : EntityDict} (y : String) :
    ∀ z ∈ dependents assessments entities y, z ∈ assessments.map (·.relationship.sourceId) := by
  intro z hz
  obtain ⟨⟨item, hitem, hkey, -⟩, -⟩ := mem_dependents.mp hz
  exact List.mem_map.mpr ⟨item, hitem, (EdgeKey.mk.inj hkey).1⟩

theorem blastRadius_found (changed : List String) (assessments : List RelationshipQualification)
    (entities : EntityDict) :
    FoundBy (dependents assessments entities) changed changed.reverse
      (blastRadius changed assessments entities) := by
  have hnodes : ∀ y, ∀ z ∈ dependents assessments entities y, z ∈ assessments.map (·.relationship.sourceId) :=
    nodes_of_dependents
  have hover := worklist_finishes hnodes changed changed.reverse
    (n := changed.length + assessments.length) (by simp)
  refine ⟨changed.length + assessments.length, hover.1, ?_⟩
  rw [blastRadius, hover.2]

theorem blastRadius_isLeast (changed : List String) (assessments : List RelationshipQualification)
    (entities : EntityDict) :
    IsLeast {S | ClosedFrom changed (UsableDependency assessments entities) S}
      {x | x ∈ blastRadius changed assessments entities} := by
  have hreached : {x | x ∈ blastRadius changed assessments entities} =
      {x | ∃ c ∈ changed, Relation.ReflTransGen (fun y z => UsableDependency assessments entities z y) c x} := by
    ext x
    exact mem_blastRadius
  rw [hreached]
  exact isLeast_reached changed (UsableDependency assessments entities)

variable {b}

theorem mem_dependentsOf {x y : String} : x ∈ b.dependentsOf y ↔ b.Dependency x y := by
  simp only [dependentsOf, List.mem_filter, List.mem_map, mem_incoming, decide_eq_true_eq, Dependency, kindOf,
    BrainRelationship.key, EdgeKey.mk.injEq]
  constructor
  · rintro ⟨⟨r, ⟨hr, htarget, hkind⟩, rfl⟩, hservice⟩
    exact ⟨⟨r, hr, rfl, hkind, htarget⟩, hservice⟩
  · rintro ⟨⟨r, hr, rfl, hkind, htarget⟩, hservice⟩
    exact ⟨⟨r, ⟨hr, htarget, hkind⟩, rfl⟩, hservice⟩

theorem Anchored.blastRadiusOf_eq (h : b.Anchored) (changedServices : List String) :
    b.blastRadiusOf changedServices = .ok (sortedSet (worklist b.dependentsOf
      ((b.present changedServices).length + b.related.rows.length) (b.present changedServices)
      (b.present changedServices).reverse)) := by
  rw [blastRadiusOf, ← present, h.spread_eq]
  rfl

theorem Anchored.spreadRound_eq (h : b.Anchored) (s : List String × List String) :
    b.spreadRound (.ok s) = .ok (searchRound b.dependentsOf s) := by
  obtain ⟨seen, _ | ⟨current, pending⟩⟩ := s
  · rfl
  · exact h.visitDependents_eq (fun r hr => (mem_incoming.mp hr).1) seen pending

theorem Anchored.spreadRounds_eq (h : b.Anchored) (n : Nat) (s : List String × List String) :
    b.spreadRound^[n] (.ok s) = .ok ((searchRound b.dependentsOf)^[n] s) := by
  induction n generalizing s with
  | zero => rfl
  | succ n ih => rw [Function.iterate_succ_apply, h.spreadRound_eq, ih, Function.iterate_succ_apply]

theorem nodes_of_dependentsOf (y : String) : ∀ z ∈ b.dependentsOf y, z ∈ b.related.rows.map (·.sourceId) := by
  intro z hz
  obtain ⟨r, hr, rfl⟩ := List.mem_map.mp (List.mem_filter.mp hz).1
  exact List.mem_map_of_mem (mem_incoming.mp hr).1

theorem mem_present {changedServices : List String} {c : String} :
    c ∈ b.present changedServices ↔ c ∈ changedServices ∧ (b.entities.get c).isSome = true := by
  rw [present, List.mem_dedup, List.mem_filter]

theorem Anchored.spreadEnds (h : b.Anchored) {changedServices radius : List String}
    (hradius : b.blastRadiusOf changedServices = .ok radius) : b.SpreadEnds changedServices radius := by
  rw [h.blastRadiusOf_eq] at hradius
  cases hradius
  have hnodes : ∀ y, ∀ z ∈ b.dependentsOf y, z ∈ b.related.rows.map (·.sourceId) := nodes_of_dependentsOf
  obtain ⟨hempty, hseen⟩ := worklist_finishes hnodes (b.present changedServices)
    (b.present changedServices).reverse
    (n := (b.present changedServices).length + b.related.rows.length) (by simp)
  refine ⟨_, _, (h.spreadRounds_eq _ _).trans (congrArg Except.ok (Prod.ext rfl hempty)), ?_⟩
  rw [hseen]

/-- The least set that has the changed entities the model knows and the services that depend on a member. -/
theorem Anchored.blastRadiusOf_isLeast (h : b.Anchored) {changedServices radius : List String}
    (hradius : b.blastRadiusOf changedServices = .ok radius) :
    IsLeast {S | ClosedFrom (b.present changedServices) b.Dependency S} {x | x ∈ radius} := by
  obtain ⟨found, hfound, hmem⟩ := h.mem_blastRadiusOf changedServices
  rw [hradius] at hfound
  cases hfound
  have hreached : {x | x ∈ radius} = {x | ∃ c ∈ b.present changedServices,
      Relation.ReflTransGen (fun y z => b.Dependency z y) c x} := by
    ext x
    simp only [Set.mem_ofPred_eq, hmem, mem_dependentsOf, mem_present, and_assoc]
  rw [hreached]
  exact isLeast_reached (b.present changedServices) b.Dependency

/-- Among services, it is the closure the world model takes, over all dependencies. -/
theorem Anchored.blastRadiusOf_services (h : b.Anchored) {changedServices radius : List String}
    (hradius : b.blastRadiusOf changedServices = .ok radius)
    (hservices : ∀ c ∈ changedServices, b.kindOf c = some .service) :
    IsLeast {S | ClosedFrom changedServices (fun x y => b.Dependency x y ∧ b.kindOf y = some .service) S}
      {x | x ∈ radius} := by
  obtain ⟨⟨hstart, hclosed⟩, hleast⟩ := h.blastRadiusOf_isLeast hradius
  have hpresent : ∀ c ∈ changedServices, c ∈ b.present changedServices := by
    intro c hc
    have hkind : (b.entities.get c).isSome = true := by
      obtain ⟨e, he, -⟩ := Option.map_eq_some_iff.mp (hservices c hc)
      rw [he]
      rfl
    exact mem_present.mpr ⟨hc, hkind⟩
  refine ⟨⟨fun c hc => hstart c (hpresent c hc), fun x y hy hxy => hclosed x y hy hxy.1⟩, ?_⟩
  rintro S ⟨hSstart, hSclosed⟩
  -- the services of S already hold all that is found
  have hsub : {x | x ∈ radius} ⊆ {x | x ∈ S ∧ b.kindOf x = some .service} := by
    refine hleast ⟨fun c hc => ?_, fun x y hy hxy => ⟨hSclosed x y hy.1 ⟨hxy, hy.2⟩, hxy.2⟩⟩
    have hchanged := (mem_present.mp hc).1
    exact ⟨hSstart c hchanged, hservices c hchanged⟩
  exact fun x hx => (hsub hx).1

/-- Both searches come to an end with a least closed set, in order: the world model's over usable
dependencies of services, the in-memory model's over all of them, from the changed entities it has. -/
theorem blast_radius_is_least_closure :
    (∀ (changed : List String) (assessments : List RelationshipQualification) (entities : EntityDict),
      FoundBy (dependents assessments entities) changed changed.reverse (blastRadius changed assessments entities) ∧
      (blastRadius changed assessments entities).Pairwise (· < ·) ∧
      IsLeast {S | ClosedFrom changed (UsableDependency assessments entities) S}
        {x | x ∈ blastRadius changed assessments entities}) ∧
    ∀ b : CompanyBrain, b.Anchored → ∀ changedServices : List String,
      ∃ radius, b.blastRadiusOf changedServices = .ok radius ∧ b.SpreadEnds changedServices radius ∧
        radius.Pairwise (· < ·) ∧
        IsLeast {S | ClosedFrom (b.present changedServices) b.Dependency S} {x | x ∈ radius} ∧
        ((∀ c ∈ changedServices, b.kindOf c = some .service) →
          IsLeast {S | ClosedFrom changedServices
            (fun x y => b.Dependency x y ∧ b.kindOf y = some .service) S} {x | x ∈ radius}) := by
  constructor
  · intro changed assessments entities
    exact ⟨blastRadius_found changed assessments entities, blastRadius_increasing changed assessments entities,
      blastRadius_isLeast changed assessments entities⟩
  · intro b h changedServices
    have hradius := h.blastRadiusOf_eq changedServices
    exact ⟨_, hradius, h.spreadEnds hradius, pairwise_sortedSet _, h.blastRadiusOf_isLeast hradius,
      h.blastRadiusOf_services hradius⟩

/-- Two services that depend on each other, and one that depends on the first. -/
def circular : CompanyBrain where
  entities := ⟨[⟨"service:ledger", .service, "ledger", [], by decide +kernel⟩,
    ⟨"service:pay", .service, "pay", [], by decide +kernel⟩,
    ⟨"service:portal", .service, "portal", [], by decide +kernel⟩], by decide +kernel⟩
  evidence := Table.empty
  related := ⟨[⟨"service:ledger", "service:pay", .dependsOn, [], by decide +kernel⟩,
    ⟨"service:pay", "service:ledger", .dependsOn, [], by decide +kernel⟩,
    ⟨"service:portal", "service:pay", .dependsOn, [], by decide +kernel⟩], by decide +kernel⟩

theorem circular_blast_radius :
    ∃ radius, circular.blastRadiusOf ["service:ledger"] = .ok radius ∧
      IsLeast {S | ClosedFrom ["service:ledger"]
        (fun x y => circular.Dependency x y ∧ circular.kindOf y = some .service) S} {x | x ∈ radius} := by
  have hanchored : circular.Anchored := by
    unfold Anchored
    decide
  have hservices : ∀ c ∈ ["service:ledger"], circular.kindOf c = some .service := by decide
  obtain ⟨radius, hradius, -, -, -, hleast⟩ :=
    blast_radius_is_least_closure.2 circular hanchored ["service:ledger"]
  exact ⟨radius, hradius, hleast hservices⟩

example : (circular.blastRadiusOf ["service:ledger", "service:ghost"]).toOption =
    some ["service:ledger", "service:pay", "service:portal"] := by decide

/-- A changed service the in-memory model does not know is left out of its blast radius. -/
theorem unknown_service_left_out :
    ¬ ∀ b : CompanyBrain, b.Anchored → ∀ changedServices : List String,
      ∃ radius, b.blastRadiusOf changedServices = .ok radius ∧
        IsLeast {S | ClosedFrom changedServices
          (fun x y => b.Dependency x y ∧ b.kindOf y = some .service) S} {x | x ∈ radius} := by
  intro h
  obtain ⟨radius, hradius, ⟨hstart, -⟩, -⟩ := h empty (fun r hr => nomatch hr) ["service:ghost"]
  have hnone : empty.blastRadiusOf ["service:ghost"] = .ok [] := rfl
  rw [hnone] at hradius
  cases hradius
  exact List.not_mem_nil (hstart "service:ghost" List.mem_cons_self)

end CompanyBrain

end EngineeringIntelligence
