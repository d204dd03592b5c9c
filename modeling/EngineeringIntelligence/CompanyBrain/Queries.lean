import EngineeringIntelligence.CompanyBrain.WorldModel

namespace EngineeringIntelligence

open CompanyBrain Framework

/-! The queries of the in-memory model, which look entities up without asking whether they are
there. -/

/-- What a query of the in-memory model raises; `key` is the `KeyError` of a dictionary. -/
inductive CompanyBrain.QueryError where
  | companyBrain (message : String)
  | key (k : String)
  deriving DecidableEq, Repr

namespace CompanyBrain

variable (b : CompanyBrain)

/-- `self.entities[entity_id]`. -/
def entityAt (entityId : String) : Except QueryError BrainEntity :=
  match b.entities.get entityId with
  | none => .error (.key entityId)
  | some e => .ok e

/-- `self.evidence[evidence_id]`. -/
def evidenceAt (evidenceId : String) : Except QueryError BrainEvidence :=
  match b.evidence.get evidenceId with
  | none => .error (.key evidenceId)
  | some v => .ok v

def outgoing (entityId : String) (kind : RelationshipKind) : List BrainRelationship :=
  b.relationships.filter fun r => r.sourceId = entityId && r.kind = kind

def incoming (entityId : String) (kind : RelationshipKind) : List BrainRelationship :=
  b.relationships.filter fun r => r.targetId = entityId && r.kind = kind

/-- The sources of some relationships whose entities are of some kinds. -/
def sourcesOf (relationships : List BrainRelationship) (kinds : List EntityKind) :
    Except QueryError (List String) := do
  let found ← relationships.mapM fun r =>
    (b.entityAt r.sourceId).map fun e => if e.kind ∈ kinds then some r.sourceId else none
  return sortedBy id (found.filterMap id)

def servicesForRepository (repositoryId : String) : Except QueryError (List String) :=
  b.sourcesOf (b.incoming repositoryId .belongsTo) [.service]

def ownerIdsForService (serviceId : String) : Except QueryError (List String) :=
  b.sourcesOf (b.incoming serviceId .owns) [.owner, .team]

/-- The inner loop of `blast_radius`, over the dependencies on one service. -/
def visitDependents (seen pending : List String) :
    List BrainRelationship → Except QueryError (List String × List String)
  | [] => .ok (seen, pending)
  | r :: rest =>
    if r.sourceId ∈ seen then visitDependents seen pending rest
    else
      match b.entityAt r.sourceId with
      | .error x => .error x
      | .ok e =>
        if e.kind = .service then visitDependents (r.sourceId :: seen) (r.sourceId :: pending) rest
        else visitDependents seen pending rest

/-- The outer loop, for so many services taken off `pending`. -/
def spread : Nat → List String → List String → Except QueryError (List String)
  | 0, seen, _ => .ok seen
  | _ + 1, seen, [] => .ok seen
  | n + 1, seen, current :: pending =>
    match b.visitDependents seen pending (b.incoming current .dependsOn) with
    | .error x => .error x
    | .ok (seen, pending) => spread n seen pending

/-- `blast_radius`. Each entity is pushed once. -/
def blastRadiusOf (changedServices : List String) : Except QueryError (List String) := do
  let present := (changedServices.filter fun service => (b.entities.get service).isSome).dedup
  let seen ← b.spread (present.length + b.related.rows.length) present present.reverse
  return sortedSet seen

def authorizedEvidence (entityIds : List String) (principal : BrainPrincipal) :
    Except QueryError (List BrainEvidence) := do
  let evidenceIds := sortedSet (entityIds.flatMap fun entityId =>
    ((b.outgoing entityId .hasEvidence).map (·.targetId)).filter fun id => (b.evidence.get id).isSome)
  let found ← evidenceIds.mapM b.evidenceAt
  return found.filter (·.visibleTo principal)

/-- Authorized company context suitable for a product workflow. -/
structure CompanyBrainContext where
  repositoryId : String
  changedServices : List String
  blastRadius : List String
  ownerIds : List String
  evidence : List BrainEvidence
  limitations : List String

/-- `CompanyBrain.context_for_change`. -/
def contextForChange (repositoryId : String) (changedServices : List String) (principal : BrainPrincipal) :
    Except QueryError CompanyBrainContext :=
  if (b.entities.get repositoryId).map (·.kind) ≠ some .repository then
    .error (.companyBrain "repository_id does not identify a repository")
  else do
    let repositoryServices ← b.servicesForRepository repositoryId
    let requested := sortedSet changedServices
    let scopedChanged := requested.filter (· ∈ repositoryServices)
    let radius ← b.blastRadiusOf scopedChanged
    let authorized ← b.authorizedEvidence (repositoryId :: radius) principal
    let owners ← radius.mapM b.ownerIdsForService
    let unmapped := requested.filter (· ∉ repositoryServices)
    return {
      repositoryId
      changedServices := scopedChanged
      blastRadius := radius
      ownerIds := sortedSet owners.flatten
      evidence := authorized
      limitations :=
        (if unmapped ≠ [] then
          ["Changed services are outside the repository scope: " ++ ", ".intercalate unmapped ++ "."]
          else []) ++
        (if authorized = [] then
          ["No authorized evidence was available for the requested company context."] else []) }

/-! ### Queries of a model whose relationships have their ends -/

/-- The ends of every relationship are entities. -/
def Anchored : Prop :=
  ∀ r ∈ b.related.rows, (b.entities.get r.sourceId).isSome = true ∧ (b.entities.get r.targetId).isSome = true

variable {b}

theorem mem_incoming {r : BrainRelationship} {entityId : String} {kind : RelationshipKind} :
    r ∈ b.incoming entityId kind ↔ r ∈ b.related.rows ∧ r.targetId = entityId ∧ r.kind = kind := by
  simp [incoming, relationships]

theorem entityAt_isOk {entityId : String} (h : (b.entities.get entityId).isSome = true) :
    ∃ e, b.entities.get entityId = some e ∧ b.entityAt entityId = .ok e := by
  obtain ⟨e, he⟩ := Option.isSome_iff_exists.mp h
  exact ⟨e, he, by rw [entityAt, he]⟩

theorem Anchored.sourcesOf_isOk (h : b.Anchored) {relationships : List BrainRelationship}
    (hrelationships : ∀ r ∈ relationships, r ∈ b.related.rows) (kinds : List EntityKind) :
    (b.sourcesOf relationships kinds).isOk = true := by
  have hall : ∀ r ∈ relationships, ((b.entityAt r.sourceId).map fun e =>
      if e.kind ∈ kinds then some r.sourceId else none).isOk = true := by
    intro r hr
    obtain ⟨e, -, he⟩ := entityAt_isOk (h r (hrelationships r hr)).1
    rw [he]
    rfl
  obtain ⟨found, hfound⟩ := isOk_iff.mp (mapM_isOk_iff.mpr hall)
  rw [sourcesOf, hfound]
  rfl

/-- The services that depend on one, in the order they are looked at. -/
def dependentsOf (b : CompanyBrain) (current : String) : List String :=
  ((b.incoming current .dependsOn).map (·.sourceId)).filter fun id =>
    (b.entities.get id).map (·.kind) = some .service

/-- With its entities there, the inner loop is a visit of the dependent services. -/
theorem Anchored.visitDependents_eq (h : b.Anchored) {rest : List BrainRelationship}
    (hrest : ∀ r ∈ rest, r ∈ b.related.rows) (seen pending : List String) :
    b.visitDependents seen pending rest = .ok (visit seen pending ((rest.map (·.sourceId)).filter fun id =>
      (b.entities.get id).map (·.kind) = some .service)) := by
  induction rest generalizing seen pending with
  | nil => rfl
  | cons r rest ih =>
    have htail := ih fun r' hr' => hrest r' (List.mem_cons_of_mem r hr')
    obtain ⟨e, he, hat⟩ := entityAt_isOk (h r (hrest r List.mem_cons_self)).1
    rw [visitDependents, List.map_cons, List.filter_cons, he, hat]
    by_cases hkind : e.kind = .service
    · simp only [Option.map_some, hkind, decide_true, if_true, visit]
      split
      · exact htail seen pending
      · exact htail _ _
    · simp only [Option.map_some, Option.some.injEq, hkind, decide_false, Bool.false_eq_true, if_false]
      split
      · exact htail seen pending
      · exact htail seen pending

theorem Anchored.spread_eq (h : b.Anchored) (n : Nat) (seen pending : List String) :
    b.spread n seen pending = .ok (worklist b.dependentsOf n seen pending) := by
  induction n generalizing seen pending with
  | zero => rfl
  | succ n ih =>
    cases pending with
    | nil => rfl
    | cons current pending =>
      rw [spread, h.visitDependents_eq (fun r hr => (mem_incoming.mp hr).1)]
      exact ih _ _

/-- The services a change of some services reaches. -/
theorem Anchored.mem_blastRadiusOf (h : b.Anchored) (changedServices : List String) :
    ∃ radius, b.blastRadiusOf changedServices = .ok radius ∧ ∀ x, x ∈ radius ↔
      ∃ c ∈ changedServices, (b.entities.get c).isSome = true ∧
        Relation.ReflTransGen (fun y z => z ∈ b.dependentsOf y) c x := by
  refine ⟨_, by rw [blastRadiusOf, h.spread_eq]; rfl, fun x => ?_⟩
  have hnodes : ∀ y, ∀ z ∈ b.dependentsOf y, z ∈ b.related.rows.map (·.sourceId) := by
    intro y z hz
    obtain ⟨r, hr, rfl⟩ := List.mem_map.mp (List.mem_filter.mp hz).1
    exact List.mem_map_of_mem (mem_incoming.mp hr).1
  rw [mem_sortedSet, mem_worklist hnodes (fun z => List.mem_reverse) (by simp)]
  simp only [List.mem_dedup, List.mem_filter, and_assoc]

theorem authorizedEvidence_isOk (b : CompanyBrain) (entityIds : List String) (principal : BrainPrincipal) :
    (b.authorizedEvidence entityIds principal).isOk = true := by
  unfold authorizedEvidence
  generalize hids : sortedSet (entityIds.flatMap fun entityId =>
    ((b.outgoing entityId .hasEvidence).map (·.targetId)).filter fun id => (b.evidence.get id).isSome) = ids
  have hall : ∀ id ∈ ids, (b.evidenceAt id).isOk = true := by
    intro id hid
    rw [← hids, mem_sortedSet, List.mem_flatMap] at hid
    obtain ⟨entityId, -, hmem⟩ := hid
    obtain ⟨v, hv⟩ := Option.isSome_iff_exists.mp (List.mem_filter.mp hmem).2
    rw [evidenceAt, hv]
    rfl
  obtain ⟨found, hfound⟩ := isOk_iff.mp (mapM_isOk_iff.mpr hall)
  dsimp only
  rw [hfound]
  rfl

theorem Anchored.ownerIdsForService_isOk (h : b.Anchored) (serviceId : String) :
    (b.ownerIdsForService serviceId).isOk = true :=
  h.sourcesOf_isOk (fun _ hr => (mem_incoming.mp hr).1) _

theorem Anchored.servicesForRepository_isOk (h : b.Anchored) (repositoryId : String) :
    (b.servicesForRepository repositoryId).isOk = true :=
  h.sourcesOf_isOk (fun _ hr => (mem_incoming.mp hr).1) _

/-- A query of such a model raises only for an id that is not that of a repository. -/
theorem Anchored.contextForChange_isOk (h : b.Anchored) (repositoryId : String) (changedServices : List String)
    (principal : BrainPrincipal) :
    (b.contextForChange repositoryId changedServices principal).isOk = true ↔
      (b.entities.get repositoryId).map (·.kind) = some .repository := by
  unfold contextForChange
  split
  · next hkind => exact iff_of_false (by simp [Except.isOk, Except.toBool]) hkind
  · next hkind =>
    rw [not_not] at hkind
    refine iff_of_true ?_ hkind
    obtain ⟨services, hservices⟩ := isOk_iff.mp (h.servicesForRepository_isOk repositoryId)
    obtain ⟨radius, hradius, -⟩ := h.mem_blastRadiusOf ((sortedSet changedServices).filter (· ∈ services))
    obtain ⟨authorized, hauthorized⟩ :=
      isOk_iff.mp (b.authorizedEvidence_isOk (repositoryId :: radius) principal)
    obtain ⟨owners, howners⟩ := isOk_iff.mp (mapM_isOk_iff.mpr fun service (_ : service ∈ radius) =>
      h.ownerIdsForService_isOk service)
    rw [hservices, ok_bind]
    dsimp only
    rw [hradius, ok_bind, hauthorized, ok_bind, howners]
    rfl

theorem Anchored.contextForChange_ne_key (h : b.Anchored) (repositoryId : String)
    (changedServices : List String) (principal : BrainPrincipal) (k : String) :
    b.contextForChange repositoryId changedServices principal ≠ .error (.key k) := by
  intro hraised
  by_cases hkind : (b.entities.get repositoryId).map (·.kind) = some .repository
  · have hok := (h.contextForChange_isOk repositoryId changedServices principal).mpr hkind
    rw [hraised] at hok
    cases hok
  · rw [contextForChange, if_pos hkind] at hraised
    cases hraised

end CompanyBrain

end EngineeringIntelligence
