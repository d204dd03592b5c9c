import EngineeringIntelligence.Framework.Fallible
import EngineeringIntelligence.Framework.Sorted
import EngineeringIntelligence.Framework.Table
import Mathlib.Data.List.Lex
import Mathlib.Data.String.Basic

namespace EngineeringIntelligence

namespace CompanyBrain

open EngineeringIntelligence.Framework

inductive EntityKind where
  | repository | service | team | owner | adr | change | deployment | incident | runbook
  | workItem | document | conversation | finding | outcome | evidence
  deriving DecidableEq, Repr

def EntityKind.value : EntityKind → String
  | repository => "repository"
  | service => "service"
  | team => "team"
  | owner => "owner"
  | adr => "adr"
  | change => "change"
  | deployment => "deployment"
  | incident => "incident"
  | runbook => "runbook"
  | workItem => "work_item"
  | document => "document"
  | conversation => "conversation"
  | finding => "finding"
  | outcome => "outcome"
  | evidence => "evidence"

inductive RelationshipKind where
  | owns | dependsOn | changedBy | caused | resolvedBy | governedBy | belongsTo | hasEvidence
  | assessedBy | hasOutcome
  deriving DecidableEq, Repr

def RelationshipKind.value : RelationshipKind → String
  | owns => "owns"
  | dependsOn => "depends_on"
  | changedBy => "changed_by"
  | caused => "caused"
  | resolvedBy => "resolved_by"
  | governedBy => "governed_by"
  | belongsTo => "belongs_to"
  | hasEvidence => "has_evidence"
  | assessedBy => "assessed_by"
  | hasOutcome => "has_outcome"

theorem RelationshipKind.value_injective : Function.Injective RelationshipKind.value := by
  intro a b h
  revert h
  cases a <;> cases b <;> decide

/-- What the company brain raises, by exception class. The message of `unknownEvidence`
prints the identifiers it lists. -/
inductive BrainError where
  | companyBrain (message : String)
  | unknownEvidence (missing : List String)
  | store (message : String)
  | versionConflict (message : String)
  | retention (message : String)
  | memory (message : String)
  | value (message : String)
  deriving DecidableEq, Repr

/-- The test of the three `_required`: a line of text of at most `maximum` characters. -/
def required (maximum : Nat) (value : String) : Bool :=
  value ≠ "" && value.toList.length ≤ maximum && !value.toList.contains '\n'

/-- The message of the check a value fails. -/
def invalid (ok : Bool) (label : String) : Option String :=
  if ok then none else some (label ++ " is invalid")

/-- `_normalized_strings`, as the message it fails with. -/
def normalizedStrings (values : List String) (label : String) : Option String :=
  if values ≠ sortedSet values then some (label ++ " must be sorted and unique")
  else invalid (values.all (required 200)) label

/-- A pair of texts as `sorted` compares it. -/
def pairOrder (p : String × String) : List String := [p.1, p.2]

/-- `_normalized_attributes`, as the message it fails with. -/
def normalizedAttributes (values : List (String × String)) : Option String :=
  if values ≠ sortedBy pairOrder values ∨ ¬ (values.map (·.1)).Nodup then
    some "attributes must be sorted by unique key"
  else values.findSome? fun p =>
    (invalid (required 100 p.1) "attribute key").or (invalid (required 500 p.2) "attribute value")

def entityProblem (entityId label : String) (attributes : List (String × String)) : Option String :=
  (invalid (required 500 entityId) "entity_id").or
    ((invalid (required 300 label) "entity label").or (normalizedAttributes attributes))

structure BrainEntity where
  entityId : String
  kind : EntityKind
  label : String
  attributes : List (String × String)
  valid : entityProblem entityId label attributes = none
  deriving DecidableEq

/-- `BrainEntity(...)`. -/
def BrainEntity.make (entityId : String) (kind : EntityKind) (label : String)
    (attributes : List (String × String)) : Except BrainError BrainEntity :=
  match h : entityProblem entityId label attributes with
  | some message => .error (.companyBrain message)
  | none => .ok ⟨entityId, kind, label, attributes, h⟩

def evidenceProblem (evidenceId sourceKind citation revision : String)
    (aclGroups aclUsers : List String) : Option String :=
  (invalid (required 500 evidenceId) "evidence_id").or
    ((invalid (required 100 sourceKind) "source_kind").or
      ((invalid (required 500 citation) "citation").or
        ((invalid (required 200 revision) "revision").or
          ((normalizedStrings aclGroups "evidence acl_groups").or
            (normalizedStrings aclUsers "evidence acl_users")))))

/-- An evidence pointer with the access list a reader is checked against. -/
structure BrainEvidence where
  evidenceId : String
  sourceKind : String
  citation : String
  revision : String
  aclGroups : List String
  aclUsers : List String
  valid : evidenceProblem evidenceId sourceKind citation revision aclGroups aclUsers = none
  deriving DecidableEq

def BrainEvidence.make (evidenceId sourceKind citation revision : String)
    (aclGroups aclUsers : List String) : Except BrainError BrainEvidence :=
  match h : evidenceProblem evidenceId sourceKind citation revision aclGroups aclUsers with
  | some message => .error (.companyBrain message)
  | none => .ok ⟨evidenceId, sourceKind, citation, revision, aclGroups, aclUsers, h⟩

/-- What tells relationships apart. -/
structure EdgeKey where
  sourceId : String
  kind : RelationshipKind
  targetId : String
  deriving DecidableEq, Repr

/-- The tuple relationships are sorted by. -/
def EdgeKey.order (k : EdgeKey) : List String := [k.sourceId, k.kind.value, k.targetId]

theorem EdgeKey.order_injective : Function.Injective EdgeKey.order := by
  rintro ⟨s, k, t⟩ ⟨s', k', t'⟩ h
  simp only [EdgeKey.order, List.cons.injEq, and_true] at h
  obtain ⟨rfl, hkind, rfl⟩ := h
  rw [RelationshipKind.value_injective hkind]

def relationshipProblem (sourceId targetId : String) (evidenceIds : List String) : Option String :=
  (invalid (required 500 sourceId) "relationship source_id").or
    ((invalid (required 500 targetId) "relationship target_id").or
      (if sourceId = targetId then some "relationship endpoints must differ"
      else normalizedStrings evidenceIds "relationship evidence_ids"))

structure BrainRelationship where
  sourceId : String
  targetId : String
  kind : RelationshipKind
  evidenceIds : List String
  valid : relationshipProblem sourceId targetId evidenceIds = none
  deriving DecidableEq

def BrainRelationship.make (sourceId targetId : String) (kind : RelationshipKind)
    (evidenceIds : List String) : Except BrainError BrainRelationship :=
  match h : relationshipProblem sourceId targetId evidenceIds with
  | some message => .error (.companyBrain message)
  | none => .ok ⟨sourceId, targetId, kind, evidenceIds, h⟩

def BrainRelationship.key (r : BrainRelationship) : EdgeKey := ⟨r.sourceId, r.kind, r.targetId⟩

end CompanyBrain

open CompanyBrain Framework

/-- The in-memory reference model. A dictionary is the table of its values: each holds its key. -/
structure CompanyBrain where
  entities : Table BrainEntity.entityId
  evidence : Table BrainEvidence.evidenceId
  related : Table BrainRelationship.key

namespace CompanyBrain

def empty : CompanyBrain := ⟨Table.empty, Table.empty, Table.empty⟩

def upsertEntity (b : CompanyBrain) (e : BrainEntity) : CompanyBrain :=
  { b with entities := b.entities.put e }

/-- The entity that stands for a piece of evidence in the graph. -/
def evidenceEntity (v : BrainEvidence) : Except BrainError BrainEntity :=
  BrainEntity.make v.evidenceId .evidence v.citation
    [("revision", v.revision), ("source_kind", v.sourceKind)]

/-- `record_evidence`; the pointer is kept even when its entity cannot be built. -/
def recordEvidence (b : CompanyBrain) (v : BrainEvidence) : CompanyBrain × Except BrainError Unit :=
  let recorded := { b with evidence := b.evidence.put v }
  match evidenceEntity v with
  | .error x => (recorded, .error x)
  | .ok entity => (recorded.upsertEntity entity, .ok ())

def removeEntity (b : CompanyBrain) (entityId : String) : CompanyBrain :=
  { b with
    entities := b.entities.select fun e => e.entityId ≠ entityId
    related := b.related.select fun r => r.sourceId ≠ entityId ∧ r.targetId ≠ entityId }

def removeEvidence (b : CompanyBrain) (evidenceId : String) : CompanyBrain :=
  { b with evidence := b.evidence.select fun v => v.evidenceId ≠ evidenceId }.removeEntity evidenceId

/-- `relate`, with the relationship it returns. -/
def relate (b : CompanyBrain) (sourceId targetId : String) (kind : RelationshipKind)
    (evidenceIds : List String) : Except BrainError (CompanyBrain × BrainRelationship) :=
  if (b.entities.get sourceId).isNone ∨ (b.entities.get targetId).isNone then
    .error (.companyBrain "relationship endpoints must exist before they are linked")
  else
    let missing := evidenceIds.filter fun v => (b.evidence.get v).isNone
    if missing ≠ [] then .error (.unknownEvidence (sortedSet missing))
    else
      let previous := (b.related.get ⟨sourceId, kind, targetId⟩).elim [] (·.evidenceIds)
      match BrainRelationship.make sourceId targetId kind (sortedSet (evidenceIds ++ previous)) with
      | .error x => .error x
      | .ok relationship => .ok ({ b with related := b.related.put relationship }, relationship)

def relationships (b : CompanyBrain) : List BrainRelationship :=
  sortedBy (fun r => r.key.order) b.related.rows

/-! ### What the constructors promise -/

theorem invalid_eq_none {ok : Bool} {label : String} : invalid ok label = none ↔ ok = true := by
  cases ok <;> simp [invalid]

theorem normalizedStrings_eq_none {values : List String} {label : String} :
    normalizedStrings values label = none ↔
      values.Pairwise (· < ·) ∧ ∀ v ∈ values, required 200 v = true := by
  unfold normalizedStrings
  split
  · next h =>
    refine iff_of_false (by simp) fun hsorted => h ?_
    exact (sortedSet_of_increasing hsorted.1).symm
  · next h =>
    rw [not_not] at h
    have hsorted : values.Pairwise (· < ·) := h ▸ pairwise_sortedSet values
    rw [invalid_eq_none, List.all_eq_true, and_iff_right hsorted]

theorem relationshipProblem_eq_none {sourceId targetId : String} {evidenceIds : List String} :
    relationshipProblem sourceId targetId evidenceIds = none ↔
      required 500 sourceId = true ∧ required 500 targetId = true ∧ sourceId ≠ targetId ∧
        evidenceIds.Pairwise (· < ·) ∧ ∀ v ∈ evidenceIds, required 200 v = true := by
  unfold relationshipProblem
  rw [Option.or_eq_none_iff, Option.or_eq_none_iff, invalid_eq_none, invalid_eq_none]
  split
  · next h => exact iff_of_false (fun hnone => nomatch hnone.2.2) fun hnone => hnone.2.2.1 h
  · next h => rw [normalizedStrings_eq_none, and_iff_right (a := sourceId ≠ targetId) h]

theorem BrainRelationship.make_ok {sourceId targetId : String} {kind : RelationshipKind}
    {evidenceIds : List String} (h : relationshipProblem sourceId targetId evidenceIds = none) :
    BrainRelationship.make sourceId targetId kind evidenceIds =
      .ok ⟨sourceId, targetId, kind, evidenceIds, h⟩ := by
  unfold make
  split
  · next hproblem => rw [h] at hproblem; cases hproblem
  · rfl

theorem BrainRelationship.make_eq_ok {sourceId targetId : String} {kind : RelationshipKind}
    {evidenceIds : List String} {r : BrainRelationship}
    (h : BrainRelationship.make sourceId targetId kind evidenceIds = .ok r) :
    r.sourceId = sourceId ∧ r.targetId = targetId ∧ r.kind = kind ∧ r.evidenceIds = evidenceIds := by
  unfold make at h
  split at h
  · cases h
  · cases h
    exact ⟨rfl, rfl, rfl, rfl⟩

theorem BrainEntity.make_eq_ok {entityId label : String} {kind : EntityKind}
    {attributes : List (String × String)} {e : BrainEntity}
    (h : BrainEntity.make entityId kind label attributes = .ok e) :
    e.entityId = entityId ∧ e.kind = kind ∧ e.label = label ∧ e.attributes = attributes := by
  unfold make at h
  split at h
  · cases h
  · cases h
    exact ⟨rfl, rfl, rfl, rfl⟩

theorem BrainEvidence.make_eq_ok {evidenceId sourceKind citation revision : String}
    {aclGroups aclUsers : List String} {v : BrainEvidence}
    (h : BrainEvidence.make evidenceId sourceKind citation revision aclGroups aclUsers = .ok v) :
    v.evidenceId = evidenceId := by
  unfold make at h
  split at h
  · cases h
  · cases h
    rfl

end CompanyBrain

end EngineeringIntelligence
