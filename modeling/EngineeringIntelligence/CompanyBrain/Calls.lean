import EngineeringIntelligence.CompanyBrain.Plan

namespace EngineeringIntelligence.CompanyBrain

open EngineeringIntelligence.Framework EngineeringIntelligence.Ingestion

/-! Calls of the projector: what a call is about to do is decided on the state it finds, before
anything is written. -/

/-- The argument of `project_file_change` or of `project_knowledge_change`. -/
inductive SourceChange where
  | file (c : FileChange)
  | knowledge (c : KnowledgeChange)

namespace SourceChange

def provider : SourceChange → String
  | file c => c.source.provider
  | knowledge c => c.document.identity.provider

def documentId : SourceChange → String
  | file c => c.source.documentId
  | knowledge c => c.document.identity.documentId

def revision : SourceChange → String
  | file c => c.source.commitSha
  | knowledge c => c.document.revision

def policyVersion : SourceChange → String
  | file _ => fileChangeProjectionPolicyVersion
  | knowledge _ => knowledgeDocumentProjectionPolicyVersion

def sourceKind : SourceChange → String
  | file _ => "file"
  | knowledge _ => "knowledge"

def sourceKey : SourceChange → String
  | file c => "file:" ++ c.source.documentId
  | knowledge c => "knowledge:" ++ c.document.identity.documentId

def changeType : SourceChange → ChangeType
  | file c => c.changeType
  | knowledge c => c.changeType

def fingerprint (sha256 : String → String) : SourceChange → String
  | file c => changeFingerprint sha256 c
  | knowledge c => knowledgeFingerprint sha256 c.document

/-- What the change states when it is an upsert. -/
def upsert : SourceChange → Upsert
  | file c => .ofFile c
  | knowledge c => .ofDocument c.document

theorem sound : (c : SourceChange) → c.upsert.Sound
  | file c => Upsert.sound_file c
  | knowledge c => Upsert.sound_document c.document

end SourceChange

/-- A call of the projector, with its keyword argument and what the clock says meanwhile. -/
structure Call where
  change : SourceChange
  eventId : Option String
  clock : Clock

namespace Call

/-- The provenance the call builds. -/
def provenance (c : Call) : Except BrainError BrainProvenance :=
  BrainProvenance.make c.change.provider c.change.documentId c.change.revision c.change.policyVersion
    c.clock.observed c.eventId

end Call

namespace MemoryProjector

/-- One call, as a step on the store and the journal. -/
def step (q : MemoryProjector) (sha256 : String → String) (m : Memory) (c : Call) :
    Memory × Except BrainError ProjectionReceipt :=
  match c.change with
  | .file change => q.projectFileChange c.clock sha256 change c.eventId m
  | .knowledge change => q.projectKnowledgeChange c.clock sha256 change c.eventId m

end MemoryProjector

/-! ### Intents -/

/-- What a call is about to do: raise, leave everything, note the deletion of a source it does not
know, or carry a plan out and then put a projection into the journal. -/
inductive Intent where
  | raises (x : BrainError)
  | keeps (r : ProjectionReceipt)
  | notes (projection : BrainSourceProjection)
  | carries (plan : Plan) (record : Except BrainError BrainSourceProjection)

def Intent.enact (q : MemoryProjector) (clock : Clock) (m : Memory) :
    Intent → Memory × Except BrainError ProjectionReceipt
  | raises x => (m, .error x)
  | keeps r => (m, .ok r)
  | notes projection =>
    ({ m with journal := m.journal.put projection }, .ok (receipt projection false true))
  | carries plan record =>
    match plan.carryOut q clock m.store with
    | (s, .error x) => ({ m with store := s }, .error x)
    | (s, .ok ()) =>
      match record with
      | .error x => ({ m with store := s }, .error x)
      | .ok projection => (⟨s, m.journal.put projection⟩, .ok (receipt projection true false))

/-- The plan that brings the store from what a source contributed to what it contributes now. -/
def planOf (provenance : BrainProvenance) (entities : List BrainEntity) (evidence : Option BrainEvidence)
    (previous projection : Option BrainSourceProjection) (candidates : List BrainSourceProjection) :
    Plan :=
  ⟨provenance, entities, evidence, MemoryProjector.affected previous projection,
    (previous.elim [] (·.evidenceIds)).filter (· ∉ candidates.flatMap (·.evidenceIds)),
    (previous.elim [] (·.ownedEntityIds)).filter (· ∉ candidates.flatMap (·.ownedEntityIds)),
    candidates⟩

namespace MemoryProjector

variable (q : MemoryProjector) (clock : Clock)

/-- The projection `_materialize` builds. -/
def projectionOf (sourceKey sourceKind fingerprint : String) (provenance : BrainProvenance)
    (model : CompanyBrain) (result : ProjectionResult) : Except BrainError BrainSourceProjection :=
  let entities := describedEntities model result.entityIds
  match contributedRelationships model result.evidenceId with
  | .error x => .error x
  | .ok relationships =>
    BrainSourceProjection.make q.tenantId sourceKey sourceKind .active fingerprint provenance
      (sortedBy id (entities.map (·.entityId)))
      (sortedBy id ((entities.filter isSourceOwned).map (·.entityId)))
      [result.evidenceId] relationships clock.projected

/-- What an upsert is about to do. -/
def upsertIntent (sourceKey sourceKind fingerprint : String) (provenance : BrainProvenance)
    (u : Upsert) (m : Memory) : Intent :=
  match q.assertNotConflictingReplay m.journal sourceKey fingerprint .active provenance with
  | .error x => .raises x
  | .ok previous =>
    match previous.filter fun p => p.state = .active && p.fingerprint = fingerprint with
    | some p => .keeps (receipt p false true)
    | none =>
      match m.store.snapshot q.tenantId with
      | .error x => .raises x
      | .ok snapshot =>
        match u.project snapshot with
        | .error x => .raises x
        | .ok (model, result) =>
          match q.projectionOf clock sourceKey sourceKind fingerprint provenance model result with
          | .error x => .raises x
          | .ok projection =>
            .carries (planOf provenance (describedEntities model result.entityIds)
              (model.evidence.get result.evidenceId) previous (some projection)
              (q.activeCandidates m.journal projection)) (.ok projection)

/-- What a deletion is about to do. -/
def deleteIntent (sourceKey sourceKind fingerprint : String) (provenance : BrainProvenance)
    (m : Memory) : Intent :=
  match q.assertNotConflictingReplay m.journal sourceKey fingerprint .deleted provenance with
  | .error x => .raises x
  | .ok none =>
    match BrainSourceProjection.make q.tenantId sourceKey sourceKind .deleted fingerprint provenance
        [] [] [] [] clock.projected with
    | .error x => .raises x
    | .ok projection => .notes projection
  | .ok (some previous) =>
    if previous.state = .deleted then .keeps (receipt previous false true)
    else .carries (planOf provenance [] none (some previous) none (q.others m.journal sourceKey))
      (BrainSourceProjection.make q.tenantId sourceKey sourceKind .deleted fingerprint provenance
        previous.entityIds previous.ownedEntityIds previous.evidenceIds previous.relationships
        clock.projected)

/-- What a call is about to do. -/
def intent (sha256 : String → String) (c : Call) (m : Memory) : Intent :=
  match c.provenance with
  | .error x => .raises x
  | .ok provenance =>
    match c.change.changeType with
    | .delete => q.deleteIntent c.clock c.change.sourceKey c.change.sourceKind
        ("deleted:" ++ c.change.documentId) provenance m
    | .upsert => q.upsertIntent c.clock c.change.sourceKey c.change.sourceKind
        (c.change.fingerprint sha256) provenance c.change.upsert m

end MemoryProjector

section
variable {q : MemoryProjector} {clock : Clock}

theorem retire_filtered (previous : Option BrainSourceProjection)
    (candidates : List BrainSourceProjection) (provenance : BrainProvenance)
    (entities : List BrainEntity) (evidence : Option BrainEvidence)
    (projection : Option BrainSourceProjection) :
    q.retireUnreferenced clock previous candidates =
      sweep (fun i => perform ((planOf provenance entities evidence previous projection
        candidates).round q clock i))
        (((previous.elim [] (·.evidenceIds)).filter
            (· ∉ candidates.flatMap (·.evidenceIds))).map .retireEvidence ++
          ((previous.elim [] (·.ownedEntityIds)).filter
            (· ∉ candidates.flatMap (·.ownedEntityIds))).map .retireEntity) := by
  rw [sweep_append, sweep_map, sweep_map]
  dsimp only [Plan.round, planOf]
  rw [sweep_filter, sweep_filter]
  · cases previous <;> rfl
  · intro id s hid
    have hmem : id ∈ candidates.flatMap (·.ownedEntityIds) := by simpa using hid
    simp [perform, MemoryProjector.retireEntity, hmem, Round.run]
  · intro id s hid
    have hmem : id ∈ candidates.flatMap (·.evidenceIds) := by simpa using hid
    simp [perform, MemoryProjector.retireEvidence, hmem, Round.run]

theorem materializeStore_eq (provenance : BrainProvenance) (entities : List BrainEntity)
    (v : BrainEvidence) (previous : Option BrainSourceProjection) (projection : BrainSourceProjection)
    (candidates : List BrainSourceProjection) :
    q.materializeStore clock provenance entities (some v) previous projection candidates =
      (planOf provenance entities (some v) previous (some projection) candidates).carryOut q clock := by
  rw [Plan.carryOut, Plan.items, List.append_assoc, sweep_append, sweep_append, sweep_append,
    andThen_assoc, andThen_assoc, MemoryProjector.materializeStore,
    retire_filtered previous candidates provenance entities (some v) (some projection)]
  dsimp only [planOf, Option.toList_some]
  rw [sweep_map, sweep_map, sweep_singleton, sweep_map]
  rfl

theorem deleteStore_eq (provenance : BrainProvenance) (previous : BrainSourceProjection)
    (candidates : List BrainSourceProjection) :
    andThen (q.reconcileRelationships clock (some previous) none candidates)
        (fun _ => q.retireUnreferenced clock (some previous) candidates) =
      (planOf provenance [] none (some previous) none candidates).carryOut q clock := by
  rw [Plan.carryOut, Plan.items, List.append_assoc, sweep_append,
    retire_filtered (some previous) candidates provenance [] none none]
  simp only [planOf, Option.toList_none, List.map_nil, List.nil_append, sweep_map]
  rfl

/-- An upsert does what it was about to do. -/
theorem upsert_eq {u : Upsert} (hu : u.Sound) (sourceKey sourceKind fingerprint : String)
    (provenance : BrainProvenance) (m : Memory) :
    q.upsert clock sourceKey sourceKind fingerprint provenance u.project m =
      (q.upsertIntent clock sourceKey sourceKind fingerprint provenance u m).enact q clock m := by
  unfold MemoryProjector.upsert MemoryProjector.upsertIntent
  generalize q.assertNotConflictingReplay m.journal sourceKey fingerprint .active provenance = previous
  cases previous with
  | error x => rfl
  | ok previous =>
  dsimp only
  cases previous.filter fun p => p.state = .active && p.fingerprint = fingerprint with
  | some p => rfl
  | none =>
  cases m.store.snapshot q.tenantId with
  | error x => rfl
  | ok snapshot =>
  dsimp only
  generalize hproject : u.project snapshot = out
  cases out with
  | error x => rfl
  | ok out =>
  obtain ⟨model, result⟩ := out
  obtain ⟨-, hid, hprojected⟩ := Upsert.project_ok hu hproject
  obtain ⟨v, -, -, hv, -⟩ := hprojected.records
  rw [← hid] at hv
  unfold MemoryProjector.materialize MemoryProjector.projectionOf
  dsimp only
  cases MemoryProjector.contributedRelationships model result.evidenceId with
  | error x => rfl
  | ok relationships =>
  dsimp only
  generalize BrainSourceProjection.make _ _ _ _ _ _ _ _ _ _ _ = projection
  cases projection with
  | error x => rfl
  | ok projection =>
    simp only [Intent.enact, hv, materializeStore_eq] <;> rfl

/-- A deletion does what it was about to do. -/
theorem delete_eq (sourceKey sourceKind fingerprint : String) (provenance : BrainProvenance)
    (m : Memory) : q.delete clock sourceKey sourceKind fingerprint provenance m =
      (q.deleteIntent clock sourceKey sourceKind fingerprint provenance m).enact q clock m := by
  unfold MemoryProjector.delete MemoryProjector.deleteIntent
  generalize q.assertNotConflictingReplay m.journal sourceKey fingerprint .deleted provenance = previous
  cases previous with
  | error x => rfl
  | ok previous =>
  cases previous with
  | none =>
    dsimp only
    generalize BrainSourceProjection.make _ _ _ _ _ _ _ _ _ _ _ = projection
    cases projection <;> rfl
  | some previous =>
    dsimp only
    split
    · rfl
    · simp only [Intent.enact, deleteStore_eq provenance] <;> rfl

/-- Every call does what it was about to do. -/
theorem step_eq (sha256 : String → String) (m : Memory) (c : Call) :
    q.step sha256 m c = (q.intent sha256 c m).enact q c.clock m := by
  obtain ⟨change, eventId, clock⟩ := c
  cases change with
  | file f =>
    simp only [MemoryProjector.step, MemoryProjector.projectFileChange, MemoryProjector.intent,
      Call.provenance, SourceChange.provider, SourceChange.documentId, SourceChange.revision,
      SourceChange.policyVersion, SourceChange.changeType]
    cases BrainProvenance.make f.source.provider f.source.documentId f.source.commitSha
      fileChangeProjectionPolicyVersion clock.observed eventId with
    | error x => rfl
    | ok provenance =>
    cases htype : f.changeType with
    | delete => exact delete_eq _ _ _ _ _
    | upsert =>
      rw [Upsert.projectFile_eq htype]
      exact upsert_eq (Upsert.sound_file f) _ _ _ _ _
  | knowledge k =>
    simp only [MemoryProjector.step, MemoryProjector.projectKnowledgeChange, MemoryProjector.intent,
      Call.provenance, SourceChange.provider, SourceChange.documentId, SourceChange.revision,
      SourceChange.policyVersion, SourceChange.changeType]
    cases BrainProvenance.make k.document.identity.provider k.document.identity.documentId
      k.document.revision knowledgeDocumentProjectionPolicyVersion clock.observed eventId with
    | error x => rfl
    | ok provenance =>
    cases k.changeType with
    | delete => exact delete_eq _ _ _ _ _
    | upsert =>
      rw [Upsert.projectKnowledge_eq]
      exact upsert_eq (Upsert.sound_document k.document) _ _ _ _ _

end

end EngineeringIntelligence.CompanyBrain
