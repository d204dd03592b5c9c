import EngineeringIntelligence.CompanyBrain.Governed
import EngineeringIntelligence.CompanyBrain.Queries
import EngineeringIntelligence.Framework.Run

namespace EngineeringIntelligence

open CompanyBrain Framework

/-- The calls that change the in-memory model. -/
inductive CompanyBrain.Mutator where
  | upsertEntity (entity : BrainEntity)
  | recordEvidence (evidence : BrainEvidence)
  | relate (sourceId targetId : String) (kind : RelationshipKind) (evidenceIds : List String)
  | removeEntity (entityId : String)
  | removeEvidence (evidenceId : String)

namespace CompanyBrain

/-- One call, which may raise and leave something behind. -/
def mutate (b : CompanyBrain) : Mutator → CompanyBrain × Except BrainError (Option BrainRelationship)
  | .upsertEntity e => (b.upsertEntity e, .ok none)
  | .recordEvidence v => ((b.recordEvidence v).1, (b.recordEvidence v).2.map fun _ => none)
  | .relate sourceId targetId kind evidenceIds =>
    match b.relate sourceId targetId kind evidenceIds with
    | .error x => (b, .error x)
    | .ok (b', r) => (b', .ok (some r))
  | .removeEntity entityId => (b.removeEntity entityId, .ok none)
  | .removeEvidence evidenceId => (b.removeEvidence evidenceId, .ok none)

/-- What the model's parts promise one another. -/
structure Integrity (b : CompanyBrain) : Prop where
  anchored : b.Anchored
  cited : ∀ r ∈ b.related.rows, ∀ id ∈ r.evidenceIds, (b.evidence.get id).isSome = true
  structural : ∀ id, (b.evidence.get id).isSome = true → (b.entities.get id).map (·.kind) = some .evidence

/-- The calls that keep it. Nothing in the code asks for this. -/
def KeepsIntegrity (b : CompanyBrain) : Mutator → Prop
  | .upsertEntity e => (b.evidence.get e.entityId).isSome = true → e.kind = .evidence
  | .recordEvidence v =>
    v.citation.toList.length ≤ 300 ∨ (b.entities.get v.evidenceId).map (·.kind) = some .evidence
  | .relate .. => True
  | .removeEntity entityId => (b.evidence.get entityId).isNone = true
  | .removeEvidence evidenceId =>
    ∀ r ∈ b.related.rows, evidenceId ∈ r.evidenceIds → r.sourceId = evidenceId ∨ r.targetId = evidenceId

variable {b : CompanyBrain}

/-! ### What one call does -/

theorem required_mono {m n : Nat} (h : m ≤ n) {value : String} (hvalue : required m value = true) :
    required n value = true := by
  simp only [required, Bool.and_eq_true, decide_eq_true_eq] at hvalue ⊢
  exact ⟨⟨hvalue.1.1, hvalue.1.2.trans h⟩, hvalue.2⟩

theorem BrainEntity.make_isOk {entityId label : String} {kind : EntityKind}
    {attributes : List (String × String)} :
    (BrainEntity.make entityId kind label attributes).isOk = true ↔
      entityProblem entityId label attributes = none := by
  unfold make
  split
  · next message h => exact iff_of_false nofun (by rw [h]; nofun)
  · next h => exact iff_of_true rfl h

/-- The entity of a pointer is refused only for the length of the citation it is labelled with. -/
theorem evidenceEntity_isOk {v : BrainEvidence} :
    (evidenceEntity v).isOk = true ↔ v.citation.toList.length ≤ 300 := by
  have hv := v.valid
  simp only [evidenceProblem, Option.or_eq_none_iff, invalid_eq_none] at hv
  obtain ⟨hid, hkind, hcitation, hrevision, -, -⟩ := hv
  have hattributes : normalizedAttributes [("revision", v.revision), ("source_kind", v.sourceKind)] = none := by
    have hkeys : required 100 "revision" = true ∧ required 100 "source_kind" = true := by decide
    have hsorted : sortedBy pairOrder [("revision", v.revision), ("source_kind", v.sourceKind)] =
        [("revision", v.revision), ("source_kind", v.sourceKind)] := by
      refine sortedBy_of_pairwise ?_
      have hlt : "revision" < "source_kind" := by decide
      have hle : pairOrder ("revision", v.revision) ≤ pairOrder ("source_kind", v.sourceKind) :=
        le_of_lt (List.Lex.rel hlt)
      simpa using hle
    have hnodup : ([("revision", v.revision), ("source_kind", v.sourceKind)].map (·.1)).Nodup := by
      simp
    rw [normalizedAttributes, if_neg (by simp [hsorted])]
    simp [List.findSome?, invalid, hkeys.1, hkeys.2, required_mono (by decide : 200 ≤ 500) hrevision,
      required_mono (by decide : 100 ≤ 500) hkind]
  have hlabel : required 300 v.citation = true ↔ v.citation.toList.length ≤ 300 := by
    simp only [required, Bool.and_eq_true, decide_eq_true_eq] at hcitation ⊢
    tauto
  have hproblem : entityProblem v.evidenceId v.citation
      [("revision", v.revision), ("source_kind", v.sourceKind)] = none ↔ v.citation.toList.length ≤ 300 := by
    rw [entityProblem, hattributes, Option.or_eq_none_iff, Option.or_eq_none_iff, invalid_eq_none,
      invalid_eq_none, hlabel, and_iff_right hid, and_iff_left rfl]
  rw [← hproblem, evidenceEntity, BrainEntity.make_isOk]

theorem get_removeEntity (entityId id : String) :
    (b.removeEntity entityId).entities.get id = if id = entityId then none else b.entities.get id :=
  Table.get_select_ne b.entities entityId id

theorem get_removeEvidence (evidenceId id : String) :
    (b.removeEvidence evidenceId).evidence.get id = if id = evidenceId then none else b.evidence.get id :=
  Table.get_select_ne b.evidence evidenceId id

theorem mem_removeEntity {entityId : String} {r : BrainRelationship} :
    r ∈ (b.removeEntity entityId).related.rows ↔
      r ∈ b.related.rows ∧ r.sourceId ≠ entityId ∧ r.targetId ≠ entityId := by
  simp [removeEntity, Table.select]

/-! ### Relationships keep their ends -/

/-- A call that leaves the relationships alone and removes no entity. -/
theorem Anchored.grown (h : b.Anchored) {b' : CompanyBrain} (hrelated : b'.related = b.related)
    (hentities : ∀ id, (b.entities.get id).isSome = true → (b'.entities.get id).isSome = true) :
    b'.Anchored := by
  intro r hr
  rw [hrelated] at hr
  obtain ⟨hsource, htarget⟩ := h r hr
  exact ⟨hentities _ hsource, hentities _ htarget⟩

theorem Anchored.upsertEntity (h : b.Anchored) (e : BrainEntity) : (b.upsertEntity e).Anchored := by
  refine h.grown rfl fun id hid => ?_
  show ((b.entities.put e).get id).isSome = true
  rw [Table.get_put]
  split
  · rfl
  · exact hid

theorem Anchored.recordEvidence (h : b.Anchored) (v : BrainEvidence) : (b.recordEvidence v).1.Anchored := by
  have hrecorded : ({ b with evidence := b.evidence.put v } : CompanyBrain).Anchored := h.grown rfl fun _ => id
  unfold CompanyBrain.recordEvidence
  dsimp only
  split
  · exact hrecorded
  · next e _ => exact hrecorded.upsertEntity e

theorem Anchored.relate (h : b.Anchored) {b' : CompanyBrain} {r : BrainRelationship}
    {sourceId targetId : String} {kind : RelationshipKind} {evidenceIds : List String}
    (hrelate : b.relate sourceId targetId kind evidenceIds = .ok (b', r)) : b'.Anchored := by
  obtain ⟨hsource, htarget, -, hmake, rfl⟩ := relate_ok_iff.mp hrelate
  obtain ⟨hrsource, hrtarget, -⟩ := BrainRelationship.make_eq_ok hmake
  intro x hx
  rcases Table.mem_put.mp hx with rfl | ⟨hold, -⟩
  · rw [hrsource, hrtarget]
    exact ⟨hsource, htarget⟩
  · exact h x hold

theorem Anchored.removeEntity (h : b.Anchored) (entityId : String) : (b.removeEntity entityId).Anchored := by
  intro r hr
  obtain ⟨hold, hsource, htarget⟩ := mem_removeEntity.mp hr
  rw [get_removeEntity, get_removeEntity, if_neg hsource, if_neg htarget]
  exact h r hold

theorem Anchored.removeEvidence (h : b.Anchored) (evidenceId : String) :
    (b.removeEvidence evidenceId).Anchored :=
  Anchored.removeEntity (b := { b with evidence := b.evidence.select fun v => v.evidenceId ≠ evidenceId })
    (h.grown rfl fun _ => id) evidenceId

theorem Anchored.mutate (h : b.Anchored) (m : Mutator) : (b.mutate m).1.Anchored := by
  cases m with
  | upsertEntity e => exact h.upsertEntity e
  | recordEvidence v => exact h.recordEvidence v
  | relate sourceId targetId kind evidenceIds =>
    rw [CompanyBrain.mutate]
    split
    · exact h
    · next hrelate => exact h.relate hrelate
  | removeEntity entityId => exact h.removeEntity entityId
  | removeEvidence evidenceId => exact h.removeEvidence evidenceId

/-! ### Which calls keep the rest -/

theorem Integrity.upsertEntity (h : b.Integrity) (e : BrainEntity) :
    (b.upsertEntity e).Integrity ↔ ((b.evidence.get e.entityId).isSome = true → e.kind = .evidence) := by
  constructor
  · intro hnext hrecorded
    have hat := hnext.structural e.entityId hrecorded
    simpa [CompanyBrain.upsertEntity] using hat
  · intro hkind
    refine ⟨h.anchored.upsertEntity e, h.cited, fun id hid => ?_⟩
    show ((b.entities.put e).get id).map _ = _
    rw [Table.get_put]
    split
    · next heq =>
      subst heq
      rw [Option.map_some, hkind hid]
    · exact h.structural id hid

/-- A pointer may be recorded once its entity is there. -/
theorem Integrity.pointer (h : b.Integrity) (v : BrainEvidence) :
    ({ b with evidence := b.evidence.put v } : CompanyBrain).Integrity ↔
      (b.entities.get v.evidenceId).map (·.kind) = some .evidence := by
  have hrecorded : ∀ id, (b.evidence.get id).isSome = true → ((b.evidence.put v).get id).isSome = true := by
    intro id hid
    rw [Table.get_put]
    split
    · rfl
    · exact hid
  constructor
  · intro hnext
    exact hnext.structural v.evidenceId (by simp)
  · intro hentity
    refine ⟨h.anchored.grown rfl fun _ => id, fun r hr id hid => hrecorded id (h.cited r hr id hid), ?_⟩
    intro id hid
    by_cases heq : id = v.evidenceId
    · rw [heq]
      exact hentity
    · rw [Table.get_put_of_ne _ heq] at hid
      exact h.structural id hid

theorem Integrity.recordEvidence (h : b.Integrity) (v : BrainEvidence) :
    (b.recordEvidence v).1.Integrity ↔
      v.citation.toList.length ≤ 300 ∨ (b.entities.get v.evidenceId).map (·.kind) = some .evidence := by
  rw [← evidenceEntity_isOk]
  unfold CompanyBrain.recordEvidence
  dsimp only
  split
  · next x hx =>
    rw [hx, h.pointer v]
    simp [Except.isOk, Except.toBool]
  · next e he =>
    obtain ⟨hid, hkind⟩ := evidenceEntity_kind he
    have hentity : (b.upsertEntity e).Integrity := (h.upsertEntity e).mpr fun _ => hkind
    refine iff_of_true ((hentity.pointer v).mpr ?_) (.inl (by rw [he]; rfl))
    rw [← hid]
    simp [CompanyBrain.upsertEntity, hkind]

theorem Integrity.relate (h : b.Integrity) {b' : CompanyBrain} {r : BrainRelationship}
    {sourceId targetId : String} {kind : RelationshipKind} {evidenceIds : List String}
    (hrelate : b.relate sourceId targetId kind evidenceIds = .ok (b', r)) : b'.Integrity := by
  have hanchored := h.anchored.relate hrelate
  obtain ⟨-, -, hevidence, hmake, rfl⟩ := relate_ok_iff.mp hrelate
  obtain ⟨-, -, -, hids⟩ := BrainRelationship.make_eq_ok hmake
  refine ⟨hanchored, fun x hx id hid => ?_, h.structural⟩
  rcases Table.mem_put.mp hx with rfl | ⟨hold, -⟩
  · rw [hids, mem_sortedSet, List.mem_append] at hid
    cases hid with
    | inl hnew => exact hevidence id hnew
    | inr hprevious =>
      -- the merged ids come from the relationship the new one replaces
      cases hget : b.related.get ⟨sourceId, kind, targetId⟩ with
      | none => simp [hget] at hprevious
      | some previous =>
        rw [hget] at hprevious
        exact h.cited previous (Table.mem_of_get hget) id hprevious
  · exact h.cited x hold id hid

theorem Integrity.removeEntity (h : b.Integrity) (entityId : String) :
    (b.removeEntity entityId).Integrity ↔ (b.evidence.get entityId).isNone = true := by
  constructor
  · intro hnext
    rw [Option.isNone_iff_eq_none]
    cases hget : b.evidence.get entityId with
    | none => rfl
    | some v =>
      have hat := hnext.structural entityId (Option.isSome_of_eq_some hget)
      rw [get_removeEntity, if_pos rfl] at hat
      cases hat
  · intro hnone
    refine ⟨h.anchored.removeEntity entityId, fun r hr => h.cited r (mem_removeEntity.mp hr).1, ?_⟩
    intro id (hid : (b.evidence.get id).isSome = true)
    have hne : id ≠ entityId := by
      rintro rfl
      rw [Option.isNone_iff_eq_none.mp hnone] at hid
      cases hid
    rw [get_removeEntity, if_neg hne]
    exact h.structural id hid

theorem Integrity.removeEvidence (h : b.Integrity) (evidenceId : String) :
    (b.removeEvidence evidenceId).Integrity ↔
      ∀ r ∈ b.related.rows, evidenceId ∈ r.evidenceIds → r.sourceId = evidenceId ∨ r.targetId = evidenceId := by
  constructor
  · intro hnext r hr hcited
    by_contra hends
    rw [not_or] at hends
    have hat := hnext.cited r (mem_removeEntity.mpr ⟨hr, hends⟩) evidenceId hcited
    rw [get_removeEvidence, if_pos rfl] at hat
    cases hat
  · intro hends
    refine ⟨h.anchored.removeEvidence evidenceId, fun r hr id hid => ?_, fun id hid => ?_⟩
    · obtain ⟨hold, hsource, htarget⟩ := mem_removeEntity.mp hr
      have hne : id ≠ evidenceId := by
        rintro rfl
        exact (hends r hold hid).elim hsource htarget
      rw [get_removeEvidence, if_neg hne]
      exact h.cited r hold id hid
    · rw [get_removeEvidence] at hid
      split at hid
      · cases hid
      · next hne =>
        show ((b.entities.select _).get id).map _ = _
        rw [Table.get_select_ne b.entities, if_neg hne]
        exact h.structural id hid

/-- The calls after which the parts still agree. -/
theorem Integrity.mutate (h : b.Integrity) (m : Mutator) :
    (b.mutate m).1.Integrity ↔ b.KeepsIntegrity m := by
  cases m with
  | upsertEntity e => exact h.upsertEntity e
  | recordEvidence v => exact h.recordEvidence v
  | relate sourceId targetId kind evidenceIds =>
    refine iff_of_true ?_ trivial
    rw [CompanyBrain.mutate]
    split
    · exact h
    · next hrelate => exact h.relate hrelate
  | removeEntity entityId => exact h.removeEntity entityId
  | removeEvidence evidenceId => exact h.removeEvidence evidenceId

/-! ### Runs -/

theorem integrity_empty : Integrity empty where
  anchored _ hr := nomatch hr
  cited _ hr := nomatch hr
  structural _ hid := nomatch hid

/-- Whatever is called, queries find the entities they look up; and the parts of the model agree
throughout exactly the runs whose calls all keep them in agreement. -/
theorem integrity_throughout_iff (calls : List Mutator) :
    (∀ pre, pre <+: calls → (runState mutate empty pre).Anchored ∧
      (∀ services, ((runState mutate empty pre).blastRadiusOf services).isOk = true) ∧
      (∀ service, ((runState mutate empty pre).ownerIdsForService service).isOk = true) ∧
      ∀ repositoryId services principal k,
        (runState mutate empty pre).contextForChange repositoryId services principal ≠ .error (.key k)) ∧
    ((∀ pre, pre <+: calls → (runState mutate empty pre).Integrity) ↔
      Admissible mutate KeepsIntegrity empty calls) := by
  refine ⟨fun pre _ => ?_, (admissible_iff_prefixes mutate (fun _ m h => h.mutate m) integrity_empty calls).symm⟩
  have hanchored : (runState mutate empty pre).Anchored :=
    run_invariant (P := Anchored) mutate (fun _ m h => Anchored.mutate h m) integrity_empty.anchored pre
  refine ⟨hanchored, fun services => ?_, Anchored.ownerIdsForService_isOk hanchored, ?_⟩
  · obtain ⟨radius, hradius, -⟩ := Anchored.mem_blastRadiusOf hanchored services
    rw [hradius]
    rfl
  · intro repositoryId services principal k
    exact Anchored.contextForChange_ne_key hanchored repositoryId services principal k

/-- A repository and its service, linked on the word of a pointer that is then removed. -/
def unciting : List Mutator :=
  [.upsertEntity ⟨"repository:r", .repository, "r", [], by decide +kernel⟩,
    .upsertEntity ⟨"service:s", .service, "s", [], by decide +kernel⟩,
    .recordEvidence ⟨"evidence:e", "github", "r@a:f", "a", [], [], by decide +kernel⟩,
    .relate "service:s" "repository:r" .belongsTo ["evidence:e"],
    .removeEvidence "evidence:e"]

theorem required_letters {m n : Nat} (hpos : 0 < n) (hle : n ≤ m) :
    required m (String.ofList (List.replicate n 'c')) = true := by
  have hnonempty : String.ofList (List.replicate n 'c') ≠ "" := by
    intro h
    have hlength := congrArg (fun t : String => t.toList.length) h
    simp only [String.toList_ofList, List.length_replicate, String.toList_empty, List.length_nil] at hlength
    omega
  simp [required, hnonempty, hle, List.mem_replicate]

/-- A pointer whose citation is too long for the label of its entity. -/
def unlabelled : List Mutator :=
  [.recordEvidence ⟨"evidence:e", "github", String.ofList (List.replicate 301 'c'), "a", [], [], by
    have hcitation : required 500 (String.ofList (List.replicate 301 'c')) = true :=
      required_letters (by decide) (by decide)
    rw [evidenceProblem, hcitation]
    decide +kernel⟩]

/-- A removed pointer stays cited, and a refused one stays recorded. -/
theorem removed_evidence_stays_cited :
    ¬ (runState mutate empty unciting).Integrity ∧ ¬ (runState mutate empty unlabelled).Integrity := by
  constructor
  · intro h
    have hcited := h.cited
    revert hcited
    decide
  · rw [unlabelled, runState_cons, runState_nil, integrity_empty.mutate]
    rintro (hshort | hentity)
    · rw [String.toList_ofList, List.length_replicate] at hshort
      exact absurd hshort (by decide)
    · cases hentity

end CompanyBrain

end EngineeringIntelligence
