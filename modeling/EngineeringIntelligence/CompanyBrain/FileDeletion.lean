import EngineeringIntelligence.CompanyBrain.ProjectionLimits

namespace EngineeringIntelligence.CompanyBrain

open EngineeringIntelligence.Framework EngineeringIntelligence.Ingestion

/-! What the deletion of a file removes. It finds the ids of earlier revisions by their ends, and a path or a
branch may hold the colons the ids are joined by. -/

/-! ### Calls -/

/-- Stating a fact, with what a call that raises leaves behind. -/
def stateFactCall (ev : String) (b : CompanyBrain) : Fact → CompanyBrain × Except BrainError Unit
  | .entity entityId kind label attributes =>
    match BrainEntity.make entityId kind label attributes with
    | .error x => (b, .error x)
    | .ok e => (b.upsertEntity e, .ok ())
  | .evidence sourceKind citation revision aclGroups aclUsers =>
    match BrainEvidence.make ev sourceKind citation revision aclGroups aclUsers with
    | .error x => (b, .error x)
    | .ok v => b.recordEvidence v
  | .edge sourceId targetId kind =>
    match b.relate sourceId targetId kind [ev] with
    | .error x => (b, .error x)
    | .ok (b', _) => (b', .ok ())

def stateAllCall (ev : String) (b : CompanyBrain) : List Fact → CompanyBrain × Except BrainError Unit
  | [] => (b, .ok ())
  | f :: rest =>
    match stateFactCall ev b f with
    | (b', .error x) => (b', .error x)
    | (b', .ok ()) => stateAllCall ev b' rest

/-- A call of `project_file_change`. -/
def projectFileCall (b : CompanyBrain) (c : FileChange) : CompanyBrain × Except BrainError ProjectionResult :=
  match c.changeType with
  | .delete =>
    let (b', removed) := removeFileChangeProjection b c
    (b', .ok ⟨[], fileEvidenceId c, [], removed⟩)
  | .upsert =>
    match stateAllCall (fileEvidenceId c) b (fileFacts c) with
    | (b', .error x) => (b', .error x)
    | (b', .ok ()) => (b', .ok ⟨sortedBy id (fileEntityIds c), fileEvidenceId c, [], []⟩)

section
variable {ev : String} {b : CompanyBrain}

theorem stateFact_call (f : Fact) :
    stateFact ev b f = (stateFactCall ev b f).2.map fun _ => (stateFactCall ev b f).1 := by
  cases f with
  | entity entityId kind label attributes =>
    unfold stateFact stateFactCall
    dsimp only
    cases BrainEntity.make entityId kind label attributes <;> rfl
  | evidence sourceKind citation revision aclGroups aclUsers =>
    unfold stateFact stateFactCall
    dsimp only
    cases BrainEvidence.make ev sourceKind citation revision aclGroups aclUsers with
    | error x => rfl
    | ok v =>
      dsimp only
      split
      · next h => rw [h]; rfl
      · next h => rw [h]; rfl
  | edge sourceId targetId kind =>
    unfold stateFact stateFactCall
    dsimp only
    cases b.relate sourceId targetId kind [ev] <;> rfl

theorem stateAll_call (facts : List Fact) :
    stateAll ev b facts = (stateAllCall ev b facts).2.map fun _ => (stateAllCall ev b facts).1 := by
  induction facts generalizing b with
  | nil => rfl
  | cons f facts ih =>
    have hfold : stateAll ev b (f :: facts) = stateFact ev b f >>= fun mid => stateAll ev mid facts := rfl
    rw [hfold, stateFact_call, stateAllCall]
    rcases hcall : stateFactCall ev b f with ⟨mid, x | ⟨⟩⟩
    · rfl
    · exact ih

/-- The calls that do not raise are the projections that go through. -/
theorem projectFile_call (c : FileChange) (b : CompanyBrain) :
    projectFile c b = (projectFileCall b c).2.map fun result => ((projectFileCall b c).1, result) := by
  unfold projectFile projectFileCall
  cases c.changeType with
  | delete => rfl
  | upsert =>
    dsimp only
    rw [stateAll_call]
    rcases stateAllCall (fileEvidenceId c) b (fileFacts c) with ⟨mid, x | ⟨⟩⟩ <;> rfl

/-- What each fact keeps, the whole list keeps, however far it gets. -/
theorem stateAllCall_induct {P : CompanyBrain → Prop} {facts : List Fact}
    (hstep : ∀ b, ∀ f ∈ facts, P b → P (stateFactCall ev b f).1) (hb : P b) :
    P (stateAllCall ev b facts).1 := by
  induction facts generalizing b with
  | nil => exact hb
  | cons f facts ih =>
    have hfirst := hstep b f List.mem_cons_self hb
    rw [stateAllCall]
    rcases hcall : stateFactCall ev b f with ⟨mid, x | ⟨⟩⟩
    · rw [hcall] at hfirst
      exact hfirst
    · rw [hcall] at hfirst
      exact ih (fun b g hg => hstep b g (List.mem_cons_of_mem _ hg)) hfirst

end

/-! ### Removal -/

/-- The deleting change takes an id for one of its file. -/
def Named (lead : String) (d : FileChange) (entityId : String) : Prop :=
  (lead ++ (d.source.provider ++ ":" ++ d.source.repository ++ ":" ++ d.source.branch ++ ":")).toList <+:
      entityId.toList ∧
    (":" ++ d.source.path).toList <:+ entityId.toList

instance (lead : String) (d : FileChange) (entityId : String) : Decidable (Named lead d entityId) :=
  inferInstanceAs (Decidable (_ ∧ _))

/-- The evidence a deletion removes, and the change entities. -/
def removedEvidence (b : CompanyBrain) (d : FileChange) : List String :=
  (b.evidence.rows.map (·.evidenceId)).filter (Named "evidence:" d ·)

def removedChanges (b : CompanyBrain) (d : FileChange) : List String :=
  (b.entities.rows.filter fun e => e.kind = .change && Named "change:" d e.entityId).map (·.entityId)

section
variable {b : CompanyBrain}

theorem related_removeEntity (entityId : String) (k : EdgeKey) : (b.removeEntity entityId).related.get k =
    if k.sourceId = entityId ∨ k.targetId = entityId then none else b.related.get k := by
  show (b.related.select _).get k = _
  rw [Table.get_select]
  cases hget : b.related.get k with
  | none => simp
  | some r =>
    have hsource : r.sourceId = k.sourceId := congrArg EdgeKey.sourceId (Table.key_of_get hget)
    have htarget : r.targetId = k.targetId := congrArg EdgeKey.targetId (Table.key_of_get hget)
    rw [Option.filter_some, hsource, htarget]
    by_cases hends : k.sourceId = entityId ∨ k.targetId = entityId
    · rw [if_pos hends, if_neg (by simpa [imp_iff_not_or, or_comm] using hends)]
    · rw [if_neg hends, if_pos (by simpa [not_or] using hends)]

theorem foldl_removeEntity (ids : List String) (b : CompanyBrain) :
    (ids.foldl CompanyBrain.removeEntity b).evidence = b.evidence ∧
      (∀ id, (ids.foldl CompanyBrain.removeEntity b).entities.get id =
        if id ∈ ids then none else b.entities.get id) ∧
      ∀ k, (ids.foldl CompanyBrain.removeEntity b).related.get k =
        if k.sourceId ∈ ids ∨ k.targetId ∈ ids then none else b.related.get k := by
  induction ids generalizing b with
  | nil => simp
  | cons entityId ids ih =>
    obtain ⟨hevidence, hentities, hrelated⟩ := ih (b.removeEntity entityId)
    refine ⟨hevidence, fun id => ?_, fun k => ?_⟩
    · rw [List.foldl_cons, hentities, get_removeEntity]
      simp only [List.mem_cons]
      split <;> split <;> simp_all
    · rw [List.foldl_cons, hrelated, related_removeEntity]
      simp only [List.mem_cons]
      split <;> split <;> simp_all

theorem foldl_removeEvidence (ids : List String) (b : CompanyBrain) :
    (∀ id, (ids.foldl CompanyBrain.removeEvidence b).evidence.get id =
        if id ∈ ids then none else b.evidence.get id) ∧
      (∀ id, (ids.foldl CompanyBrain.removeEvidence b).entities.get id =
        if id ∈ ids then none else b.entities.get id) ∧
      ∀ k, (ids.foldl CompanyBrain.removeEvidence b).related.get k =
        if k.sourceId ∈ ids ∨ k.targetId ∈ ids then none else b.related.get k := by
  induction ids generalizing b with
  | nil => simp
  | cons evidenceId ids ih =>
    obtain ⟨hevidence, hentities, hrelated⟩ := ih (b.removeEvidence evidenceId)
    refine ⟨fun id => ?_, fun id => ?_, fun k => ?_⟩
    · rw [List.foldl_cons, hevidence, get_removeEvidence]
      simp only [List.mem_cons]
      split <;> split <;> simp_all
    · rw [List.foldl_cons, hentities, CompanyBrain.removeEvidence, get_removeEntity]
      simp only [List.mem_cons]
      split <;> split <;> simp_all
    · rw [List.foldl_cons, hrelated, CompanyBrain.removeEvidence, related_removeEntity]
      simp only [List.mem_cons]
      split <;> split <;> simp_all

theorem mem_removedEvidence {d : FileChange} {id : String} :
    id ∈ removedEvidence b d ↔ (b.evidence.get id).isSome = true ∧ Named "evidence:" d id := by
  rw [removedEvidence, List.mem_filter, decide_eq_true_eq, Option.isSome_iff_ne_none, ne_eq, Table.get_eq_none_iff,
    not_not]

theorem mem_removedChanges {d : FileChange} {id : String} :
    id ∈ removedChanges b d ↔ (b.entities.get id).map (·.kind) = some .change ∧ Named "change:" d id := by
  simp only [removedChanges, List.mem_map, List.mem_filter, Bool.and_eq_true, decide_eq_true_eq,
    Option.map_eq_some_iff, Table.get_eq_some_iff]
  constructor
  · rintro ⟨e, ⟨he, hkind, hnamed⟩, rfl⟩
    exact ⟨⟨e, ⟨he, rfl⟩, hkind⟩, hnamed⟩
  · rintro ⟨⟨e, ⟨he, rfl⟩, hkind⟩, hnamed⟩
    exact ⟨e, ⟨he, hkind, hnamed⟩, rfl⟩

theorem named_eq (lead : String) (d : FileChange) (entityId : String) :
    ((lead ++ (d.source.provider ++ ":" ++ d.source.repository ++ ":" ++ d.source.branch ++ ":")).toList.isPrefixOf
        entityId.toList && (":" ++ d.source.path).toList.isSuffixOf entityId.toList) =
      decide (Named lead d entityId) := by
  rw [Bool.eq_iff_iff, Bool.and_eq_true, List.isPrefixOf_iff_prefix, List.isSuffixOf_iff_suffix, decide_eq_true_eq,
    Named]

theorem removeFile_eq (b : CompanyBrain) (d : FileChange) :
    (removeFileChangeProjection b d).1 = (sortedBy id (removedChanges b d)).foldl CompanyBrain.removeEntity
      ((sortedBy id (removedEvidence b d)).foldl CompanyBrain.removeEvidence b) := by
  unfold removeFileChangeProjection
  simp only [named_eq, removedChanges, removedEvidence]

/-- What is left after the removal of a file. -/
theorem get_removeFile (b : CompanyBrain) (d : FileChange) :
    (∀ id, (removeFileChangeProjection b d).1.evidence.get id =
        if id ∈ removedEvidence b d then none else b.evidence.get id) ∧
      (∀ id, (removeFileChangeProjection b d).1.entities.get id =
        if id ∈ removedChanges b d ∨ id ∈ removedEvidence b d then none else b.entities.get id) ∧
      ∀ k, (removeFileChangeProjection b d).1.related.get k =
        if (k.sourceId ∈ removedChanges b d ∨ k.sourceId ∈ removedEvidence b d) ∨
          k.targetId ∈ removedChanges b d ∨ k.targetId ∈ removedEvidence b d then none
        else b.related.get k := by
  obtain ⟨hevidence, hentities, hrelated⟩ := foldl_removeEntity (sortedBy id (removedChanges b d))
    ((sortedBy id (removedEvidence b d)).foldl CompanyBrain.removeEvidence b)
  obtain ⟨hevidence', hentities', hrelated'⟩ := foldl_removeEvidence (sortedBy id (removedEvidence b d)) b
  rw [removeFile_eq]
  refine ⟨fun id => ?_, fun id => ?_, fun k => ?_⟩
  · rw [hevidence, hevidence']
    simp only [mem_sortedBy]
  · rw [hentities, hentities', ← ite_or]
    simp only [mem_sortedBy]
  · rw [hrelated, hrelated', ← ite_or]
    simp only [mem_sortedBy, or_or_or_comm]

end

/-! ### Whose facts the model holds -/

def SameFile (c d : FileChange) : Prop :=
  c.source.provider = d.source.provider ∧ c.source.repository = d.source.repository ∧
    c.source.branch = d.source.branch ∧ c.source.path = d.source.path

/-- The changes and the evidence in the model are those of the files that were projected. -/
structure Traced (calls : List FileChange) (b : CompanyBrain) : Prop where
  kinds : ∀ id e, b.entities.get id = some e → HasKind e.kind id
  change : ∀ id e, b.entities.get id = some e → e.kind = .change →
    ∃ c ∈ calls, c.changeType = .upsert ∧ id = changeEntityId c
  evidence : ∀ id, (b.evidence.get id).isSome = true →
    ∃ c ∈ calls, c.changeType = .upsert ∧ id = fileEvidenceId c
  structural : ∀ id e, b.entities.get id = some e → e.kind = .evidence → (b.evidence.get id).isSome = true

section
variable {calls : List FileChange} {b : CompanyBrain}

theorem Traced.mono (h : Traced calls b) {more : List FileChange} (hmore : calls ⊆ more) : Traced more b where
  kinds := h.kinds
  change id e he hkind := by
    obtain ⟨c, hc, hrest⟩ := h.change id e he hkind
    exact ⟨c, hmore hc, hrest⟩
  evidence id hid := by
    obtain ⟨c, hc, hrest⟩ := h.evidence id hid
    exact ⟨c, hmore hc, hrest⟩
  structural := h.structural

/-- The change entity of a file is the only one its facts state. -/
theorem fileFacts_change {c : FileChange} {entityId label : String} {values : List (String × String)}
    (h : .entity entityId .change label values ∈ fileFacts c) : entityId = changeEntityId c := by
  have hentry := mem_entries h
  rw [fileFacts_entries, fileEntries] at hentry
  cases hservice : truthy c.service with
  | none => simpa [hservice] using hentry
  | some service => cases howner : truthy c.owner <;> simpa [hservice, howner] using hentry

theorem Traced.upsertEntity (h : Traced calls b) {e : BrainEntity} (hkind : HasKind e.kind e.entityId)
    (hchange : e.kind = .change → ∃ c ∈ calls, c.changeType = .upsert ∧ e.entityId = changeEntityId c)
    (hevidence : e.kind = .evidence → (b.evidence.get e.entityId).isSome = true) :
    Traced calls (b.upsertEntity e) := by
  have hget : ∀ id found, (b.upsertEntity e).entities.get id = some found →
      id = e.entityId ∧ found = e ∨ b.entities.get id = some found := by
    intro id found hfound
    rw [CompanyBrain.upsertEntity, Table.get_put] at hfound
    split at hfound
    · next hid => exact .inl ⟨hid, (Option.some.inj hfound).symm⟩
    · exact .inr hfound
  refine ⟨fun id found hfound => ?_, fun id found hfound hk => ?_, h.evidence, fun id found hfound hk => ?_⟩
  · obtain ⟨rfl, rfl⟩ | hold := hget id found hfound
    · exact hkind
    · exact h.kinds id found hold
  · obtain ⟨rfl, rfl⟩ | hold := hget id found hfound
    · exact hchange hk
    · exact h.change id found hold hk
  · obtain ⟨rfl, rfl⟩ | hold := hget id found hfound
    · exact hevidence hk
    · exact h.structural id found hold hk

theorem Traced.putEvidence (h : Traced calls b) {c : FileChange} (hc : c ∈ calls) (hupsert : c.changeType = .upsert)
    {v : BrainEvidence} (hv : v.evidenceId = fileEvidenceId c) :
    Traced calls { b with evidence := b.evidence.put v } where
  kinds := h.kinds
  change := h.change
  evidence id hid := by
    rw [Table.get_put] at hid
    split at hid
    · next hsame => exact ⟨c, hc, hupsert, hsame.trans hv⟩
    · exact h.evidence id hid
  structural id e he hk := by
    show ((b.evidence.put v).get id).isSome = true
    rw [Table.get_put]
    split
    · rfl
    · exact h.structural id e he hk

theorem Traced.fact (h : Traced calls b) {c : FileChange} (hc : c ∈ calls) (hupsert : c.changeType = .upsert)
    {f : Fact} (hf : f ∈ fileFacts c) : Traced calls (stateFactCall (fileEvidenceId c) b f).1 := by
  cases f with
  | entity entityId kind label values =>
    unfold stateFactCall
    dsimp only
    split
    · exact h
    · next e he =>
      obtain ⟨rfl, rfl, -, -⟩ := BrainEntity.make_eq_ok he
      obtain ⟨hkind, hne⟩ := (Upsert.sound_file c).kinds _ _ _ _ hf
      refine h.upsertEntity hkind (fun hchange => ⟨c, hc, hupsert, ?_⟩) fun hevidence => absurd hevidence hne
      rw [hchange] at hf
      exact fileFacts_change hf
  | evidence sourceKind citation revision groups users =>
    unfold stateFactCall
    dsimp only
    split
    · exact h
    · next v hv =>
      have hid := BrainEvidence.make_eq_ok hv
      have hput := h.putEvidence hc hupsert hid
      unfold CompanyBrain.recordEvidence
      dsimp only
      split
      · exact hput
      · next e he =>
        obtain ⟨hentity, hkind⟩ := evidenceEntity_kind he
        refine hput.upsertEntity ?_ (fun hchange => ?_) fun _ => ?_
        · rw [hkind, hentity, hid]
          exact hasKind_fileEvidence c
        · rw [hkind] at hchange
          cases hchange
        · rw [hentity, Table.get_put_self]
          rfl
  | edge sourceId targetId kind =>
    unfold stateFactCall
    dsimp only
    split
    · exact h
    · next b' r hrelate =>
      obtain ⟨-, -, -, -, rfl⟩ := relate_ok_iff.mp hrelate
      exact ⟨h.kinds, h.change, h.evidence, h.structural⟩

theorem get_of_removeFile {d : FileChange} {id : String} {e : BrainEntity}
    (h : (removeFileChangeProjection b d).1.entities.get id = some e) :
    b.entities.get id = some e ∧ id ∉ removedChanges b d ∧ id ∉ removedEvidence b d := by
  rw [(get_removeFile b d).2.1] at h
  split at h
  · cases h
  · next hkept =>
    rw [not_or] at hkept
    exact ⟨h, hkept⟩

theorem Traced.removeFile (h : Traced calls b) (d : FileChange) :
    Traced calls (removeFileChangeProjection b d).1 where
  kinds id e he := h.kinds id e (get_of_removeFile he).1
  change id e he := h.change id e (get_of_removeFile he).1
  evidence id hid := by
    rw [(get_removeFile b d).1] at hid
    split at hid
    · cases hid
    · exact h.evidence id hid
  structural id e he hkind := by
    obtain ⟨hold, -, hkept⟩ := get_of_removeFile he
    rw [(get_removeFile b d).1, if_neg hkept]
    exact h.structural id e hold hkind

theorem Traced.call (h : Traced calls b) (c : FileChange) : Traced (calls ++ [c]) (projectFileCall b c).1 := by
  have hmore : Traced (calls ++ [c]) b := h.mono (List.subset_append_left _ _)
  unfold projectFileCall
  cases hchange : c.changeType with
  | delete => exact hmore.removeFile c
  | upsert =>
    have hfacts : Traced (calls ++ [c]) (stateAllCall (fileEvidenceId c) b (fileFacts c)).1 :=
      stateAllCall_induct (fun b f hf hb => Traced.fact hb (by simp) hchange hf) hmore
    dsimp only
    split
    · next hcall => rw [hcall] at hfacts; exact hfacts
    · next hcall => rw [hcall] at hfacts; exact hfacts

theorem traced_empty : Traced [] CompanyBrain.empty where
  kinds _ _ he := nomatch he
  change _ _ he := nomatch he
  evidence _ hid := nomatch hid
  structural _ _ he := nomatch he

theorem traced_run (calls : List FileChange) :
    Traced calls (runState projectFileCall CompanyBrain.empty calls) := by
  have hstep : ∀ (h : List (FileChange × Except BrainError ProjectionResult)) b c, Traced (h.map Prod.fst) b →
      Traced ((h ++ [(c, (projectFileCall b c).2)]).map Prod.fst) (projectFileCall b c).1 := by
    intro h b c hb
    rw [List.map_append]
    exact hb.call c
  have hrun := run_history_invariant projectFileCall hstep (h := []) traced_empty calls
  rwa [List.nil_append, history_map_fst] at hrun

theorem Traced.kind_of_hasKind (h : Traced calls b) {id : String} {kind : EntityKind} (hid : HasKind kind id)
    {e : BrainEntity} (he : b.entities.get id = some e) : e.kind = kind :=
  hasKind_unique (h.kinds id e he) hid

theorem named_of_sameFile {c d : FileChange} (h : SameFile c d) :
    Named "change:" d (changeEntityId c) ∧ Named "evidence:" d (fileEvidenceId c) := by
  obtain ⟨hprovider, hrepository, hbranch, hpath⟩ := h
  have hends : ∀ lead : String, Named lead d (lead ++ c.source.provider ++ ":" ++ c.source.repository ++ ":" ++
      c.source.branch ++ ":" ++ c.source.commitSha ++ ":" ++ c.source.path) := by
    intro lead
    constructor
    · refine ⟨(c.source.commitSha ++ ":" ++ c.source.path).toList, ?_⟩
      simp only [hprovider, hrepository, hbranch, String.toList_append, List.append_assoc]
    · refine ⟨(lead ++ c.source.provider ++ ":" ++ c.source.repository ++ ":" ++ c.source.branch ++ ":" ++
        c.source.commitSha).toList, ?_⟩
      simp only [hpath, String.toList_append, List.append_assoc]
  exact ⟨hends "change:", hends "evidence:"⟩

/-! ### What a deletion should do -/

/-- The deletion removes what was projected of the file, and nothing else. -/
structure DeletesExactly (calls : List FileChange) (d : FileChange) (b after : CompanyBrain) : Prop where
  removed : ∀ c ∈ calls, c.changeType = .upsert → SameFile c d →
    after.entities.get (changeEntityId c) = none ∧ after.evidence.get (fileEvidenceId c) = none ∧
      after.entities.get (fileEvidenceId c) = none
  onlyEntities : ∀ id, after.entities.get id ≠ b.entities.get id →
    ∃ c ∈ calls, c.changeType = .upsert ∧ SameFile c d ∧ (id = changeEntityId c ∨ id = fileEvidenceId c)
  onlyEvidence : ∀ id, after.evidence.get id ≠ b.evidence.get id →
    ∃ c ∈ calls, c.changeType = .upsert ∧ SameFile c d ∧ id = fileEvidenceId c
  onlyEdges : ∀ k, after.related.get k ≠ b.related.get k →
    ∃ c ∈ calls, c.changeType = .upsert ∧ SameFile c d ∧
      ∃ id, (id = changeEntityId c ∨ id = fileEvidenceId c) ∧ (k.sourceId = id ∨ k.targetId = id)
  kept : ∀ c ∈ calls, c.changeType = .upsert → ¬ SameFile c d →
    after.entities.get (changeEntityId c) = b.entities.get (changeEntityId c) ∧
      after.evidence.get (fileEvidenceId c) = b.evidence.get (fileEvidenceId c) ∧
      after.entities.get (fileEvidenceId c) = b.entities.get (fileEvidenceId c) ∧
      ∀ k ∈ edgesOf (fileFacts c), after.related.get k = b.related.get k

/-- No change entity or evidence that the model has of another file is taken for the file's own. -/
def Unmistaken (calls : List FileChange) (d : FileChange) (b : CompanyBrain) : Prop :=
  ∀ c ∈ calls, c.changeType = .upsert → ¬ SameFile c d →
    (Named "change:" d (changeEntityId c) → b.entities.get (changeEntityId c) = none) ∧
      (Named "evidence:" d (fileEvidenceId c) → b.evidence.get (fileEvidenceId c) = none)

/-- What is removed of a traced model that mistakes no file for another. -/
theorem Traced.removed_own (h : Traced calls b) {d : FileChange} (hclean : Unmistaken calls d b) {id : String} :
    (id ∈ removedChanges b d → ∃ c ∈ calls, c.changeType = .upsert ∧ SameFile c d ∧ id = changeEntityId c) ∧
      (id ∈ removedEvidence b d → ∃ c ∈ calls, c.changeType = .upsert ∧ SameFile c d ∧ id = fileEvidenceId c) := by
  constructor
  · intro hid
    obtain ⟨hkind, hnamed⟩ := mem_removedChanges.mp hid
    obtain ⟨e, he, hchange⟩ := Option.map_eq_some_iff.mp hkind
    obtain ⟨c, hc, hupsert, rfl⟩ := h.change id e he hchange
    refine ⟨c, hc, hupsert, ?_, rfl⟩
    by_contra hother
    rw [(hclean c hc hupsert hother).1 hnamed] at he
    cases he
  · intro hid
    obtain ⟨hsome, hnamed⟩ := mem_removedEvidence.mp hid
    obtain ⟨c, hc, hupsert, rfl⟩ := h.evidence id hsome
    refine ⟨c, hc, hupsert, ?_, rfl⟩
    by_contra hother
    rw [(hclean c hc hupsert hother).2 hnamed] at hsome
    cases hsome

/-- The ends of the edges a file states. -/
theorem edge_ends {c : FileChange} {k : EdgeKey} (h : k ∈ edgesOf (fileFacts c)) {id : String}
    (hid : k.sourceId = id ∨ k.targetId = id) :
    id = changeEntityId c ∨ id = fileEvidenceId c ∨
      ∃ kind, HasKind kind id ∧ kind ≠ .change ∧ kind ≠ .evidence := by
  obtain ⟨f, hf, hkey⟩ := List.mem_filterMap.mp h
  cases f with
  | entity => cases hkey
  | evidence => cases hkey
  | edge sourceId targetId kind =>
    cases hkey
    obtain hin | rfl | ⟨kind, label, values, hin⟩ := (fileFacts_grounded c).ends hf (hid.imp Eq.symm Eq.symm)
    · cases hin
    · exact .inr (.inl rfl)
    · obtain ⟨hkind, hne⟩ := (Upsert.sound_file c).kinds _ _ _ _ hin
      by_cases hchange : kind = .change
      · subst hchange
        exact .inl (fileFacts_change hin)
      · exact .inr (.inr ⟨kind, hkind, hchange, hne⟩)

/-- The facts of the file itself go. -/
theorem removed_of_sameFile (h : Traced calls b) {c d : FileChange} (hsame : SameFile c d) :
    (removeFileChangeProjection b d).1.entities.get (changeEntityId c) = none ∧
      (removeFileChangeProjection b d).1.evidence.get (fileEvidenceId c) = none ∧
      (removeFileChangeProjection b d).1.entities.get (fileEvidenceId c) = none := by
  obtain ⟨hevidence, hentities, -⟩ := get_removeFile b d
  obtain ⟨hchangeNamed, hevidenceNamed⟩ := named_of_sameFile hsame
  have hpointer : (b.evidence.get (fileEvidenceId c)).isSome = true → fileEvidenceId c ∈ removedEvidence b d :=
    fun hsome => mem_removedEvidence.mpr ⟨hsome, hevidenceNamed⟩
  refine ⟨?_, ?_, ?_⟩
  · rw [hentities]
    split
    · rfl
    · next hkept =>
      cases hget : b.entities.get (changeEntityId c) with
      | none => rfl
      | some e =>
        have hkind := h.kind_of_hasKind (hasKind_change c) hget
        exact absurd (.inl (mem_removedChanges.mpr ⟨by rw [hget, Option.map_some, hkind], hchangeNamed⟩)) hkept
  · rw [hevidence]
    split
    · rfl
    · next hkept =>
      cases hget : b.evidence.get (fileEvidenceId c) with
      | none => rfl
      | some v => exact absurd (hpointer (by rw [hget]; rfl)) hkept
  · rw [hentities]
    split
    · rfl
    · next hkept =>
      cases hget : b.entities.get (fileEvidenceId c) with
      | none => rfl
      | some e =>
        have hkind := h.kind_of_hasKind (hasKind_fileEvidence c) hget
        exact absurd (.inr (hpointer (h.structural _ e hget hkind))) hkept

theorem kind_of_removedChange (h : Traced calls b) {d : FileChange} {id : String}
    (hchange : id ∈ removedChanges b d) {kind : EntityKind} (hkind : HasKind kind id) : kind = .change := by
  obtain ⟨e, he, hchangeKind⟩ := Option.map_eq_some_iff.mp (mem_removedChanges.mp hchange).1
  rw [← h.kind_of_hasKind hkind he, hchangeKind]

theorem kind_of_removedEvidence (h : Traced calls b) {d : FileChange} {id : String}
    (hid : id ∈ removedEvidence b d) {kind : EntityKind} (hkind : HasKind kind id) : kind = .evidence := by
  obtain ⟨c, -, -, rfl⟩ := h.evidence id (mem_removedEvidence.mp hid).1
  exact hasKind_unique hkind (hasKind_fileEvidence c)

section
variable {c d : FileChange} (h : Traced calls b) (hclean : Unmistaken calls d b) (hc : c ∈ calls)
  (hupsert : c.changeType = .upsert) (hother : ¬ SameFile c d)
include h hclean hc hupsert hother

/-- The facts of another file stay. -/
theorem change_kept : ¬ (changeEntityId c ∈ removedChanges b d ∨ changeEntityId c ∈ removedEvidence b d) := by
  rintro (hid | hid)
  · obtain ⟨hkind, hnamed⟩ := mem_removedChanges.mp hid
    rw [(hclean c hc hupsert hother).1 hnamed] at hkind
    cases hkind
  · cases kind_of_removedEvidence h hid (hasKind_change c)

theorem evidence_kept : ¬ (fileEvidenceId c ∈ removedChanges b d ∨ fileEvidenceId c ∈ removedEvidence b d) := by
  rintro (hid | hid)
  · cases kind_of_removedChange h hid (hasKind_fileEvidence c)
  · obtain ⟨hsome, hnamed⟩ := mem_removedEvidence.mp hid
    rw [(hclean c hc hupsert hother).2 hnamed] at hsome
    cases hsome

theorem ends_kept {k : EdgeKey} (hk : k ∈ edgesOf (fileFacts c)) {id : String}
    (hid : k.sourceId = id ∨ k.targetId = id) : ¬ (id ∈ removedChanges b d ∨ id ∈ removedEvidence b d) := by
  obtain rfl | rfl | ⟨kind, hkind, hchange, hevidence⟩ := edge_ends hk hid
  · exact change_kept h hclean hc hupsert hother
  · exact evidence_kept h hclean hc hupsert hother
  · rintro (hremoved | hremoved)
    · exact hchange (kind_of_removedChange h hremoved hkind)
    · exact hevidence (kind_of_removedEvidence h hremoved hkind)

end

/-- A deletion removes just what was projected of its file when it mistakes no other file's facts for it. -/
theorem deletion_exact_iff (calls : List FileChange) (d : FileChange) (hd : d.changeType = .delete) :
    DeletesExactly calls d (runState projectFileCall CompanyBrain.empty calls)
        (projectFileCall (runState projectFileCall CompanyBrain.empty calls) d).1 ↔
      Unmistaken calls d (runState projectFileCall CompanyBrain.empty calls) := by
  have htraced := traced_run calls
  generalize runState projectFileCall CompanyBrain.empty calls = b at htraced
  have hafter : (projectFileCall b d).1 = (removeFileChangeProjection b d).1 := by
    unfold projectFileCall
    rw [hd]
  obtain ⟨hevidence, hentities, hrelated⟩ := get_removeFile b d
  rw [hafter]
  have hchangeKind : ∀ c e, b.entities.get (changeEntityId c) = some e → e.kind = .change := fun c e he =>
    htraced.kind_of_hasKind (hasKind_change c) he
  constructor
  · intro hexact c hc hupsert hother
    obtain ⟨hentity, hpointer, -⟩ := hexact.kept c hc hupsert hother
    constructor
    · intro hnamed
      cases hget : b.entities.get (changeEntityId c) with
      | none => rfl
      | some e =>
        have hmem : changeEntityId c ∈ removedChanges b d :=
          mem_removedChanges.mpr ⟨by rw [hget, Option.map_some, hchangeKind c e hget], hnamed⟩
        rw [hentities, if_pos (.inl hmem), hget] at hentity
        exact hentity.symm
    · intro hnamed
      cases hget : b.evidence.get (fileEvidenceId c) with
      | none => rfl
      | some v =>
        have hmem : fileEvidenceId c ∈ removedEvidence b d :=
          mem_removedEvidence.mpr ⟨by rw [hget]; rfl, hnamed⟩
        rw [hevidence, if_pos hmem, hget] at hpointer
        exact hpointer.symm
  · intro hclean
    have hchanges : ∀ id ∈ removedChanges b d, ∃ c ∈ calls, c.changeType = .upsert ∧ SameFile c d ∧
        id = changeEntityId c := fun id => (htraced.removed_own hclean).1
    have hpointers : ∀ id ∈ removedEvidence b d, ∃ c ∈ calls, c.changeType = .upsert ∧ SameFile c d ∧
        id = fileEvidenceId c := fun id => (htraced.removed_own hclean).2
    have hgone : ∀ id, id ∈ removedChanges b d ∨ id ∈ removedEvidence b d →
        ∃ c ∈ calls, c.changeType = .upsert ∧ SameFile c d ∧ (id = changeEntityId c ∨ id = fileEvidenceId c) := by
      rintro id (hid | hid)
      · obtain ⟨c, hc, hupsert, hsame, heq⟩ := hchanges id hid
        exact ⟨c, hc, hupsert, hsame, .inl heq⟩
      · obtain ⟨c, hc, hupsert, hsame, heq⟩ := hpointers id hid
        exact ⟨c, hc, hupsert, hsame, .inr heq⟩
    refine ⟨fun c _ _ hsame => ?_, fun id hid => ?_, fun id hid => ?_, fun k hk => ?_, fun c hc hupsert hother => ?_⟩
    · exact removed_of_sameFile htraced hsame
    · rw [hentities] at hid
      split at hid
      · next hremoved => exact hgone id hremoved
      · exact absurd rfl hid
    · rw [hevidence] at hid
      split at hid
      · next hremoved => exact hpointers id hremoved
      · exact absurd rfl hid
    · rw [hrelated] at hk
      split at hk
      · next hremoved =>
        obtain hends | hends := hremoved
        · obtain ⟨c, hc, hupsert, hsame, heq⟩ := hgone _ hends
          exact ⟨c, hc, hupsert, hsame, _, heq, .inl rfl⟩
        · obtain ⟨c, hc, hupsert, hsame, heq⟩ := hgone _ hends
          exact ⟨c, hc, hupsert, hsame, _, heq, .inr rfl⟩
      · exact absurd rfl hk
    · have hchange := change_kept htraced hclean hc hupsert hother
      have hpointer := evidence_kept htraced hclean hc hupsert hother
      refine ⟨?_, ?_, ?_, fun k hk => ?_⟩
      · rw [hentities, if_neg hchange]
      · rw [hevidence, if_neg fun hid => hpointer (.inr hid)]
      · rw [hentities, if_neg hpointer]
      · rw [hrelated, if_neg]
        rintro (hid | hid)
        · exact ends_kept htraced hclean hc hupsert hother hk (.inl rfl) hid
        · exact ends_kept htraced hclean hc hupsert hother hk (.inr rfl) hid

end

/-- A change of a file of one repository. -/
def runbookFile (path : String) (changeType : ChangeType) : FileChange :=
  ⟨⟨"github", "acme/ops", "main", "c1", path⟩, changeType, none, none, none, none, ⟨[], []⟩⟩

theorem nested_file_kept :
    DeletesExactly [runbookFile "run.md" .upsert, runbookFile "docs/run.md" .upsert] (runbookFile "run.md" .delete)
      (runState projectFileCall CompanyBrain.empty
        [runbookFile "run.md" .upsert, runbookFile "docs/run.md" .upsert])
      (projectFileCall (runState projectFileCall CompanyBrain.empty
        [runbookFile "run.md" .upsert, runbookFile "docs/run.md" .upsert]) (runbookFile "run.md" .delete)).1 := by
  refine (deletion_exact_iff _ _ rfl).mpr fun c hc _ hother => ?_
  simp only [List.mem_cons, List.not_mem_nil, or_false] at hc
  obtain rfl | rfl := hc
  · exact absurd ⟨rfl, rfl, rfl, rfl⟩ hother
  · have hchange : ¬ Named "change:" (runbookFile "run.md" .delete)
        (changeEntityId (runbookFile "docs/run.md" .upsert)) := by decide
    have hevidence : ¬ Named "evidence:" (runbookFile "run.md" .delete)
        (fileEvidenceId (runbookFile "docs/run.md" .upsert)) := by decide
    exact ⟨fun hnamed => absurd hnamed hchange, fun hnamed => absurd hnamed hevidence⟩

/-- A path with a colon is taken for a revision of the path after it. -/
theorem colon_file_removed :
    ¬ DeletesExactly [runbookFile "docs:run.md" .upsert] (runbookFile "run.md" .delete)
      (runState projectFileCall CompanyBrain.empty [runbookFile "docs:run.md" .upsert])
      (projectFileCall (runState projectFileCall CompanyBrain.empty [runbookFile "docs:run.md" .upsert])
        (runbookFile "run.md" .delete)).1 := by
  intro h
  have hother : ¬ SameFile (runbookFile "docs:run.md" .upsert) (runbookFile "run.md" .delete) := fun hsame =>
    absurd hsame.2.2.2 (by decide)
  have hkept := (h.kept _ List.mem_cons_self rfl hother).2.1
  have hsome := congrArg Option.isSome hkept
  revert hsome
  decide +kernel

end EngineeringIntelligence.CompanyBrain
