import EngineeringIntelligence.Ingestion.Pipeline

namespace EngineeringIntelligence.Ingestion

open EngineeringIntelligence.Framework

/-! `SourceReconciler`: a complete manifest of a scope against the catalog and the index. -/

/-- What `reconcile` raises. -/
inductive ReconciliationError where
  /-- `ValueError` -/
  | value (message : String)
  | ingestion (x : IngestionError)
  deriving DecidableEq, Repr

structure ReconciliationResult where
  scope : SourceScope
  unchanged : Nat
  counts : Counts
  deriving DecidableEq, Repr

/-- A reconciler and its pipeline have one catalog. -/
structure SourceReconciler where
  pipeline : IngestionPipeline
  catalog : SourceCatalog
  same : pipeline.catalog = some catalog

/-- The change that removes a document which the manifest does not have. -/
def SourceRecord.deletion (r : SourceRecord) : FileChange :=
  { source := r.source, changeType := .delete, content := none, language := none, owner := none, service := none
    acl := ⟨[], []⟩ }

namespace SourceReconciler

variable (l : ChunkLibrary) (r : SourceReconciler)

/-- The document of a change is written again: the catalog has another version of it, or the index has none
of a text that is not blank. -/
def stale (change : FileChange) : Bool :=
  r.catalog.needsUpsert l.sha256 change ||
    (strip (change.content.getD "") ≠ "" && !r.pipeline.index.hasDocument change.source.documentId)

/-- The loop over the manifest: the changes that are applied, and how many are not. -/
def survey (scope : SourceScope) : List FileChange → List String →
    Except ReconciliationError (List FileChange × Nat)
  | [], _ => .ok ([], 0)
  | change :: rest, observed =>
    if change.changeType ≠ .upsert then
      .error (.value "a reconciliation manifest must contain complete upsert records only")
    else if change.source.scope ≠ scope then
      .error (.value "a reconciliation manifest cannot cross source scope")
    else if change.source.documentId ∈ observed then
      .error (.value "a reconciliation manifest cannot contain duplicate document IDs")
    else
      match survey scope rest (change.source.documentId :: observed) with
      | .error x => .error x
      | .ok (candidates, unchanged) =>
        if r.stale l change then .ok (change :: candidates, unchanged) else .ok (candidates, unchanged + 1)

/-- The deletions of the active documents that the manifest does not have. -/
def deletions (scope : SourceScope) (manifest : List FileChange) : List FileChange :=
  ((r.catalog.activeInScope scope).filter fun row =>
    row.documentId ∉ manifest.map (·.source.documentId)).map SourceRecord.deletion

/-- `reconcile`; `outage` is what fails while the changes are applied. -/
def reconcile (scope : SourceScope) (manifest : List FileChange) (outage : Nat → Option Stage) :
    IngestionPipeline × Except ReconciliationError ReconciliationResult :=
  match r.survey l scope manifest [] with
  | .error x => (r.pipeline, .error x)
  | .ok (candidates, unchanged) =>
    match r.pipeline.applyChanges l none outage (candidates ++ r.deletions scope manifest) with
    | (p, .error x) => (p, .error (.ingestion x))
    | (p, .ok counts) => (p, .ok ⟨scope, unchanged, counts⟩)

/-! ### The survey -/

/-- A complete manifest of a scope: upserts of it, each document once. -/
structure Complete (scope : SourceScope) (manifest : List FileChange) : Prop where
  upserts : ∀ c ∈ manifest, c.changeType = .upsert
  inScope : ∀ c ∈ manifest, c.source.scope = scope
  distinct : (manifest.map (·.source.documentId)).Nodup

variable {l r}

theorem survey_ok {scope : SourceScope} {manifest : List FileChange} {observed : List String}
    {candidates : List FileChange} {unchanged : Nat} (h : r.survey l scope manifest observed = .ok (candidates, unchanged)) :
    Complete scope manifest ∧ (∀ c ∈ manifest, c.source.documentId ∉ observed) ∧
      candidates = manifest.filter (r.stale l) := by
  induction manifest generalizing observed candidates unchanged with
  | nil =>
    cases h
    exact ⟨⟨by simp, by simp, List.nodup_nil⟩, by simp, rfl⟩
  | cons change rest ih =>
    unfold survey at h
    by_cases hkind : change.changeType ≠ .upsert
    · rw [if_pos hkind] at h
      cases h
    · rw [if_neg hkind] at h
      by_cases hscope : change.source.scope ≠ scope
      · rw [if_pos hscope] at h
        cases h
      · rw [if_neg hscope] at h
        by_cases hseen : change.source.documentId ∈ observed
        · rw [if_pos hseen] at h
          cases h
        · rw [if_neg hseen] at h
          cases hrest : r.survey l scope rest (change.source.documentId :: observed) with
          | error x =>
            rw [hrest] at h
            cases h
          | ok found =>
            obtain ⟨others, count⟩ := found
            obtain ⟨hcomplete, hnew, hothers⟩ := ih hrest
            rw [hrest] at h
            have hdistinct : change.source.documentId ∉ rest.map (·.source.documentId) := by
              intro hmem
              obtain ⟨c, hc, heq⟩ := List.mem_map.mp hmem
              exact hnew c hc (heq ▸ List.mem_cons_self)
            refine ⟨⟨?_, ?_, ?_⟩, ?_, ?_⟩
            · exact List.forall_mem_cons.mpr ⟨not_not.mp hkind, hcomplete.upserts⟩
            · exact List.forall_mem_cons.mpr ⟨not_not.mp hscope, hcomplete.inScope⟩
            · exact List.nodup_cons.mpr ⟨hdistinct, hcomplete.distinct⟩
            · exact List.forall_mem_cons.mpr ⟨hseen, fun c hc hmem => hnew c hc (List.mem_cons_of_mem _ hmem)⟩
            · simp only at h
              by_cases hstale : r.stale l change = true
              · rw [if_pos hstale] at h
                cases h
                rw [List.filter_cons_of_pos hstale, hothers]
              · rw [if_neg hstale] at h
                cases h
                rw [List.filter_cons_of_neg hstale, hothers]

/-- The survey of a complete manifest raises nothing. -/
theorem survey_complete {scope : SourceScope} {manifest : List FileChange} {observed : List String}
    (h : Complete scope manifest) (hnew : ∀ c ∈ manifest, c.source.documentId ∉ observed) :
    r.survey l scope manifest observed =
      .ok (manifest.filter (r.stale l), (manifest.filter fun c => !r.stale l c).length) := by
  induction manifest generalizing observed with
  | nil => rfl
  | cons change rest ih =>
    obtain ⟨hkind, hupserts⟩ := List.forall_mem_cons.mp h.upserts
    obtain ⟨hscope, hscopes⟩ := List.forall_mem_cons.mp h.inScope
    obtain ⟨hdistinct, hothers⟩ := List.nodup_cons.mp h.distinct
    obtain ⟨hseen, hunseen⟩ := List.forall_mem_cons.mp hnew
    have hrest := @ih (change.source.documentId :: observed) ⟨hupserts, hscopes, hothers⟩ (by
      intro c hc hmem
      rcases List.mem_cons.mp hmem with heq | hmem
      · exact hdistinct (List.mem_map.mpr ⟨c, hc, heq⟩)
      · exact hunseen c hc hmem)
    unfold survey
    rw [if_neg (not_not.mpr hkind), if_neg (not_not.mpr hscope), if_neg hseen, hrest]
    cases hstale : r.stale l change <;> simp [hstale]

end SourceReconciler

end EngineeringIntelligence.Ingestion
