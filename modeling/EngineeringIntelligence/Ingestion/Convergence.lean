import EngineeringIntelligence.Framework.Joined
import EngineeringIntelligence.Framework.Run
import EngineeringIntelligence.Ingestion.Reconciliation

namespace EngineeringIntelligence.Ingestion

open EngineeringIntelligence.Framework

/-! What a reconcile that succeeds leaves, and where that is the manifest. -/

namespace SourceReconciler

variable {l : ChunkLibrary} {r r' : SourceReconciler} {scope : SourceScope} {manifest : List FileChange}

/-- The changes that a reconcile applies. -/
def candidates (l : ChunkLibrary) (r : SourceReconciler) (scope : SourceScope) (manifest : List FileChange) :
    List FileChange :=
  manifest.filter (r.stale l) ++ r.deletions scope manifest

theorem mem_deletions {change : FileChange} : change ∈ r.deletions scope manifest ↔
    ∃ row, r.catalog.get row.documentId = some row ∧ row.source.scope = scope ∧ row.state = .active ∧
      row.documentId ∉ manifest.map (·.source.documentId) ∧ change = row.deletion := by
  unfold deletions
  rw [List.mem_map]
  constructor
  · intro h
    obtain ⟨row, hrow, hdeletion⟩ := h
    rw [List.mem_filter, SourceCatalog.mem_activeInScope] at hrow
    exact ⟨row, hrow.1.1, hrow.1.2.1, hrow.1.2.2, by simpa using hrow.2, hdeletion.symm⟩
  · intro h
    obtain ⟨row, hget, hscope, hstate, hother, hdeletion⟩ := h
    refine ⟨row, ?_, hdeletion.symm⟩
    rw [List.mem_filter, SourceCatalog.mem_activeInScope]
    exact ⟨⟨hget, hscope, hstate⟩, by simpa using hother⟩

theorem candidate_of_stale {c : FileChange} (hc : c ∈ manifest) (hstale : r.stale l c = true) :
    c ∈ r.candidates l scope manifest :=
  List.mem_append_left _ (List.mem_filter.mpr ⟨hc, hstale⟩)

/-- No document is changed twice. -/
theorem candidates_nodup (h : Complete scope manifest) :
    ((r.candidates l scope manifest).map (·.source.documentId)).Nodup := by
  unfold candidates
  rw [List.map_append, List.nodup_append]
  refine ⟨h.distinct.sublist (List.filter_sublist.map _), ?_, ?_⟩
  · have hrows : ((r.catalog.activeInScope scope).map SourceRecord.documentId).Nodup := by
      have hperm : (r.catalog.activeInScope scope).Perm _ := perm_sortedBy _ _
      exact (hperm.map _).nodup_iff.mpr (r.catalog.unique.sublist (List.filter_sublist.map _))
    unfold deletions
    rw [List.map_map]
    exact hrows.sublist (List.filter_sublist.map _)
  · intro id hid id' hid' heq
    subst heq
    obtain ⟨c, hc, hcid⟩ := List.mem_map.mp hid'
    obtain ⟨row, -, -, -, hother, hdeletion⟩ := mem_deletions.mp hc
    obtain ⟨c', hc', hcid'⟩ := List.mem_map.mp hid
    apply hother
    rw [show row.documentId = c.source.documentId by rw [hdeletion]; rfl, hcid, ← hcid']
    exact List.mem_map_of_mem (List.mem_filter.mp hc').1

/-- A successful reconcile: the manifest was complete, and the index and the catalog have the candidates. -/
theorem reconcile_ok {outage : Nat → Option Stage} {result : ReconciliationResult}
    (h : r.reconcile l scope manifest outage = (r'.pipeline, .ok result)) :
    Complete scope manifest ∧ (∀ c ∈ r.candidates l scope manifest, c.chunkable l = true) ∧
      (∀ id, r'.pipeline.index.document id =
        leave l (r.candidates l scope manifest) id (r.pipeline.index.document id)) ∧
        r'.catalog = ((r.candidates l scope manifest).map (·.recorded l none)).foldl Table.put r.catalog := by
  unfold reconcile at h
  cases hsurvey : r.survey l scope manifest [] with
  | error x =>
    rw [hsurvey] at h
    cases (Prod.mk.inj h).2
  | ok found =>
    obtain ⟨stales, unchanged⟩ := found
    obtain ⟨hcomplete, -, hstales⟩ := survey_ok hsurvey
    subst hstales
    rw [hsurvey] at h
    simp only at h
    rw [show manifest.filter (r.stale l) ++ r.deletions scope manifest = r.candidates l scope manifest from rfl] at h
    have hdocument := @IngestionPipeline.document_applyChanges l r.pipeline none outage
      (r.candidates l scope manifest)
    have hisOk := @IngestionPipeline.applyChanges_isOk_iff l r.pipeline none outage
      (r.candidates l scope manifest)
    have hcatalog := @IngestionPipeline.catalog_applyChanges l r.pipeline none outage
      (r.candidates l scope manifest)
    rcases happly : IngestionPipeline.applyChanges l none outage (r.candidates l scope manifest) r.pipeline with
      ⟨p, answer⟩
    rw [happly] at h hdocument hisOk hcatalog
    cases answer with
    | error x => cases (Prod.mk.inj h).2
    | ok counts =>
      have hp : p = r'.pipeline := (Prod.mk.inj h).1
      have hall := hisOk.mp rfl
      subst hp
      refine ⟨hcomplete, hall.1, fun id => ?_, ?_⟩
      · have hid := hdocument id
        rw [IngestionPipeline.written_of_isOk hall, List.take_length] at hid
        exact hid
      · have hcat := hcatalog rfl
        simp only at hcat
        rw [r'.same, r.same, Option.map_some] at hcat
        exact Option.some.inj hcat

/-- The index holds a chunk of another scope. -/
def Foreign (scope : SourceScope) (held : Option (List Chunk)) : Prop :=
  ∃ chunk ∈ held.getD [], chunk.source.scope ≠ scope

/-- The catalog and the index are those of the manifest, other scopes have what they had, and to reconcile
once more changes nothing. -/
structure Converged (l : ChunkLibrary) (scope : SourceScope) (manifest : List FileChange)
    (r r' : SourceReconciler) : Prop where
  active : ∀ documentId fingerprint, (∃ row ∈ r'.catalog.activeInScope scope,
    row.documentId = documentId ∧ row.fingerprint = fingerprint) ↔ ∃ c ∈ manifest,
      c.source.documentId = documentId ∧ changeFingerprint l.sha256 c = fingerprint
  indexed : ∀ c ∈ manifest,
    chunkChange l c = .ok ((r'.pipeline.index.document c.source.documentId).getD [])
  nothingElse : ∀ documentId, documentId ∉ manifest.map (·.source.documentId) →
    ∀ chunk ∈ (r'.pipeline.index.document documentId).getD [], chunk.source.scope ≠ scope
  otherRows : ∀ documentId row, r.catalog.get documentId = some row → row.source.scope ≠ scope →
    r'.catalog.get documentId = some row
  otherDocuments : ∀ documentId, Foreign scope (r.pipeline.index.document documentId) →
    r'.pipeline.index.document documentId = r.pipeline.index.document documentId
  again : ∀ outage, r'.reconcile l scope manifest outage =
    (r'.pipeline, .ok ⟨scope, manifest.length, ⟨0, 0, 0⟩⟩)

/-- What the index must be before: right where the catalog is, without strays of the scope, and without
documents that other scopes share with it. -/
structure Repairable (l : ChunkLibrary) (scope : SourceScope) (manifest : List FileChange)
    (r : SourceReconciler) : Prop where
  kept : ∀ c ∈ manifest, r.stale l c = false →
    chunkChange l c = .ok ((r.pipeline.index.document c.source.documentId).getD [])
  catalogued : ∀ documentId, documentId ∉ manifest.map (·.source.documentId) →
    (∃ chunk ∈ (r.pipeline.index.document documentId).getD [], chunk.source.scope = scope) →
      ∃ row ∈ r.catalog.activeInScope scope, row.documentId = documentId
  ownRows : ∀ c ∈ manifest, ∀ row, r.catalog.get c.source.documentId = some row → row.source.scope = scope
  ownDocuments : ∀ c ∈ r.candidates l scope manifest,
    ¬ Foreign scope (r.pipeline.index.document c.source.documentId)

/-! ### The two states, document by document -/

section

variable {outage : Nat → Option Stage} {result : ReconciliationResult}
  (h : r.reconcile l scope manifest outage = (r'.pipeline, .ok result))

include h

theorem row_of_candidate {c : FileChange} (hc : c ∈ r.candidates l scope manifest) :
    r'.catalog.get c.source.documentId = some (c.recorded l none) := by
  obtain ⟨hcomplete, -, -, hcatalog⟩ := reconcile_ok h
  have hid : SourceRecord.documentId (c.recorded l none) = c.source.documentId := by
    unfold FileChange.recorded
    split <;> rfl
  have hids : ((r.candidates l scope manifest).map (·.recorded l none)).map SourceRecord.documentId =
      (r.candidates l scope manifest).map (·.source.documentId) := by
    rw [List.map_map]
    refine List.map_congr_left fun c _ => ?_
    unfold FileChange.recorded
    simp only [Function.comp]
    split <;> rfl
  have hnodup := candidates_nodup (l := l) (r := r) hcomplete
  rw [← hids] at hnodup
  have hget := Table.get_puts_of_mem (t := r.catalog) hnodup (List.mem_map_of_mem hc)
  rw [hid] at hget
  rw [hcatalog]
  exact hget

theorem document_of_candidate {c : FileChange} (hc : c ∈ r.candidates l scope manifest) :
    r'.pipeline.index.document c.source.documentId = c.indexed l := by
  obtain ⟨hcomplete, -, hdocument, -⟩ := reconcile_ok h
  rw [hdocument]
  exact leave_of_nodup (candidates_nodup hcomplete) hc _

/-- Nothing happens to a document that no candidate names. -/
theorem unchanged_of_other {documentId : String}
    (hother : ∀ c ∈ r.candidates l scope manifest, c.source.documentId ≠ documentId) :
    r'.pipeline.index.document documentId = r.pipeline.index.document documentId ∧
      r'.catalog.get documentId = r.catalog.get documentId := by
  obtain ⟨-, -, hdocument, hcatalog⟩ := reconcile_ok h
  constructor
  · rw [hdocument]
    exact leave_of_untouched hother _
  · rw [hcatalog]
    apply Table.get_puts_of_notMem
    intro hmem
    rw [List.map_map, List.mem_map] at hmem
    obtain ⟨c, hc, hid⟩ := hmem
    apply hother c hc
    rw [← hid]
    simp only [Function.comp, FileChange.recorded]
    split <;> rfl

/-- A document of the manifest that is not stale is not written. -/
theorem unwritten_of_fresh {c : FileChange} (hc : c ∈ manifest) (hfresh : r.stale l c = false) :
    ∀ x ∈ r.candidates l scope manifest, x.source.documentId ≠ c.source.documentId := by
  obtain ⟨hcomplete, -, -, -⟩ := reconcile_ok h
  intro x hx heq
  rcases List.mem_append.mp hx with hx | hx
  · obtain ⟨hmem, hstale⟩ := List.mem_filter.mp hx
    have hsame : x = c := List.inj_on_of_nodup_map hcomplete.distinct hmem hc heq
    rw [hsame, hfresh] at hstale
    cases hstale
  · obtain ⟨row, -, -, -, hother, hdeletion⟩ := mem_deletions.mp hx
    apply hother
    rw [show row.documentId = x.source.documentId by rw [hdeletion]; rfl, heq]
    exact List.mem_map.mpr ⟨c, hc, rfl⟩

/-- Each document of the manifest is active with its fingerprint. -/
theorem row_of_manifest {c : FileChange} (hc : c ∈ manifest) :
    ∃ row, r'.catalog.get c.source.documentId = some row ∧ row.state = .active ∧
      row.fingerprint = changeFingerprint l.sha256 c ∧
        (row.source = c.source ∨ r.catalog.get c.source.documentId = some row) := by
  obtain ⟨hcomplete, -, -, -⟩ := reconcile_ok h
  cases hstale : r.stale l c with
  | true =>
    have hrow := row_of_candidate h (candidate_of_stale hc hstale)
    rw [FileChange.recorded, hcomplete.upserts c hc] at hrow
    exact ⟨_, hrow, rfl, rfl, .inl rfl⟩
  | false =>
    obtain ⟨-, hget⟩ := unchanged_of_other h (unwritten_of_fresh h hc hstale)
    have hneeds : r.catalog.needsUpsert l.sha256 c = false := (Bool.or_eq_false_iff.mp hstale).1
    obtain ⟨row, hrow, hstate, hfingerprint⟩ := SourceCatalog.needsUpsert_eq_false_iff.mp hneeds
    exact ⟨row, hget.trans hrow, hstate, hfingerprint, .inr hrow⟩

/-- What is active in the scope is in the manifest. -/
theorem manifest_of_active {row : SourceRecord} (hrow : row ∈ r'.catalog.activeInScope scope) :
    ∃ c ∈ manifest, c.source.documentId = row.documentId ∧ changeFingerprint l.sha256 c = row.fingerprint := by
  obtain ⟨hcomplete, -, -, -⟩ := reconcile_ok h
  obtain ⟨hget, hscope, hstate⟩ := SourceCatalog.mem_activeInScope.mp hrow
  have hlisted : row.documentId ∈ manifest.map (·.source.documentId) := by
    by_contra hother
    by_cases hcandidate : ∃ x ∈ r.candidates l scope manifest, x.source.documentId = row.documentId
    · obtain ⟨x, hx, hid⟩ := hcandidate
      have hrecorded := row_of_candidate h hx
      rw [hid, hget] at hrecorded
      rcases List.mem_append.mp hx with hx | hx
      · exact hother (List.mem_map.mpr ⟨x, (List.mem_filter.mp hx).1, hid⟩)
      · obtain ⟨row', -, -, -, -, hdeletion⟩ := mem_deletions.mp hx
        rw [Option.some.inj hrecorded, hdeletion] at hstate
        cases hstate
    · have hnone : ∀ x ∈ r.candidates l scope manifest, x.source.documentId ≠ row.documentId :=
        fun x hx hid => hcandidate ⟨x, hx, hid⟩
      obtain ⟨-, hsame⟩ := unchanged_of_other h hnone
      refine hnone row.deletion (List.mem_append_right _ (mem_deletions.mpr ?_)) rfl
      exact ⟨row, hsame.symm.trans hget, hscope, hstate, hother, rfl⟩
  obtain ⟨c, hc, hid⟩ := List.mem_map.mp hlisted
  obtain ⟨row', hrow', -, hfingerprint, -⟩ := row_of_manifest h hc
  rw [hid, hget] at hrow'
  exact ⟨c, hc, hid, hfingerprint.symm.trans (congrArg _ (Option.some.inj hrow').symm)⟩

theorem fresh_after {c : FileChange} (hc : c ∈ manifest) : r'.stale l c = false := by
  obtain ⟨hcomplete, hchunkable, -, -⟩ := reconcile_ok h
  obtain ⟨row, hrow, hstate, hfingerprint, -⟩ := row_of_manifest h hc
  have hneeds : r'.catalog.needsUpsert l.sha256 c = false :=
    SourceCatalog.needsUpsert_eq_false_iff.mpr ⟨row, hrow, hstate, hfingerprint⟩
  unfold stale
  rw [hneeds, Bool.false_or]
  cases hstale : r.stale l c with
  | true =>
    have hcandidate : c ∈ r.candidates l scope manifest := candidate_of_stale hc hstale
    have hdocument := document_of_candidate h hcandidate
    have hchunks : (chunkChange l c).isOk = true := by
      have hok := hchunkable c hcandidate
      rw [FileChange.chunkable, hcomplete.upserts c hc] at hok
      simpa using hok
    obtain ⟨chunks, hchunks⟩ := isOk_iff.mp hchunks
    rw [FileChange.indexed, hcomplete.upserts c hc] at hdocument
    simp only [hchunks, Except.toOption] at hdocument
    rw [InMemoryIndex.hasDocument, hdocument]
    simp
  | false =>
    obtain ⟨hdocument, -⟩ := unchanged_of_other h (unwritten_of_fresh h hc hstale)
    have hheld := (Bool.or_eq_false_iff.mp hstale).2
    rw [InMemoryIndex.hasDocument, hdocument]
    exact hheld

/-- To reconcile once more changes nothing, whatever was wrong before. -/
theorem reconcile_again (outage : Nat → Option Stage) : r'.reconcile l scope manifest outage =
    (r'.pipeline, .ok ⟨scope, manifest.length, ⟨0, 0, 0⟩⟩) := by
  obtain ⟨hcomplete, -, -, -⟩ := reconcile_ok h
  have hfresh : ∀ c ∈ manifest, r'.stale l c = false := fun c hc => fresh_after h hc
  have hstales : manifest.filter (r'.stale l) = [] := by
    rw [List.filter_eq_nil_iff]
    intro c hc
    rw [hfresh c hc]
    simp
  have hall : (manifest.filter fun c => !r'.stale l c) = manifest := by
    rw [List.filter_eq_self]
    intro c hc
    rw [hfresh c hc]
    rfl
  have hdeletions : r'.deletions scope manifest = [] := by
    apply List.eq_nil_iff_forall_not_mem.mpr
    intro x hx
    obtain ⟨row, hget, hscope, hstate, hother, -⟩ := mem_deletions.mp hx
    obtain ⟨c, hc, hid, -⟩ := manifest_of_active h (SourceCatalog.mem_activeInScope.mpr ⟨hget, hscope, hstate⟩)
    exact hother (List.mem_map.mpr ⟨c, hc, hid⟩)
  rw [reconcile, survey_complete hcomplete (by simp), hstales, hall, hdeletions]
  rfl

theorem converged_of_repairable (hrepairable : Repairable l scope manifest r) :
    Converged l scope manifest r r' where
  active := by
    intro documentId fingerprint
    constructor
    · intro hrow
      obtain ⟨row, hrow, hid, hfingerprint⟩ := hrow
      obtain ⟨c, hc, hcid, hcfingerprint⟩ := manifest_of_active h hrow
      exact ⟨c, hc, hcid.trans hid, hcfingerprint.trans hfingerprint⟩
    · intro hc
      obtain ⟨c, hc, hid, hfingerprint⟩ := hc
      obtain ⟨hcomplete, -, -, -⟩ := reconcile_ok h
      obtain ⟨row, hget, hstate, hrow, hsource⟩ := row_of_manifest h hc
      have hkey : row.documentId = c.source.documentId := Table.key_of_get hget
      have hscope : row.source.scope = scope := by
        rcases hsource with heq | hbefore
        · rw [heq]
          exact hcomplete.inScope c hc
        · exact hrepairable.ownRows c hc row hbefore
      rw [← hkey] at hget
      exact ⟨row, SourceCatalog.mem_activeInScope.mpr ⟨hget, hscope, hstate⟩, hkey.trans hid,
        hrow.trans hfingerprint⟩
  indexed := by
    intro c hc
    obtain ⟨hcomplete, hchunkable, -, -⟩ := reconcile_ok h
    cases hstale : r.stale l c with
    | true =>
      have hcandidate : c ∈ r.candidates l scope manifest := candidate_of_stale hc hstale
      have hok := hchunkable c hcandidate
      rw [FileChange.chunkable, hcomplete.upserts c hc] at hok
      obtain ⟨chunks, hchunks⟩ := isOk_iff.mp (show (chunkChange l c).isOk = true by simpa using hok)
      rw [document_of_candidate h hcandidate, FileChange.indexed, hcomplete.upserts c hc, hchunks]
      rfl
    | false =>
      rw [(unchanged_of_other h (unwritten_of_fresh h hc hstale)).1]
      exact hrepairable.kept c hc hstale
  nothingElse := by
    intro documentId hother chunk hchunk hscope
    by_cases hcandidate : ∃ x ∈ r.candidates l scope manifest, x.source.documentId = documentId
    · obtain ⟨x, hx, hid⟩ := hcandidate
      rw [← hid, document_of_candidate h hx] at hchunk
      rcases List.mem_append.mp hx with hx | hx
      · exact hother (List.mem_map.mpr ⟨x, (List.mem_filter.mp hx).1, hid⟩)
      · obtain ⟨row, -, -, -, -, hdeletion⟩ := mem_deletions.mp hx
        rw [hdeletion] at hchunk
        simp [FileChange.indexed, SourceRecord.deletion] at hchunk
    · have hnone : ∀ x ∈ r.candidates l scope manifest, x.source.documentId ≠ documentId :=
        fun x hx hid => hcandidate ⟨x, hx, hid⟩
      rw [(unchanged_of_other h hnone).1] at hchunk
      obtain ⟨row, hrow, hid⟩ := hrepairable.catalogued documentId hother ⟨chunk, hchunk, hscope⟩
      obtain ⟨hget, hrowScope, hstate⟩ := SourceCatalog.mem_activeInScope.mp hrow
      refine hnone row.deletion (List.mem_append_right _ (mem_deletions.mpr ?_)) hid
      exact ⟨row, hget, hrowScope, hstate, hid ▸ hother, rfl⟩
  otherRows := by
    intro documentId row hget hforeign
    have hnone : ∀ x ∈ r.candidates l scope manifest, x.source.documentId ≠ documentId := by
      intro x hx hid
      apply hforeign
      rcases List.mem_append.mp hx with hx | hx
      · exact hrepairable.ownRows x (List.mem_filter.mp hx).1 row (hid ▸ hget)
      · obtain ⟨row', hget', hscope, -, -, hdeletion⟩ := mem_deletions.mp hx
        have hid' : row'.documentId = documentId := by
          rw [← hid, hdeletion]
          rfl
        rw [hid', hget] at hget'
        rw [Option.some.inj hget']
        exact hscope
    rw [(unchanged_of_other h hnone).2]
    exact hget
  otherDocuments := by
    intro documentId hforeign
    refine (unchanged_of_other h fun x hx hid => ?_).1
    exact hrepairable.ownDocuments x hx (hid ▸ hforeign)
  again := reconcile_again h

theorem repairable_of_converged (hconverged : Converged l scope manifest r r') :
    Repairable l scope manifest r where
  kept := by
    intro c hc hfresh
    rw [← (unchanged_of_other h (unwritten_of_fresh h hc hfresh)).1]
    exact hconverged.indexed c hc
  catalogued := by
    intro documentId hother hchunk
    obtain ⟨chunk, hchunk, hscope⟩ := hchunk
    by_contra hrow
    have hnone : ∀ x ∈ r.candidates l scope manifest, x.source.documentId ≠ documentId := by
      intro x hx hid
      rcases List.mem_append.mp hx with hx | hx
      · exact hother (List.mem_map.mpr ⟨x, (List.mem_filter.mp hx).1, hid⟩)
      · obtain ⟨row, hget, hrowScope, hstate, -, hdeletion⟩ := mem_deletions.mp hx
        refine hrow ⟨row, SourceCatalog.mem_activeInScope.mpr ⟨hget, hrowScope, hstate⟩, ?_⟩
        rw [← hid, hdeletion]
        rfl
    rw [← (unchanged_of_other h hnone).1] at hchunk
    exact hconverged.nothingElse documentId hother chunk hchunk hscope
  ownRows := by
    intro c hc row hget
    by_contra hforeign
    have hkept := hconverged.otherRows _ row hget hforeign
    obtain ⟨row', hrow', hid, -⟩ := (hconverged.active _ _).mpr ⟨c, hc, rfl, rfl⟩
    obtain ⟨hget', hscope, -⟩ := SourceCatalog.mem_activeInScope.mp hrow'
    rw [hid, hkept] at hget'
    exact hforeign (Option.some.inj hget' ▸ hscope)
  ownDocuments := by
    intro c hc hforeign
    have hkept := hconverged.otherDocuments _ hforeign
    rw [document_of_candidate h hc] at hkept
    obtain ⟨chunk, hchunk, hother⟩ := hforeign
    rw [← hkept] at hchunk
    have hsource := indexed_source hchunk
    apply hother
    rw [hsource]
    obtain ⟨hcomplete, -, -, -⟩ := reconcile_ok h
    rcases List.mem_append.mp hc with hc | hc
    · exact hcomplete.inScope c (List.mem_filter.mp hc).1
    · obtain ⟨row, -, hscope, -, -, hdeletion⟩ := mem_deletions.mp hc
      rw [hdeletion]
      exact hscope

/-- A reconcile that succeeds converges exactly from what is repairable. -/
theorem converged_iff : Converged l scope manifest r r' ↔ Repairable l scope manifest r :=
  ⟨repairable_of_converged h, converged_of_repairable h⟩

end

end SourceReconciler

/-! ### A push that stops before the catalog -/

structure ChangesCall where
  eventId : Option String
  outage : Nat → Option Stage
  changes : List FileChange

def IngestionPipeline.step (l : ChunkLibrary) (p : IngestionPipeline) (call : ChangesCall) :
    IngestionPipeline × Except IngestionError Counts :=
  p.applyChanges l call.eventId call.outage call.changes

namespace PaymentDocs

def scope : SourceScope := ⟨"git", "acme/pay", "main"⟩

def file (commitSha content : String) : FileChange :=
  { source := ⟨"git", "acme/pay", "main", commitSha, "docs/pay.md"⟩, changeType := .upsert, content := some content
    language := some "md", owner := none, service := none, acl := ⟨["repo:acme/pay:read"], []⟩ }

def byCard : FileChange := file "c1" "Pay by card."

def inCash : FileChange := file "c2" "Pay in cash."

/-- SHA-256 on the texts that are hashed for the two files. -/
def digests : List (String × String) :=
  [("Pay by card.", "a4443fa24f360075ec4e441d66f34ebc9e099137686ad9c58de751c976b3ae37"),
    ("git:acme/pay:main:docs/pay.md|c1|0||" ++
      "a4443fa24f360075ec4e441d66f34ebc9e099137686ad9c58de751c976b3ae37",
      "e1bc257c42e7dcab4ceb340bfbd654a72105494f1da0356e94be21e357d8773b"),
    ("\x7b\"acl_groups\":[\"repo:acme/pay:read\"],\"acl_users\":[],\"branch\":\"main\",\"commit_sha\":\"c1\"," ++
      "\"content\":\"Pay by card.\",\"language\":\"md\",\"owner\":null,\"path\":\"docs/pay.md\",\"provider\":\"git\",\"repository\":\"acme/pay\",\"service\":null\x7d",
      "cafa471503493ac96e236d272b7693619a233afcfebffb471c55942152652a49"),
    ("Pay in cash.", "07af5606baac6d75ab78f462c6341870b37d8b15f1466d718438a39ae77c0820"),
    ("git:acme/pay:main:docs/pay.md|c2|0||" ++
      "07af5606baac6d75ab78f462c6341870b37d8b15f1466d718438a39ae77c0820",
      "68b0c61eea464f0fd466f94aca67a961ea0b82b30c1b1ca0a4cc8df17ef43473"),
    ("\x7b\"acl_groups\":[\"repo:acme/pay:read\"],\"acl_users\":[],\"branch\":\"main\",\"commit_sha\":\"c2\"," ++
      "\"content\":\"Pay in cash.\",\"language\":\"md\",\"owner\":null,\"path\":\"docs/pay.md\",\"provider\":\"git\",\"repository\":\"acme/pay\",\"service\":null\x7d",
      "d6a37e76ba50520fc2215a44fd94c37b0408bb75148bc98c4845055548b9a663")]

def library : ChunkLibrary where
  sha256 := digestsAt digests
  parse _ := .ok []

theorem chunks_of_part {content : String} (commitSha : String) (hblank : strip content ≠ "")
    (hparts : textParts defaultTextChars content = [content]) :
    chunkChange library (file commitSha content) =
      .ok [(file commitSha content).chunk library 0 none (some "md") content] := by
  have hlanguage : ["py", "python"].contains (asciiLower "md") = false := by decide
  have hpath : endsWithAny "docs/pay.md" [".py"] = false := by decide
  have hpython : (file commitSha content).isPython = false := by
    simp only [FileChange.isPython, file, Option.getD_some, hlanguage, hpath, Bool.or_self]
  rw [chunkChange, hpython, if_neg (by simp), textChunks, show (file commitSha content).content.getD "" = content from rfl,
    if_neg hblank, hparts]
  rfl

theorem byCard_chunks : chunkChange library byCard = .ok [byCard.chunk library 0 none (some "md") "Pay by card."] :=
  chunks_of_part "c1" (by decide) (by decide)

theorem inCash_chunks : chunkChange library inCash = .ok [inCash.chunk library 0 none (some "md") "Pay in cash."] :=
  chunks_of_part "c2" (by decide) (by decide)

def clean : SourceReconciler := ⟨⟨InMemoryIndex.empty, some Table.empty, []⟩, Table.empty, rfl⟩

/-- The first push is applied, the second stops before the catalog. -/
def pushes : List ChangesCall :=
  [⟨some "e1", fun _ => none, [byCard]⟩, ⟨some "e2", fun _ => some .catalog, [inCash]⟩]

def catalog : SourceCatalog := SourceCatalog.recordUpsert library.sha256 Table.empty (some "e1") byCard

def index : InMemoryIndex :=
  (InMemoryIndex.empty.replaceDocument byCard.source.documentId
    [byCard.chunk library 0 none (some "md") "Pay by card."]).replaceDocument inCash.source.documentId
      [inCash.chunk library 0 none (some "md") "Pay in cash."]

def drifted : SourceReconciler := ⟨⟨index, some catalog, []⟩, catalog, rfl⟩

theorem drifted_reached : runState (IngestionPipeline.step library) clean.pipeline pushes = drifted.pipeline := by
  simp only [pushes, runState, IngestionPipeline.step, IngestionPipeline.applyChanges_one,
    IngestionPipeline.applyChange_upsert rfl byCard_chunks, IngestionPipeline.applyChange_upsert rfl inCash_chunks]
  rfl

theorem drifted_document : drifted.pipeline.index.document byCard.source.documentId =
    some [inCash.chunk library 0 none (some "md") "Pay in cash."] := by
  have hid : byCard.source.documentId = inCash.source.documentId := rfl
  rw [hid]
  exact (InMemoryIndex.document_replaceDocument _ _ _ _).trans (if_pos rfl)

/-- The branch is back at the first push, which the catalog has. -/
theorem drifted_fresh : drifted.stale library byCard = false := by
  have hneeds : drifted.catalog.needsUpsert library.sha256 byCard = false :=
    SourceCatalog.needsUpsert_eq_false_iff.mpr
      ⟨SourceCatalog.record library.sha256 .active (some "e1") byCard, Table.get_put_self _ _, rfl, rfl⟩
  rw [SourceReconciler.stale, hneeds, InMemoryIndex.hasDocument, drifted_document]
  simp

end PaymentDocs

open PaymentDocs SourceReconciler in
/-- On a clean store the manifest is reconciled. -/
theorem payment_docs_converge : ∃ r' : SourceReconciler, ∃ result,
    clean.reconcile library scope [byCard] (fun _ => none) = (r'.pipeline, .ok result) ∧
      Converged library scope [byCard] clean r' := by
  have hstale : clean.stale library byCard = true := rfl
  have hdeletions : clean.deletions scope [byCard] = [] := rfl
  let r' : SourceReconciler := ⟨⟨InMemoryIndex.empty.replaceDocument byCard.source.documentId
      [byCard.chunk library 0 none (some "md") "Pay by card."],
    some (SourceCatalog.recordUpsert library.sha256 Table.empty none byCard), []⟩, _, rfl⟩
  have hreconcile : clean.reconcile library scope [byCard] (fun _ => none) = (r'.pipeline, .ok ⟨scope, 0, ⟨1, 0, 1⟩⟩) := by
    have hsurvey : clean.survey library scope [byCard] [] = .ok ([byCard], 0) := by
      rw [survey_complete ⟨by simp [byCard, file], by simp [byCard, file]; rfl, by simp⟩ (by simp)]
      simp [hstale]
    rw [reconcile, hsurvey]
    simp only [hdeletions, List.append_nil, IngestionPipeline.applyChanges,
      IngestionPipeline.applyChange_upsert rfl byCard_chunks]
    rfl
  refine ⟨r', _, hreconcile, (converged_iff hreconcile).mpr ⟨?_, ?_, ?_, ?_⟩⟩
  · intro c hc hfresh
    rw [List.mem_singleton.mp hc, hstale] at hfresh
    cases hfresh
  · intro documentId hother hchunk
    obtain ⟨chunk, hchunk, -⟩ := hchunk
    cases hchunk
  · intro c hc row hrow
    cases hrow
  · intro c hc hforeign
    obtain ⟨chunk, hchunk, -⟩ := hforeign
    cases hchunk

open PaymentDocs SourceReconciler in
/-- From the half-applied push the reconcile succeeds and leaves the text of the second push. -/
theorem half_applied_push_stays :
    runState (IngestionPipeline.step library) clean.pipeline pushes = drifted.pipeline ∧
      Complete scope [byCard] ∧
        drifted.reconcile library scope [byCard] (fun _ => none) =
          (drifted.pipeline, .ok ⟨scope, 1, ⟨0, 0, 0⟩⟩) ∧
          ¬ Converged library scope [byCard] drifted drifted := by
  have hcomplete : Complete scope [byCard] := ⟨by simp [byCard, file], by simp [byCard, file]; rfl, by simp⟩
  have hdeletions : drifted.deletions scope [byCard] = [] := by
    apply List.eq_nil_iff_forall_not_mem.mpr
    intro x hx
    obtain ⟨row, hget, -, -, hother, -⟩ := mem_deletions.mp hx
    have hrow : row ∈ catalog.rows := Table.mem_of_get hget
    have hkeys : ∀ r ∈ catalog.rows, r.documentId = byCard.source.documentId := by
      intro r hr
      rcases Table.mem_put.mp hr with h | h
      · rw [h]
        rfl
      · cases h.1
    exact hother (by rw [hkeys row hrow]; simp)
  refine ⟨drifted_reached, hcomplete, ?_, ?_⟩
  · rw [reconcile, survey_complete hcomplete (by simp), hdeletions]
    simp [drifted_fresh, IngestionPipeline.applyChanges]
  · intro h
    have hindexed := h.indexed byCard (by simp)
    rw [byCard_chunks, drifted_document] at hindexed
    have hcontent := congrArg (List.map Chunk.content) (Except.ok.inj hindexed)
    exact absurd hcontent (by decide)

end EngineeringIntelligence.Ingestion
