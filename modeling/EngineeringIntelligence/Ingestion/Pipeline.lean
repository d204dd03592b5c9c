import EngineeringIntelligence.Ingestion.Catalog
import EngineeringIntelligence.Ingestion.Chunkers

namespace EngineeringIntelligence.Ingestion

open EngineeringIntelligence.Framework

/-! `IngestionPipeline`: the changes of an event go to the index, the brain's projections and the catalog. -/

structure NormalizedEvent where
  eventId : String
  changes : List FileChange

/-- Where the writes of a change stop when something raises: at the index, at one of the projections after
it, or at the catalog, which is last. -/
inductive Stage where
  | index | projection | catalog
  deriving DecidableEq, Repr

inductive IngestionError where
  /-- `chunk_change` -/
  | parse (x : ParseError)
  /-- a failing index, projection or catalog -/
  | raised (stage : Stage)
  deriving DecidableEq, Repr

/-- What `apply_changes` counts. -/
structure Counts where
  upserted : Nat
  deleted : Nat
  chunks : Nat
  deriving DecidableEq, Repr

def Counts.add (a b : Counts) : Counts := ⟨a.upserted + b.upserted, a.deleted + b.deleted, a.chunks + b.chunks⟩

structure IngestionPipeline where
  index : InMemoryIndex
  catalog : Option SourceCatalog
  processedEvents : List String

namespace IngestionPipeline

variable (l : ChunkLibrary) (p : IngestionPipeline)

/-- The writes of one change, up to the stage that raises. -/
def write (outage : Option Stage) (index : InMemoryIndex) (record : SourceCatalog → SourceCatalog) (counts : Counts) :
    IngestionPipeline × Except IngestionError Counts :=
  match outage with
  | some .index => (p, .error (.raised .index))
  | some stage => ({ p with index }, .error (.raised stage))
  | none => ({ p with index, catalog := p.catalog.map record }, .ok counts)

/-- One round of the loop in `apply_changes`. -/
def applyChange (eventId : Option String) (outage : Option Stage) (change : FileChange) :
    IngestionPipeline × Except IngestionError Counts :=
  let documentId := change.source.documentId
  match change.changeType with
  | .delete =>
    p.write outage (p.index.deleteDocument documentId) (fun c => c.recordDelete l.sha256 eventId change) ⟨0, 1, 0⟩
  | .upsert =>
    match chunkChange l change with
    | .error x => (p, .error (.parse x))
    | .ok chunks =>
      p.write outage (p.index.replaceDocument documentId chunks) (fun c => c.recordUpsert l.sha256 eventId change)
        ⟨1, 0, chunks.length⟩

/-- `apply_changes`; `outage i` says whether the `i`-th change fails, and where. -/
def applyChanges (eventId : Option String) (outage : Nat → Option Stage) :
    List FileChange → IngestionPipeline → IngestionPipeline × Except IngestionError Counts
  | [], p => (p, .ok ⟨0, 0, 0⟩)
  | change :: rest, p =>
    match p.applyChange l eventId (outage 0) change with
    | (p', .error x) => (p', .error x)
    | (p', .ok counts) =>
      match applyChanges eventId (fun i => outage (i + 1)) rest p' with
      | (p'', .error x) => (p'', .error x)
      | (p'', .ok others) => (p'', .ok (counts.add others))

/-- The answer to an event: whether it was known, and what was written. -/
structure Answer where
  duplicate : Bool
  counts : Counts
  deriving DecidableEq, Repr

/-- `process`. -/
def process (event : NormalizedEvent) (outage : Nat → Option Stage) :
    IngestionPipeline × Except IngestionError Answer :=
  if event.eventId ∈ p.processedEvents then (p, .ok ⟨true, ⟨0, 0, 0⟩⟩)
  else
    match p.applyChanges l (some event.eventId) outage event.changes with
    | (p', .error x) => (p', .error x)
    | (p', .ok counts) => ({ p' with processedEvents := event.eventId :: p'.processedEvents }, .ok ⟨false, counts⟩)

end IngestionPipeline

/-! ### What a list of changes leaves in the index and the catalog -/

section

variable (l : ChunkLibrary)

/-- Its text can be chunked, if it is to be. -/
def FileChange.chunkable (change : FileChange) : Bool :=
  change.changeType = .delete || (chunkChange l change).isOk

/-- What the change says of its document. -/
def FileChange.indexed (change : FileChange) : Option (List Chunk) :=
  match change.changeType with
  | .delete => none
  | .upsert => (chunkChange l change).toOption

/-- The catalog's row of the change. -/
def FileChange.recorded (eventId : Option String) (change : FileChange) : SourceRecord :=
  match change.changeType with
  | .delete => SourceCatalog.record l.sha256 .deleted eventId change
  | .upsert => SourceCatalog.record l.sha256 .active eventId change

/-- What the changes leave of a document that was `held`. -/
def leave (changes : List FileChange) (documentId : String) (held : Option (List Chunk)) : Option (List Chunk) :=
  changes.foldl (fun held change => if change.source.documentId = documentId then change.indexed l else held) held

/-- How many of the changes reach the index. -/
def written (outage : Nat → Option Stage) : List FileChange → Nat
  | [] => 0
  | change :: rest =>
    if change.chunkable l = false ∨ outage 0 = some .index then 0
    else if (outage 0).isSome then 1
    else written (fun i => outage (i + 1)) rest + 1

variable {l}

theorem leave_cons (change : FileChange) (rest : List FileChange) (documentId : String)
    (held : Option (List Chunk)) : leave l (change :: rest) documentId held =
      leave l rest documentId (if change.source.documentId = documentId then change.indexed l else held) := rfl

/-- Changes of other documents leave a document as it is. -/
theorem leave_of_untouched {changes : List FileChange} {documentId : String}
    (h : ∀ c ∈ changes, c.source.documentId ≠ documentId) (held : Option (List Chunk)) :
    leave l changes documentId held = held := by
  induction changes with
  | nil => rfl
  | cons change rest ih =>
    obtain ⟨hchange, hrest⟩ := List.forall_mem_cons.mp h
    rw [leave_cons, if_neg hchange]
    exact ih hrest

/-- Among changes of distinct documents each says what is left of its own. -/
theorem leave_of_nodup {changes : List FileChange} (h : (changes.map (·.source.documentId)).Nodup)
    {change : FileChange} (hc : change ∈ changes) (held : Option (List Chunk)) :
    leave l changes change.source.documentId held = change.indexed l := by
  induction changes generalizing held with
  | nil => simp at hc
  | cons first rest ih =>
    rw [List.map_cons, List.nodup_cons] at h
    rw [leave_cons]
    rcases List.mem_cons.mp hc with heq | hmem
    · subst heq
      rw [if_pos rfl]
      apply leave_of_untouched
      intro c hmem heq
      exact h.1 (heq ▸ List.mem_map_of_mem hmem)
    · exact ih h.2 hmem _

/-- The chunks that a change leaves are of its source. -/
theorem indexed_source {change : FileChange} {chunk : Chunk} (h : chunk ∈ (change.indexed l).getD []) :
    chunk.source = change.source := by
  unfold FileChange.indexed at h
  split at h
  · simp at h
  · cases hchunks : chunkChange l change with
    | error x => simp [hchunks, Except.toOption] at h
    | ok chunks =>
      rw [hchunks] at h
      exact (carries_chunkChange l hchunks chunk h).2.1

namespace IngestionPipeline

variable {p : IngestionPipeline} {eventId : Option String}

/-- What one change does, whether or not it raises. -/
theorem applyChange_spec (outage : Option Stage) (change : FileChange) :
    (∀ documentId, (p.applyChange l eventId outage change).1.index.document documentId =
      if change.chunkable l = false ∨ outage = some .index then p.index.document documentId
      else if change.source.documentId = documentId then change.indexed l else p.index.document documentId) ∧
    ((p.applyChange l eventId outage change).2.isOk = true ↔ change.chunkable l = true ∧ outage = none) ∧
    ((p.applyChange l eventId outage change).2.isOk = true →
      (p.applyChange l eventId outage change).1.catalog = p.catalog.map (·.put (change.recorded l eventId))) ∧
    (p.applyChange l eventId outage change).1.processedEvents = p.processedEvents := by
  unfold applyChange FileChange.chunkable FileChange.indexed FileChange.recorded
  cases hkind : change.changeType with
  | delete =>
    rcases outage with - | - | - | - <;>
      simp [write, InMemoryIndex.document_deleteDocument, Except.isOk, Except.toBool, eq_comm,
        SourceCatalog.recordDelete]
  | upsert =>
    cases hchunks : chunkChange l change with
    | error x => simp [Except.isOk, Except.toBool]
    | ok chunks =>
      rcases outage with - | - | - | - <;>
        simp [write, InMemoryIndex.document_replaceDocument, Except.isOk, Except.toBool, Except.toOption, eq_comm,
          SourceCatalog.recordUpsert]

theorem applyChange_upsert {change : FileChange} {chunks : List Chunk} (hkind : change.changeType = .upsert)
    (hchunks : chunkChange l change = .ok chunks) (outage : Option Stage) :
    p.applyChange l eventId outage change =
      p.write outage (p.index.replaceDocument change.source.documentId chunks)
        (fun c => c.recordUpsert l.sha256 eventId change) ⟨1, 0, chunks.length⟩ := by
  rw [applyChange, hkind]
  simp only
  rw [hchunks]

theorem applyChanges_one (outage : Nat → Option Stage) (change : FileChange) :
    (applyChanges l eventId outage [change] p).1 = (p.applyChange l eventId (outage 0) change).1 := by
  unfold applyChanges
  rcases p.applyChange l eventId (outage 0) change with ⟨p', _ | _⟩ <;> rfl

/-- The index after `apply_changes`, which may have raised on the way. -/
theorem document_applyChanges (outage : Nat → Option Stage) (changes : List FileChange) (documentId : String) :
    (applyChanges l eventId outage changes p).1.index.document documentId =
      leave l (changes.take (written l outage changes)) documentId (p.index.document documentId) := by
  induction changes generalizing p outage with
  | nil => rfl
  | cons change rest ih =>
    obtain ⟨hindex, hok, -⟩ := @applyChange_spec l p eventId (outage 0) change
    have hindex := hindex documentId
    rcases hfirst : p.applyChange l eventId (outage 0) change with ⟨p', answer⟩
    rw [hfirst] at hindex hok
    rw [applyChanges, hfirst, written]
    by_cases hearly : change.chunkable l = false ∨ outage 0 = some .index
    · rw [if_pos hearly] at hindex ⊢
      have herror : answer.isOk = false := by
        rw [← Bool.not_eq_true, hok]
        rcases hearly with h | h <;> simp [h]
      cases answer with
      | error x => exact hindex
      | ok counts => cases herror
    · rw [if_neg hearly] at hindex ⊢
      have hchunkable : change.chunkable l = true := by simpa using (not_or.mp hearly).1
      cases answer with
      | error x =>
        have hsome : (outage 0).isSome = true := by
          rw [← Option.ne_none_iff_isSome]
          intro hnone
          cases hok.mpr ⟨hchunkable, hnone⟩
        rw [if_pos hsome, List.take_succ_cons, leave_cons, List.take_zero]
        exact hindex
      | ok counts =>
        have hnone : outage 0 = none := (hok.mp rfl).2
        rw [hnone, if_neg (by simp), List.take_succ_cons, leave_cons, ← hindex, ← ih]
        simp only
        split <;> next hrest => rw [hrest]

/-- `apply_changes` succeeds where every text can be chunked and nothing fails. -/
theorem applyChanges_isOk_iff (outage : Nat → Option Stage) (changes : List FileChange) :
    (applyChanges l eventId outage changes p).2.isOk = true ↔
      (∀ c ∈ changes, c.chunkable l = true) ∧ ∀ i < changes.length, outage i = none := by
  induction changes generalizing p outage with
  | nil => simp [applyChanges, Except.isOk, Except.toBool]
  | cons change rest ih =>
    obtain ⟨-, hok, -⟩ := @applyChange_spec l p eventId (outage 0) change
    rcases hfirst : p.applyChange l eventId (outage 0) change with ⟨p', answer⟩
    rw [hfirst] at hok
    rw [applyChanges, hfirst, List.forall_mem_cons]
    have hsplit : (∀ i < (change :: rest).length, outage i = none) ↔
        outage 0 = none ∧ ∀ i < rest.length, outage (i + 1) = none := by
      constructor
      · intro h
        exact ⟨h 0 (by simp), fun i hi => h (i + 1) (by simpa using hi)⟩
      · intro h i hi
        cases i with
        | zero => exact h.1
        | succ i => exact h.2 i (by simpa using hi)
    rw [hsplit]
    cases answer with
    | error x =>
      simp only [Except.isOk, Except.toBool, Bool.false_eq_true, false_iff] at hok ⊢
      tauto
    | ok counts =>
      have hfirst := hok.mp rfl
      have hrest := ih (p := p') fun i => outage (i + 1)
      simp only
      split
      · next hresult =>
        rw [hresult] at hrest
        simp only [Except.isOk, Except.toBool, Bool.false_eq_true, false_iff] at hrest ⊢
        tauto
      · next hresult =>
        rw [hresult] at hrest
        simp only [Except.isOk, Except.toBool, true_iff] at hrest ⊢
        tauto

/-- When it succeeds every change has reached the index. -/
theorem written_of_isOk {outage : Nat → Option Stage} {changes : List FileChange}
    (h : (∀ c ∈ changes, c.chunkable l = true) ∧ ∀ i < changes.length, outage i = none) :
    written l outage changes = changes.length := by
  induction changes generalizing outage with
  | nil => rfl
  | cons change rest ih =>
    obtain ⟨hchunkable, hoff⟩ := h
    have hfirst : outage 0 = none := hoff 0 (by simp)
    have hrest : written l (fun i => outage (i + 1)) rest = rest.length := ih
      ⟨(List.forall_mem_cons.mp hchunkable).2, fun i hi => hoff (i + 1) (by simpa using hi)⟩
    simp [written, hfirst, (List.forall_mem_cons.mp hchunkable).1, hrest]

theorem catalog_applyChanges {outage : Nat → Option Stage} {changes : List FileChange}
    (h : (applyChanges l eventId outage changes p).2.isOk = true) :
    (applyChanges l eventId outage changes p).1.catalog = p.catalog.map fun catalog =>
      (changes.map (·.recorded l eventId)).foldl Table.put catalog := by
  induction changes generalizing p outage with
  | nil => simp [applyChanges]
  | cons change rest ih =>
    obtain ⟨-, -, hcatalog, -⟩ := @applyChange_spec l p eventId (outage 0) change
    rcases hfirst : p.applyChange l eventId (outage 0) change with ⟨p', answer⟩
    rw [hfirst] at hcatalog
    rw [applyChanges, hfirst] at h ⊢
    cases answer with
    | error x => cases h
    | ok counts =>
      have hrest := @ih p' fun i => outage (i + 1)
      simp only at h ⊢
      split at h
      · cases h
      · next hresult =>
        rw [hresult] at hrest
        simp only
        rw [hrest rfl, hcatalog rfl, Option.map_map]
        rfl

end IngestionPipeline

end

end EngineeringIntelligence.Ingestion
