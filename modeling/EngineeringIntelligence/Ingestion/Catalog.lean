import EngineeringIntelligence.Ingestion.Models

namespace EngineeringIntelligence.Ingestion

open EngineeringIntelligence.Framework

/-! The catalog of source documents. -/

structure SourceScope where
  provider : String
  repository : String
  branch : String
  deriving DecidableEq, Repr

def SourceIdentity.scope (s : SourceIdentity) : SourceScope := ⟨s.provider, s.repository, s.branch⟩

inductive SourceState where
  | active | deleted
  deriving DecidableEq, Repr

def SourceState.value : SourceState → String
  | active => "active"
  | deleted => "deleted"

/-- A row of `source_documents`; its key is the document that its source names. -/
structure SourceRecord where
  source : SourceIdentity
  fingerprint : String
  state : SourceState
  lastEventId : Option String
  deriving DecidableEq, Repr

def SourceRecord.documentId (r : SourceRecord) : String := r.source.documentId

abbrev SourceCatalog := Table SourceRecord.documentId

namespace SourceCatalog

variable (sha256 : String → String) (catalog : SourceCatalog)

/-- `needs_upsert`. -/
def needsUpsert (change : FileChange) : Bool :=
  match catalog.get change.source.documentId with
  | none => true
  | some current => current.state ≠ .active || current.fingerprint ≠ changeFingerprint sha256 change

/-- `_record`: the row of a change. -/
def record (state : SourceState) (eventId : Option String) (change : FileChange) : SourceRecord :=
  ⟨change.source, changeFingerprint sha256 change, state, eventId⟩

/-- `record_upsert`. -/
def recordUpsert (eventId : Option String) (change : FileChange) : SourceCatalog :=
  catalog.put (record sha256 .active eventId change)

/-- `record_delete`. -/
def recordDelete (eventId : Option String) (change : FileChange) : SourceCatalog :=
  catalog.put (record sha256 .deleted eventId change)

/-- `active_in_scope`. -/
def activeInScope (scope : SourceScope) : List SourceRecord :=
  sortedBy (·.source.path) (catalog.rows.filter fun r => r.source.scope = scope ∧ r.state = .active)

theorem mem_activeInScope {catalog : SourceCatalog} {scope : SourceScope} {r : SourceRecord} :
    r ∈ activeInScope catalog scope ↔
      catalog.get r.documentId = some r ∧ r.source.scope = scope ∧ r.state = .active := by
  unfold activeInScope
  rw [(perm_sortedBy _ _).mem_iff, List.mem_filter]
  have hrow : r ∈ catalog.rows ↔ catalog.get r.documentId = some r :=
    ⟨Table.get_of_mem, Table.mem_of_get⟩
  simp [hrow]

/-- A change is left out exactly when its row is active with its fingerprint. -/
theorem needsUpsert_eq_false_iff {sha256 : String → String} {catalog : SourceCatalog} {change : FileChange} :
    needsUpsert sha256 catalog change = false ↔ ∃ r, catalog.get change.source.documentId = some r ∧
      r.state = .active ∧ r.fingerprint = changeFingerprint sha256 change := by
  unfold needsUpsert
  cases catalog.get change.source.documentId with
  | none => simp
  | some r => simp

end SourceCatalog

end EngineeringIntelligence.Ingestion
