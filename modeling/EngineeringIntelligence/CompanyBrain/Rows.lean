import EngineeringIntelligence.CompanyBrain.StoreLaws
import Mathlib.Logic.Function.Basic

namespace EngineeringIntelligence.CompanyBrain

open EngineeringIntelligence.Framework

/-! The rows one tenant sees, and what an accepted write of the store makes of them. -/

/-- The rows of one tenant, by identifier. -/
structure Rows where
  entity : String → Option StoredEntity
  evidence : String → Option StoredEvidence
  relationship : EdgeKey → Option StoredRelationship

def Store.rows (s : Store) (tenant : String) : Rows :=
  ⟨s.entityRow tenant, s.evidenceRow tenant, s.relationshipRow tenant⟩

namespace Rows

def setEntity (r : Rows) (entityId : String) (row : StoredEntity) : Rows :=
  { r with entity := Function.update r.entity entityId (some row) }

def setEvidence (r : Rows) (evidenceId : String) (row : StoredEvidence) : Rows :=
  { r with evidence := Function.update r.evidence evidenceId (some row) }

def setRelationship (r : Rows) (k : EdgeKey) (row : StoredRelationship) : Rows :=
  { r with relationship := Function.update r.relationship k (some row) }

/-- The endpoints and the evidence of a relationship are active. -/
def Linkable (r : Rows) (relationship : BrainRelationship) : Prop :=
  Live (r.entity relationship.sourceId) ∧ Live (r.entity relationship.targetId) ∧
    ∀ v ∈ relationship.evidenceIds, Live (r.evidence v)

/-- The relationships `list_relationships` shows: active, between active entities. -/
def Listed (r : Rows) (k : EdgeKey) (row : StoredRelationship) : Prop :=
  r.relationship k = some row ∧ row.isActive = true ∧ Live (r.entity k.sourceId) ∧
    Live (r.entity k.targetId)

end Rows

/-- The tenant a write is for. -/
def StoreOp.tenant : StoreOp → String
  | putEntity tenant .. | putEvidence tenant .. | putRelationship tenant .. => tenant
  | deleteEntity tenant .. | deleteEvidence tenant .. | deleteRelationship tenant .. => tenant

section
variable {α : Type}

/-- A row a `put_*` may write over: the version is the expected one and the retention stands. -/
def Writable (terms : PutTerms) (current : Option (Stored α)) : Prop :=
  (∀ n, terms.expectedVersion = some n → current.map (·.version) = some n) ∧
    ∀ row, current = some row → Mutable terms.retention row

/-- A row a `delete_*` may tombstone. -/
def Deletable (terms : DeleteTerms) (row : Stored α) : Prop :=
  row.version = terms.expectedVersion ∧ row.isActive = true ∧ row.retention.legalHold = false

end

/-- What an accepted write does to the rows of its tenant. -/
def Wrote (r r' : Rows) : StoreOp → Prop
  | .putEntity tenant entity terms now =>
    Writable terms (r.entity entity.entityId) ∧
      r' = r.setEntity entity.entityId (revised (r.entity entity.entityId) tenant entity terms now)
  | .putEvidence tenant evidence terms now entityNow =>
    Writable terms (r.evidence evidence.evidenceId) ∧
      (∀ row, r.entity evidence.evidenceId = some row → Mutable terms.retention row) ∧
      ∃ entity, evidenceEntity evidence = .ok entity ∧
        r' = (r.setEvidence evidence.evidenceId
          (revised (r.evidence evidence.evidenceId) tenant evidence terms now)).setEntity
          evidence.evidenceId (revised (r.entity evidence.evidenceId) tenant entity terms entityNow)
  | .putRelationship tenant relationship terms now =>
    r.Linkable relationship ∧ Writable terms (r.relationship relationship.key) ∧
      r' = r.setRelationship relationship.key
        (revised (r.relationship relationship.key) tenant relationship terms now)
  | .deleteEntity _ entityId terms _ => ∃ row time, r.entity entityId = some row ∧
      Deletable terms row ∧ row.record.kind ≠ .evidence ∧
      r' = r.setEntity entityId (tombstone row terms.reason time)
  | .deleteEvidence _ evidenceId terms _ => ∃ row structural time,
      r.evidence evidenceId = some row ∧ Deletable terms row ∧
      r.entity evidenceId = some structural ∧ structural.record.kind = .evidence ∧
      structural.isActive = true ∧ structural.retention.legalHold = false ∧
      r' = (r.setEvidence evidenceId (tombstone row terms.reason time)).setEntity evidenceId
        (tombstone structural terms.reason time)
  | .deleteRelationship _ k terms _ => ∃ row time, r.relationship k = some row ∧
      Deletable terms row ∧ r' = r.setRelationship k (tombstone row terms.reason time)

section
variable {s : Store}

theorem entityRow_key {tenant entityId : String} {row : StoredEntity}
    (h : s.entityRow tenant entityId = some row) : row.rowKey = (tenant, entityId) :=
  Table.key_of_get h

theorem evidenceRow_key {tenant evidenceId : String} {row : StoredEvidence}
    (h : s.evidenceRow tenant evidenceId = some row) : row.rowKey = (tenant, evidenceId) :=
  Table.key_of_get h

theorem relationshipRow_key {tenant : String} {k : EdgeKey} {row : StoredRelationship}
    (h : s.relationshipRow tenant k = some row) : row.rowKey = (tenant, k) :=
  Table.key_of_get h

theorem rows_writeEntity (row : StoredEntity) {tenant entityId : String}
    (hkey : row.rowKey = (tenant, entityId)) :
    (s.writeEntity row).rows tenant = (s.rows tenant).setEntity entityId row ∧
      ∀ t, t ≠ tenant → (s.writeEntity row).rows t = s.rows t := by
  constructor
  · refine congrArg (Rows.mk · _ _) (funext fun i => ?_)
    rw [Store.entityRow_writeEntity, hkey]
    by_cases hi : i = entityId
    · simp [hi]
    · simp [hi, Store.rows]
  · intro t ht
    refine congrArg (Rows.mk · _ _) (funext fun i => ?_)
    rw [Store.entityRow_writeEntity, hkey, if_neg (fun h => ht (Prod.mk.inj h).1)]

theorem rows_writeEvidence (row : StoredEvidence) {tenant evidenceId : String}
    (hkey : row.rowKey = (tenant, evidenceId)) :
    (s.writeEvidence row).rows tenant = (s.rows tenant).setEvidence evidenceId row ∧
      ∀ t, t ≠ tenant → (s.writeEvidence row).rows t = s.rows t := by
  constructor
  · refine congrArg (Rows.mk _ · _) (funext fun i => ?_)
    rw [Store.evidenceRow_writeEvidence, hkey]
    by_cases hi : i = evidenceId
    · simp [hi]
    · simp [hi, Store.rows]
  · intro t ht
    refine congrArg (Rows.mk _ · _) (funext fun i => ?_)
    rw [Store.evidenceRow_writeEvidence, hkey, if_neg (fun h => ht (Prod.mk.inj h).1)]

theorem rows_writeRelationship (row : StoredRelationship) {tenant : String} {k : EdgeKey}
    (hkey : row.rowKey = (tenant, k)) :
    (s.writeRelationship row).rows tenant = (s.rows tenant).setRelationship k row ∧
      ∀ t, t ≠ tenant → (s.writeRelationship row).rows t = s.rows t := by
  constructor
  · refine congrArg (Rows.mk _ _ ·) (funext fun i => ?_)
    rw [Store.relationshipRow_writeRelationship, hkey]
    by_cases hi : i = k
    · simp [hi]
    · simp [hi, Store.rows]
  · intro t ht
    refine congrArg (Rows.mk _ _ ·) (funext fun i => ?_)
    rw [Store.relationshipRow_writeRelationship, hkey, if_neg (fun h => ht (Prod.mk.inj h).1)]

end

/-- The inversion lemma: an accepted write leaves every other tenant's rows alone and does to
its own what `Wrote` says. -/
theorem step_rows {s s' : Store} {op : StoreOp} {a : StoreAnswer} (h : s.step op = (s', .ok a)) :
    (∀ t, t ≠ op.tenant → s'.rows t = s.rows t) ∧
      Wrote (s.rows op.tenant) (s'.rows op.tenant) op := by
  cases op with
  | putEntity tenant entity terms now =>
    obtain ⟨stored, hstored, -⟩ := Store.answered h
    obtain ⟨-, hrevise, rfl⟩ := Store.putEntity_ok_iff.mp hstored
    obtain ⟨hexpected, hmutable, rfl⟩ := revise_ok_iff.mp hrevise
    obtain ⟨hown, hother⟩ := rows_writeEntity (s := s)
      (revised (s.entityRow tenant entity.entityId) tenant entity terms now)
      (show _ = (tenant, entity.entityId) from rfl)
    exact ⟨hother, ⟨hexpected, hmutable⟩, hown⟩
  | putEvidence tenant evidence terms now entityNow =>
    obtain ⟨stored, hstored, -⟩ := Store.answered h
    obtain ⟨-, hrevise, entity, structural, hentity, hstructural, rfl⟩ :=
      Store.putEvidence_ok_iff.mp hstored
    obtain ⟨hexpected, hmutable, rfl⟩ := revise_ok_iff.mp hrevise
    obtain ⟨-, hmutable', rfl⟩ := revise_ok_iff.mp hstructural
    have hid := (BrainEntity.make_eq_ok hentity).1
    obtain ⟨hown, hother⟩ := rows_writeEvidence (s := s)
      (revised (s.evidenceRow tenant evidence.evidenceId) tenant evidence terms now)
      (show _ = (tenant, evidence.evidenceId) from rfl)
    obtain ⟨hown', hother'⟩ := rows_writeEntity
      (s := s.writeEvidence
        (revised (s.evidenceRow tenant evidence.evidenceId) tenant evidence terms now))
      (revised (s.entityRow tenant evidence.evidenceId) tenant entity terms entityNow)
      (show _ = (tenant, evidence.evidenceId) by rw [← hid]; rfl)
    refine ⟨fun t ht => (hother' t ht).trans (hother t ht), ⟨hexpected, hmutable⟩, hmutable', entity,
      hentity, ?_⟩
    exact hown'.trans (by rw [hown]; rfl)
  | putRelationship tenant relationship terms now =>
    obtain ⟨stored, hstored, -⟩ := Store.answered h
    obtain ⟨-, hlinkable, hrevise, rfl⟩ := Store.putRelationship_ok_iff.mp hstored
    obtain ⟨hexpected, hmutable, rfl⟩ := revise_ok_iff.mp hrevise
    obtain ⟨hown, hother⟩ := rows_writeRelationship (s := s)
      (revised (s.relationshipRow tenant relationship.key) tenant relationship terms now)
      (show _ = (tenant, relationship.key) from rfl)
    exact ⟨hother, hlinkable, ⟨hexpected, hmutable⟩, hown⟩
  | deleteEntity tenant entityId terms now =>
    obtain ⟨stored, hstored, -⟩ := Store.answered h
    obtain ⟨-, time, current, -, hcurrent, rfl, rfl⟩ := Store.deleteEntity_ok_iff.mp hstored
    obtain ⟨hrow, hversion, hactive, hguard, hhold⟩ := deletable_ok_iff.mp hcurrent
    have hkey := entityRow_key hrow
    obtain ⟨hown, hother⟩ := rows_writeEntity (s := s) (tombstone current terms.reason time) hkey
    refine ⟨hother, current, time, hrow, ⟨hversion, hactive, hhold⟩, ?_, hown⟩
    simpa [Store.notEvidence] using hguard
  | deleteEvidence tenant evidenceId terms now =>
    obtain ⟨stored, hstored, -⟩ := Store.answered h
    obtain ⟨-, time, current, structural, -, hcurrent, hstructural, rfl, rfl⟩ :=
      Store.deleteEvidence_ok_iff.mp hstored
    obtain ⟨hrow, hversion, hactive, -, hhold⟩ := deletable_ok_iff.mp hcurrent
    obtain ⟨hentity, hkind, hactive', hhold'⟩ := Store.structuralEntity_ok_iff.mp hstructural
    have hkey := evidenceRow_key hrow
    have hkey' := entityRow_key hentity
    obtain ⟨hown, hother⟩ := rows_writeEvidence (s := s) (tombstone current terms.reason time) hkey
    obtain ⟨hown', hother'⟩ := rows_writeEntity
      (s := s.writeEvidence (tombstone current terms.reason time))
      (tombstone structural terms.reason time) hkey'
    refine ⟨fun t ht => (hother' t ht).trans (hother t ht), current, structural, time, hrow,
      ⟨hversion, hactive, hhold⟩, hentity, hkind, hactive', hhold', ?_⟩
    exact hown'.trans (by rw [hown]; rfl)
  | deleteRelationship tenant k terms now =>
    obtain ⟨stored, hstored, -⟩ := Store.answered h
    obtain ⟨-, time, current, -, hcurrent, rfl, rfl⟩ := Store.deleteRelationship_ok_iff.mp hstored
    obtain ⟨hrow, hversion, hactive, -, hhold⟩ := deletable_ok_iff.mp hcurrent
    have hkey := relationshipRow_key hrow
    obtain ⟨hown, hother⟩ := rows_writeRelationship (s := s) (tombstone current terms.reason time) hkey
    exact ⟨hother, current, time, hrow, ⟨hversion, hactive, hhold⟩, hown⟩

/-- The arguments of a write pass their checks. -/
def StoreOp.Valid : StoreOp → Prop
  | putEntity tenant .. | putEvidence tenant .. | putRelationship tenant .. =>
    required 200 tenant = true
  | deleteEntity tenant entityId terms now =>
    DeleteArguments tenant [entityId] terms ∧ ∃ time, deletionTime terms.deletedAt now = .ok time
  | deleteEvidence tenant evidenceId terms now =>
    DeleteArguments tenant [evidenceId] terms ∧ ∃ time, deletionTime terms.deletedAt now = .ok time
  | deleteRelationship tenant k terms now =>
    DeleteArguments tenant [k.sourceId, k.targetId] terms ∧
      ∃ time, deletionTime terms.deletedAt now = .ok time

/-- A write whose guards hold of the rows is accepted. -/
theorem step_accepts {s : Store} {op : StoreOp} {r' : Rows} (hvalid : op.Valid)
    (h : Wrote (s.rows op.tenant) r' op) : ∃ s' a, s.step op = (s', .ok a) := by
  have hanswer : ∀ {α : Type} {f : α → StoreAnswer} {out : Store × Except BrainError α} {s' : Store}
      {a : α}, out = (s', .ok a) → ∃ s'' b, out.map id (Except.map f) = (s'', .ok b) := by
    rintro α f out s' a rfl
    exact ⟨s', f a, rfl⟩
  cases op with
  | putEntity tenant entity terms now =>
    obtain ⟨hwritable, -⟩ := h
    exact hanswer (Store.putEntity_ok_iff.mpr
      ⟨hvalid, revise_ok_iff.mpr ⟨hwritable.1, hwritable.2, rfl⟩, rfl⟩)
  | putEvidence tenant evidence terms now entityNow =>
    obtain ⟨hwritable, hmutable, entity, hentity, -⟩ := h
    exact hanswer (Store.putEvidence_ok_iff.mpr
      ⟨hvalid, revise_ok_iff.mpr ⟨hwritable.1, hwritable.2, rfl⟩, entity, _, hentity,
        revise_ok_iff.mpr ⟨fun _ hn => hn, hmutable, rfl⟩, rfl⟩)
  | putRelationship tenant relationship terms now =>
    obtain ⟨hlinkable, hwritable, -⟩ := h
    exact hanswer (Store.putRelationship_ok_iff.mpr
      ⟨hvalid, hlinkable, revise_ok_iff.mpr ⟨hwritable.1, hwritable.2, rfl⟩, rfl⟩)
  | deleteEntity tenant entityId terms now =>
    obtain ⟨row, -, hrow, ⟨hversion, hactive, hhold⟩, hkind, -⟩ := h
    obtain ⟨hargs, time, htime⟩ := hvalid
    exact hanswer (Store.deleteEntity_ok_iff.mpr ⟨hargs, time, row, htime,
      deletable_ok_iff.mpr ⟨hrow, hversion, hactive, if_neg hkind, hhold⟩, rfl, rfl⟩)
  | deleteEvidence tenant evidenceId terms now =>
    obtain ⟨row, structural, -, hrow, ⟨hversion, hactive, hhold⟩, hentity, hkind, hactive', hhold', -⟩ :=
      h
    obtain ⟨hargs, time, htime⟩ := hvalid
    exact hanswer (Store.deleteEvidence_ok_iff.mpr ⟨hargs, time, row, structural, htime,
      deletable_ok_iff.mpr ⟨hrow, hversion, hactive, rfl, hhold⟩,
      Store.structuralEntity_ok_iff.mpr ⟨hentity, hkind, hactive', hhold'⟩, rfl, rfl⟩)
  | deleteRelationship tenant k terms now =>
    obtain ⟨row, -, hrow, ⟨hversion, hactive, hhold⟩, -⟩ := h
    obtain ⟨hargs, time, htime⟩ := hvalid
    exact hanswer (Store.deleteRelationship_ok_iff.mpr ⟨hargs, time, row, htime,
      deletable_ok_iff.mpr ⟨hrow, hversion, hactive, rfl, hhold⟩, rfl, rfl⟩)

/-- An invariant of the rows of every tenant that each accepted write keeps holds in every
state of a run whose writes meet the condition. -/
theorem run_rows {Inv : Rows → Prop} {ok : Store → StoreOp → Prop}
    (hwrote : ∀ s op r', Inv (s.rows op.tenant) → ok s op → Wrote (s.rows op.tenant) r' op → Inv r')
    (hempty : ∀ t, Inv (Store.empty.rows t)) {ops : List StoreOp}
    (hok : Admissible Store.step ok Store.empty ops) (t : String) :
    Inv ((runState Store.step Store.empty ops).rows t) := by
  refine run_guarded Store.step (P := fun s => ∀ t, Inv (s.rows t)) ?_ hempty hok t
  intro s op hinv hop t
  generalize hstep : s.step op = out
  obtain ⟨s', answer⟩ := out
  cases answer with
  | error x =>
    rw [Store.step_error hstep]
    exact hinv t
  | ok a =>
    obtain ⟨hother, hwrote'⟩ := step_rows hstep
    by_cases ht : t = op.tenant
    · rw [ht]
      exact hwrote s op _ (hinv op.tenant) hop hwrote'
    · rw [hother t ht]
      exact hinv t

end EngineeringIntelligence.CompanyBrain
