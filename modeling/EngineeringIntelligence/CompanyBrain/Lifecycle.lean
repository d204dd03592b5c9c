import EngineeringIntelligence.CompanyBrain.Rows
import Mathlib.Data.List.Range

namespace EngineeringIntelligence.CompanyBrain

open EngineeringIntelligence.Framework

/-! The life of one record of the store, from its first accepted write to its tombstone, and
the audit events of these writes. -/

/-- A record, in whichever of the three tables it is kept. -/
inductive RecordRef where
  | entity (tenant entityId : String)
  | evidence (tenant evidenceId : String)
  | relationship (tenant : String) (key : EdgeKey)
  deriving DecidableEq

namespace RecordRef

def tenant : RecordRef → String
  | entity tenant _ | evidence tenant _ | relationship tenant _ => tenant

/-- The type and key the record has in the audit table. -/
def recordType : RecordRef → String
  | entity .. => "entity"
  | evidence .. => "evidence"
  | relationship .. => "relationship"

def recordKey : RecordRef → String
  | entity _ entityId => entityId
  | evidence _ evidenceId => evidenceId
  | relationship _ key => auditKey key

/-- What `audit_events` selects by. -/
def address (ref : RecordRef) : String × String × String :=
  (ref.tenant, ref.recordType, ref.recordKey)

end RecordRef

/-- A row without its record. -/
def Stored.life {α : Type} (r : Stored α) : Stored Unit :=
  ⟨r.tenantId, (), r.version, r.provenance, r.retention, r.createdAt, r.updatedAt, r.deletedAt,
    r.deletionReason⟩

def StoreAnswer.life : StoreAnswer → Stored Unit
  | entity stored => stored.life
  | evidence stored => stored.life
  | relationship stored => stored.life

def Rows.at (r : Rows) : RecordRef → Option StoreAnswer
  | .entity _ entityId => (r.entity entityId).map .entity
  | .evidence _ evidenceId => (r.evidence evidenceId).map .evidence
  | .relationship _ key => (r.relationship key).map .relationship

/-- The row of a record. -/
def Store.row (s : Store) (ref : RecordRef) : Option StoreAnswer := (s.rows ref.tenant).at ref

/-- The records a write changes when it is accepted. -/
def StoreOp.writes : StoreOp → List RecordRef
  | putEntity tenant entity .. => [.entity tenant entity.entityId]
  | putEvidence tenant evidence .. =>
    [.evidence tenant evidence.evidenceId, .entity tenant evidence.evidenceId]
  | putRelationship tenant relationship .. => [.relationship tenant relationship.key]
  | deleteEntity tenant entityId .. => [.entity tenant entityId]
  | deleteEvidence tenant evidenceId .. => [.evidence tenant evidenceId, .entity tenant evidenceId]
  | deleteRelationship tenant key .. => [.relationship tenant key]

/-! ### What one write does to one record -/

/-- A record is created, updated within its retention, or tombstoned while it is not held. -/
inductive Rewrites : Option StoreAnswer → StoreAnswer → Prop
  | created {new : StoreAnswer} (version : new.life.version = 1)
      (active : new.life.isActive = true) : Rewrites none new
  | updated {old new : StoreAnswer} (mutable : Mutable new.life.retention old.life)
      (version : new.life.version = old.life.version + 1)
      (createdAt : new.life.createdAt = old.life.createdAt)
      (active : new.life.isActive = true) : Rewrites (some old) new
  | tombstoned {old new : StoreAnswer} (alive : old.life.isActive = true)
      (free : old.life.retention.legalHold = false)
      (version : new.life.version = old.life.version + 1)
      (createdAt : new.life.createdAt = old.life.createdAt)
      (retention : new.life.retention = old.life.retention)
      (dead : new.life.isActive = false) : Rewrites (some old) new

section
variable {α : Type} (wrap : Stored α → StoreAnswer) (hlife : ∀ r, (wrap r).life = r.life)

include hlife

theorem rewrites_revised {current : Option (Stored α)} {tenant : String} {record : α}
    {terms : PutTerms} {now : Int}
    (hmutable : ∀ row, current = some row → Mutable terms.retention row) :
    Rewrites (current.map wrap) (wrap (revised current tenant record terms now)) := by
  cases current with
  | none => exact .created (by rw [hlife]; rfl) (by rw [hlife]; rfl)
  | some row =>
    have hrow := hmutable row rfl
    refine .updated ?_ ?_ ?_ ?_
    · rw [hlife, hlife]
      exact hrow
    · rw [hlife, hlife]
      rfl
    · rw [hlife, hlife]
      rfl
    · rw [hlife]
      rfl

theorem rewrites_tombstone {row : Stored α} {reason : String} {time : Int}
    (hactive : row.isActive = true) (hhold : row.retention.legalHold = false) :
    Rewrites (some (wrap row)) (wrap (tombstone row reason time)) := by
  refine .tombstoned ?_ ?_ ?_ ?_ ?_ ?_
  · rw [hlife]
    exact hactive
  · rw [hlife]
    exact hhold
  all_goals simp only [hlife]; rfl

end

namespace Rows

variable (r : Rows)

theorem at_setEntity {entityId : String} {row : StoredEntity} {ref : RecordRef}
    (h : ref ≠ .entity ref.tenant entityId) : (r.setEntity entityId row).at ref = r.at ref := by
  cases ref with
  | entity tenant i =>
    have hi : i ≠ entityId := fun hi => h (by rw [hi]; rfl)
    simp only [Rows.at, setEntity, Function.update_of_ne hi]
  | evidence tenant i => rfl
  | relationship tenant k => rfl

theorem at_setEvidence {evidenceId : String} {row : StoredEvidence} {ref : RecordRef}
    (h : ref ≠ .evidence ref.tenant evidenceId) :
    (r.setEvidence evidenceId row).at ref = r.at ref := by
  cases ref with
  | entity tenant i => rfl
  | evidence tenant i =>
    have hi : i ≠ evidenceId := fun hi => h (by rw [hi]; rfl)
    simp only [Rows.at, setEvidence, Function.update_of_ne hi]
  | relationship tenant k => rfl

theorem at_setRelationship {k : EdgeKey} {row : StoredRelationship} {ref : RecordRef}
    (h : ref ≠ .relationship ref.tenant k) : (r.setRelationship k row).at ref = r.at ref := by
  cases ref with
  | entity tenant i => rfl
  | evidence tenant i => rfl
  | relationship tenant k' =>
    have hk : k' ≠ k := fun hk => h (by rw [hk]; rfl)
    simp only [Rows.at, setRelationship, Function.update_of_ne hk]

@[simp] theorem at_setEntity_self (tenant entityId : String) (row : StoredEntity) :
    (r.setEntity entityId row).at (.entity tenant entityId) = some (.entity row) := by
  simp [Rows.at, setEntity]

@[simp] theorem at_setEvidence_self (tenant evidenceId : String) (row : StoredEvidence) :
    (r.setEvidence evidenceId row).at (.evidence tenant evidenceId) = some (.evidence row) := by
  simp [Rows.at, setEvidence]

@[simp] theorem at_setRelationship_self (tenant : String) (k : EdgeKey) (row : StoredRelationship) :
    (r.setRelationship k row).at (.relationship tenant k) = some (.relationship row) := by
  simp [Rows.at, setRelationship]

end Rows

theorem StoreOp.tenant_of_writes {op : StoreOp} {ref : RecordRef} (h : ref ∈ op.writes) :
    ref.tenant = op.tenant := by
  cases op <;> simp only [writes, List.mem_cons, List.not_mem_nil, or_false] at h
  case putEvidence => obtain rfl | rfl := h <;> rfl
  case deleteEvidence => obtain rfl | rfl := h <;> rfl
  all_goals subst h; rfl

/-- An accepted write leaves the other records alone and rewrites its own. -/
theorem step_writes {s s' : Store} {op : StoreOp} {a : StoreAnswer} (h : s.step op = (s', .ok a)) :
    (∀ ref, ref ∉ op.writes → s'.row ref = s.row ref) ∧
      ∀ ref ∈ op.writes, ∃ new, s'.row ref = some new ∧ Rewrites (s.row ref) new := by
  obtain ⟨hother, hwrote⟩ := step_rows h
  have hframe : ∀ ref, (ref.tenant = op.tenant → (s'.rows op.tenant).at ref = (s.rows op.tenant).at ref) →
      s'.row ref = s.row ref := by
    intro ref hsame
    unfold Store.row
    by_cases ht : ref.tenant = op.tenant
    · rw [ht]
      exact hsame ht
    · rw [hother _ ht]
  cases op with
  | putEntity tenant entity terms now =>
    obtain ⟨⟨-, hmutable⟩, hrows⟩ := hwrote
    simp only [StoreOp.tenant, StoreOp.writes, List.mem_singleton] at *
    constructor
    · intro ref href
      refine hframe ref fun ht => ?_
      rw [hrows]
      exact Rows.at_setEntity _ (by rw [ht]; exact href)
    · rintro ref rfl
      refine ⟨.entity (revised ((s.rows tenant).entity entity.entityId) tenant entity terms now), ?_,
        rewrites_revised .entity (fun _ => rfl) hmutable⟩
      simp only [Store.row, RecordRef.tenant, hrows, Rows.at_setEntity_self]
  | putEvidence tenant evidence terms now entityNow =>
    obtain ⟨⟨-, hmutable⟩, hmutable', entity, -, hrows⟩ := hwrote
    simp only [StoreOp.tenant, StoreOp.writes, List.mem_cons, List.not_mem_nil, or_false] at *
    constructor
    · intro ref href
      push Not at href
      refine hframe ref fun ht => ?_
      rw [hrows, Rows.at_setEntity _ (by rw [ht]; exact href.2)]
      exact Rows.at_setEvidence _ (by rw [ht]; exact href.1)
    · intro ref href
      obtain rfl | rfl := href
      · refine ⟨.evidence (revised ((s.rows tenant).evidence evidence.evidenceId) tenant evidence terms now),
          ?_, rewrites_revised .evidence (fun _ => rfl) hmutable⟩
        simp only [Store.row, RecordRef.tenant, hrows]
        rw [Rows.at_setEntity _ (by simp), Rows.at_setEvidence_self]
      · refine ⟨.entity (revised ((s.rows tenant).entity evidence.evidenceId) tenant entity terms
          entityNow), ?_, rewrites_revised .entity (fun _ => rfl) hmutable'⟩
        simp only [Store.row, RecordRef.tenant, hrows, Rows.at_setEntity_self]
  | putRelationship tenant relationship terms now =>
    obtain ⟨-, ⟨-, hmutable⟩, hrows⟩ := hwrote
    simp only [StoreOp.tenant, StoreOp.writes, List.mem_singleton] at *
    constructor
    · intro ref href
      refine hframe ref fun ht => ?_
      rw [hrows]
      exact Rows.at_setRelationship _ (by rw [ht]; exact href)
    · rintro ref rfl
      refine ⟨.relationship (revised ((s.rows tenant).relationship relationship.key) tenant relationship
        terms now), ?_, rewrites_revised .relationship (fun _ => rfl) hmutable⟩
      simp only [Store.row, RecordRef.tenant, hrows, Rows.at_setRelationship_self]
  | deleteEntity tenant entityId terms now =>
    obtain ⟨row, time, hrow, ⟨-, hactive, hhold⟩, -, hrows⟩ := hwrote
    simp only [StoreOp.tenant, StoreOp.writes, List.mem_singleton] at *
    constructor
    · intro ref href
      refine hframe ref fun ht => ?_
      rw [hrows]
      exact Rows.at_setEntity _ (by rw [ht]; exact href)
    · rintro ref rfl
      refine ⟨.entity (tombstone row terms.reason time), ?_, ?_⟩
      · simp only [Store.row, RecordRef.tenant, hrows, Rows.at_setEntity_self]
      · simp only [Store.row, RecordRef.tenant, Rows.at, hrow, Option.map_some]
        exact rewrites_tombstone .entity (fun _ => rfl) hactive hhold
  | deleteEvidence tenant evidenceId terms now =>
    obtain ⟨row, structural, time, hrow, ⟨-, hactive, hhold⟩, hentity, -, hactive', hhold', hrows⟩ :=
      hwrote
    simp only [StoreOp.tenant, StoreOp.writes, List.mem_cons, List.not_mem_nil, or_false] at *
    constructor
    · intro ref href
      push Not at href
      refine hframe ref fun ht => ?_
      rw [hrows, Rows.at_setEntity _ (by rw [ht]; exact href.2)]
      exact Rows.at_setEvidence _ (by rw [ht]; exact href.1)
    · intro ref href
      obtain rfl | rfl := href
      · refine ⟨.evidence (tombstone row terms.reason time), ?_, ?_⟩
        · simp only [Store.row, RecordRef.tenant, hrows]
          rw [Rows.at_setEntity _ (by simp), Rows.at_setEvidence_self]
        · simp only [Store.row, RecordRef.tenant, Rows.at, hrow, Option.map_some]
          exact rewrites_tombstone .evidence (fun _ => rfl) hactive hhold
      · refine ⟨.entity (tombstone structural terms.reason time), ?_, ?_⟩
        · simp only [Store.row, RecordRef.tenant, hrows, Rows.at_setEntity_self]
        · simp only [Store.row, RecordRef.tenant, Rows.at, hentity, Option.map_some]
          exact rewrites_tombstone .entity (fun _ => rfl) hactive' hhold'
  | deleteRelationship tenant k terms now =>
    obtain ⟨row, time, hrow, ⟨-, hactive, hhold⟩, hrows⟩ := hwrote
    simp only [StoreOp.tenant, StoreOp.writes, List.mem_singleton] at *
    constructor
    · intro ref href
      refine hframe ref fun ht => ?_
      rw [hrows]
      exact Rows.at_setRelationship _ (by rw [ht]; exact href)
    · rintro ref rfl
      refine ⟨.relationship (tombstone row terms.reason time), ?_, ?_⟩
      · simp only [Store.row, RecordRef.tenant, hrows, Rows.at_setRelationship_self]
      · simp only [Store.row, RecordRef.tenant, Rows.at, hrow, Option.map_some]
        exact rewrites_tombstone .relationship (fun _ => rfl) hactive hhold

/-! ### What a run does to one record -/

/-- How many of the accepted writes of a run went to a record. -/
def writesTo (ref : RecordRef) (h : List (StoreOp × Except BrainError StoreAnswer)) : Nat :=
  h.countP fun x => x.2.isOk && decide (ref ∈ x.1.writes)

/-- What later writes leave standing of a record. -/
structure Later (r r' : StoreAnswer) : Prop where
  final : r.life.isActive = false → r' = r
  held : r.life.retention.legalHold = true →
    r'.life.retention.legalHold = true ∧ r'.life.isActive = r.life.isActive
  retained : ∀ t ∈ r.life.retention.retainUntil, ∃ t' ∈ r'.life.retention.retainUntil, t ≤ t'
  createdAt : r'.life.createdAt = r.life.createdAt

theorem Later.refl (r : StoreAnswer) : Later r r :=
  ⟨fun _ => rfl, fun h => ⟨h, rfl⟩, fun t ht => ⟨t, ht, le_refl t⟩, rfl⟩

theorem Later.trans {a b c : StoreAnswer} (hab : Later a b) (hbc : Later b c) : Later a c where
  final h := by
    have hb := hab.final h
    subst hb
    exact hbc.final h
  held h := by
    obtain ⟨hb, hactive⟩ := hab.held h
    obtain ⟨hc, hactive'⟩ := hbc.held hb
    exact ⟨hc, hactive'.trans hactive⟩
  retained t ht := by
    obtain ⟨t', ht', hle⟩ := hab.retained t ht
    obtain ⟨t'', ht'', hle'⟩ := hbc.retained t' ht'
    exact ⟨t'', ht'', le_trans hle hle'⟩
  createdAt := hbc.createdAt.trans hab.createdAt

theorem Rewrites.later {old new : StoreAnswer} (h : Rewrites (some old) new) : Later old new := by
  cases h with
  | updated hmutable hversion hcreated hactive =>
    obtain ⟨hold, hheld, hretained⟩ := hmutable
    refine ⟨fun hdead => ?_, fun h => ⟨hheld h, hactive.trans hold.symm⟩, hretained, hcreated⟩
    have halive : old.life.isActive = true := hold
    rw [halive] at hdead
    cases hdead
  | tombstoned halive hfree hversion hcreated hretention hdead =>
    refine ⟨fun h => ?_, fun h => ?_, fun t ht => ⟨t, ?_, le_refl t⟩, hcreated⟩
    · rw [halive] at h
      cases h
    · rw [hfree] at h
      cases h
    · rw [hretention]
      exact ht

theorem Rewrites.version {old : Option StoreAnswer} {new : StoreAnswer} (h : Rewrites old new) :
    new.life.version = old.elim 0 (·.life.version) + 1 := by
  cases h with
  | created hversion => exact hversion
  | updated _ hversion => exact hversion
  | tombstoned _ _ hversion => exact hversion

section
variable {s : Store} {op : StoreOp} {ref : RecordRef}

/-- A write that is refused, or is to other records, leaves the row. -/
theorem row_kept (h : ¬ ((s.step op).2.isOk = true ∧ ref ∈ op.writes)) :
    (s.step op).1.row ref = s.row ref := by
  generalize hstep : s.step op = out at h ⊢
  obtain ⟨s', answer⟩ := out
  cases answer with
  | error x => rw [Store.step_error hstep]
  | ok a => exact (step_writes hstep).1 ref fun hmem => h ⟨rfl, hmem⟩

theorem row_rewritten (h : (s.step op).2.isOk = true ∧ ref ∈ op.writes) :
    ∃ new, (s.step op).1.row ref = some new ∧ Rewrites (s.row ref) new := by
  generalize hstep : s.step op = out at h ⊢
  obtain ⟨s', answer⟩ := out
  cases answer with
  | error x => exact nomatch h.1
  | ok a => exact (step_writes hstep).2 ref h.2

theorem later_step {r : StoreAnswer} (hr : s.row ref = some r) (op : StoreOp) :
    ∃ r', (s.step op).1.row ref = some r' ∧ Later r r' := by
  by_cases h : (s.step op).2.isOk = true ∧ ref ∈ op.writes
  · obtain ⟨new, hnew, hrewrites⟩ := row_rewritten h
    rw [hr] at hrewrites
    exact ⟨new, hnew, hrewrites.later⟩
  · exact ⟨r, (row_kept h).trans hr, Later.refl r⟩

theorem later_run {r : StoreAnswer} (hr : s.row ref = some r) (ops : List StoreOp) :
    ∃ r', (runState Store.step s ops).row ref = some r' ∧ Later r r' := by
  induction ops generalizing s r with
  | nil => exact ⟨r, hr, Later.refl r⟩
  | cons op ops ih =>
    obtain ⟨mid, hmid, hlater⟩ := later_step hr op
    obtain ⟨r', hr', hlater'⟩ := ih hmid
    exact ⟨r', hr', hlater.trans hlater'⟩

theorem version_run (s : Store) (ref : RecordRef) (ops : List StoreOp) :
    ((runState Store.step s ops).row ref).elim 0 (·.life.version) =
      (s.row ref).elim 0 (·.life.version) + writesTo ref (history Store.step s ops) := by
  induction ops generalizing s with
  | nil => simp [writesTo]
  | cons op ops ih =>
    rw [runState_cons, history_cons, ih, writesTo, writesTo, List.countP_cons]
    by_cases h : (s.step op).2.isOk = true ∧ ref ∈ op.writes
    · obtain ⟨new, hnew, hrewrites⟩ := row_rewritten h
      have hversion := hrewrites.version
      simp only [hnew, Option.elim_some, hversion, h.1, h.2, decide_true, Bool.and_self, if_true]
      push_cast
      omega
    · have hcond : ((s.step op).2.isOk && decide (ref ∈ op.writes)) = false := by
        simpa using h
      simp [row_kept h, hcond]

end

/-- The version of a record counts the accepted writes to it; whatever happens next, its
tombstone is final, it is not tombstoned while held, and neither its hold, its retention nor
its creation time is taken back. A call that raises changes nothing. -/
theorem records_keep_their_terms (ref : RecordRef) (ops more : List StoreOp) :
    ((runState Store.step Store.empty ops).row ref).elim 0 (·.life.version) =
        writesTo ref (history Store.step Store.empty ops) ∧
      (∀ r, (runState Store.step Store.empty ops).row ref = some r →
        ∃ r', (runState Store.step Store.empty (ops ++ more)).row ref = some r' ∧ Later r r') ∧
      ∀ op s' x, (runState Store.step Store.empty ops).step op = (s', .error x) →
        s' = runState Store.step Store.empty ops := by
  refine ⟨?_, fun r hr => ?_, fun op s' x h => Store.step_error h⟩
  · have hempty : (Store.empty.row ref).elim 0 (·.life.version) = (0 : Int) := by
      cases ref <;> rfl
    rw [version_run, hempty, Int.zero_add]
  · rw [runState_append]
    exact later_run hr more

end EngineeringIntelligence.CompanyBrain
