import EngineeringIntelligence.CompanyBrain.Store
import EngineeringIntelligence.Framework.Run

namespace EngineeringIntelligence.CompanyBrain

open EngineeringIntelligence.Framework

/-! What each write of the store does to the rows, once for all that is proved about it. -/

theorem argumentProblem_eq_none {checks : List (Bool × String)} :
    argumentProblem checks = none ↔ ∀ c ∈ checks, c.1 = true := by
  simp [argumentProblem, invalid_eq_none]

theorem reading_eq_ok {α : Type} {checks : List (Bool × String)} {answer a : α} :
    reading checks answer = .ok a ↔ (∀ c ∈ checks, c.1 = true) ∧ a = answer := by
  unfold reading
  split
  · next h =>
    refine iff_of_false nofun fun hok => ?_
    rw [argumentProblem_eq_none.mpr hok.1] at h
    cases h
  · next h =>
    rw [and_iff_right (argumentProblem_eq_none.mp h), Except.ok.injEq]
    exact eq_comm

theorem putting_ok_iff {α : Type} {tenant : String} {body : Store → Store × Except BrainError α}
    {s s' : Store} {a : α} :
    putting tenant body s = (s', .ok a) ↔ required 200 tenant = true ∧ body s = (s', .ok a) := by
  unfold putting
  split
  · next h =>
    refine iff_of_false nofun fun hok => ?_
    rw [argumentProblem_eq_none.mpr (by simpa using hok.1)] at h
    cases h
  · next h =>
    have htenant : required 200 tenant = true := by simpa using argumentProblem_eq_none.mp h
    simp [htenant, transaction_ok_iff]

theorem putting_error {α : Type} {tenant : String} {body : Store → Store × Except BrainError α}
    {s s' : Store} {x : BrainError} (h : putting tenant body s = (s', .error x)) : s' = s := by
  unfold putting at h
  split at h
  · exact (Prod.mk.inj h).1.symm
  · exact transaction_error h

/-- The arguments of a deletion pass their checks. -/
def DeleteArguments (tenant : String) (keys : List String) (terms : DeleteTerms) : Prop :=
  required 200 tenant = true ∧ (∀ k ∈ keys, required 500 k = true) ∧
    required 500 terms.reason = true

theorem deleting_ok_iff {α : Type} {tenant : String} {keys : List (Bool × String)}
    {terms : DeleteTerms} {now : Int} {body : Int → Store → Store × Except BrainError α}
    {s s' : Store} {a : α} :
    deleting tenant keys terms now body s = (s', .ok a) ↔
      (required 200 tenant = true ∧ (∀ c ∈ keys, c.1 = true) ∧ required 500 terms.reason = true) ∧
        ∃ time, deletionTime terms.deletedAt now = .ok time ∧ body time s = (s', .ok a) := by
  unfold deleting
  split
  · next h =>
    refine iff_of_false nofun fun hok => ?_
    rw [argumentProblem_eq_none.mpr (by simpa [or_imp, forall_and] using hok.1)] at h
    cases h
  · next h =>
    have hargs : required 200 tenant = true ∧ (∀ c ∈ keys, c.1 = true) ∧
        required 500 terms.reason = true := by
      simpa [or_imp, forall_and] using argumentProblem_eq_none.mp h
    rw [and_iff_right hargs]
    split
    · next htime => simp [htime]
    · next htime => simp [htime, transaction_ok_iff]

theorem deleting_error {α : Type} {tenant : String} {keys : List (Bool × String)}
    {terms : DeleteTerms} {now : Int} {body : Int → Store → Store × Except BrainError α}
    {s s' : Store} {x : BrainError}
    (h : deleting tenant keys terms now body s = (s', .error x)) : s' = s := by
  unfold deleting at h
  split at h
  · exact (Prod.mk.inj h).1.symm
  · split at h
    · exact (Prod.mk.inj h).1.symm
    · exact transaction_error h

theorem assertExpected_ok_iff {current expected : Option Int} :
    assertExpected current expected = .ok () ↔ ∀ n, expected = some n → current = some n := by
  unfold assertExpected
  split
  · next h =>
    cases expected with
    | none => simp at h
    | some n => simpa using h
  · next h =>
    cases expected with
    | none => simp
    | some n => simpa using h

section
variable {α : Type}

/-- A record the store lets an ordinary update with this retention write over. -/
def Mutable (requested : RetentionPolicy) (row : Stored α) : Prop :=
  row.isActive = true ∧ (row.retention.legalHold = true → requested.legalHold = true) ∧
    ∀ t ∈ row.retention.retainUntil, ∃ t' ∈ requested.retainUntil, t ≤ t'

theorem assertMutable_ok_iff {current : Option (Stored α)} {requested : RetentionPolicy} :
    assertMutable current requested = .ok () ↔ ∀ row, current = some row → Mutable requested row := by
  unfold assertMutable
  split
  · simp
  · next row =>
    have hrow : (∀ r, some row = some r → Mutable requested r) ↔ Mutable requested row := by simp
    rw [hrow, ite_error_eq_ok_iff, ite_error_eq_ok_iff, ite_error_eq_ok_iff]
    unfold Mutable Stored.isActive
    refine and_congr (by simp) (and_congr (by simp) ?_)
    cases row.retention.retainUntil with
    | none => simp
    | some t => cases requested.retainUntil <;> simp

/-- The row an accepted `put_*` leaves. -/
def revised (current : Option (Stored α)) (tenant : String) (record : α) (terms : PutTerms)
    (now : Int) : Stored α :=
  ⟨tenant, record, current.elim 1 (·.version + 1), terms.provenance, terms.retention,
    current.elim now (·.createdAt), now, none, none⟩

theorem revise_ok_iff {current : Option (Stored α)} {tenant : String} {record : α} {terms : PutTerms}
    {now : Int} {stored : Stored α} :
    revise current tenant record terms now = .ok stored ↔
      (∀ n, terms.expectedVersion = some n → current.map (·.version) = some n) ∧
        (∀ row, current = some row → Mutable terms.retention row) ∧
        stored = revised current tenant record terms now := by
  unfold revise
  rw [← assertExpected_ok_iff, ← assertMutable_ok_iff]
  split
  · next h => simp [h]
  · next h =>
    split
    · next hmutable => simp [hmutable]
    · next hmutable => simp [h, hmutable, revised, eq_comm]

theorem putRow_ok_iff {read : Store → Option (Stored α)} {write : Store → Stored α → Store}
    {recordType recordKey tenant : String} {record : α} {terms : PutTerms} {now : Int}
    {s s' : Store} {stored : Stored α} :
    putRow read write recordType recordKey tenant record terms now s = (s', .ok stored) ↔
      revise (read s) tenant record terms now = .ok stored ∧
        s' = (write s stored).appendEvent recordType recordKey
          (if (read s).isNone then "created" else "updated") stored := by
  unfold putRow
  split
  · next h => simp [h]
  · next h =>
    simp only [h, Prod.mk.injEq, Except.ok.injEq]
    constructor
    · rintro ⟨rfl, rfl⟩
      exact ⟨rfl, rfl⟩
    · rintro ⟨rfl, rfl⟩
      exact ⟨rfl, rfl⟩

theorem deletable_ok_iff {noun : String} {guard : α → Option String} {current : Option (Stored α)}
    {expected : Int} {row : Stored α} :
    deletable noun guard current expected = .ok row ↔
      current = some row ∧ row.version = expected ∧ row.isActive = true ∧
        guard row.record = none ∧ row.retention.legalHold = false := by
  unfold deletable
  split
  · simp
  · next found =>
    split
    · next h =>
      refine iff_of_false nofun ?_
      rintro ⟨⟨⟩, rfl, -⟩
      rw [assertExpected_ok_iff.mpr (by simp)] at h
      cases h
    · next h =>
      have hversion : found.version = expected := by
        simpa using (assertExpected_ok_iff.mp h) expected rfl
      rw [ite_error_eq_ok_iff]
      split
      · next hguard =>
        refine iff_of_false (fun hok => nomatch hok.2) ?_
        rintro ⟨⟨⟩, -, -, hnone, -⟩
        rw [hguard] at hnone
        cases hnone
      · next hguard =>
        rw [ite_error_eq_ok_iff]
        constructor
        · rintro ⟨hactive, hhold, ⟨⟩⟩
          exact ⟨rfl, hversion, by simpa [Stored.isActive] using hactive, hguard, by simpa using hhold⟩
        · rintro ⟨⟨⟩, -, hactive, -, hhold⟩
          exact ⟨by simpa [Stored.isActive] using hactive, by simpa using hhold, rfl⟩

theorem assertActive_ok_iff {noun : String} {current : Option (Stored α)} :
    assertActive noun current = .ok () ↔ ∃ row, current = some row ∧ row.isActive = true := by
  unfold assertActive
  split
  · simp
  · next row => simp [Stored.isActive]

end

theorem forM_ok_iff {ι : Type} {f : ι → Except BrainError Unit} {items : List ι} :
    items.forM f = .ok () ↔ ∀ i ∈ items, f i = .ok () := by
  induction items with
  | nil => simp [List.forM, pure, Except.pure]
  | cons i items ih =>
    rw [List.forM, bind_eq_ok_iff, List.forall_mem_cons, ← ih]
    exact ⟨fun ⟨(), h⟩ => h, fun h => ⟨(), h⟩⟩

/-- There is a row and it is not tombstoned. -/
def Live {α : Type} (row : Option (Stored α)) : Prop := ∃ r, row = some r ∧ r.isActive = true

namespace Store

/-- The endpoints and the evidence of a relationship are active. -/
def Linkable (s : Store) (tenant : String) (r : BrainRelationship) : Prop :=
  Live (s.entityRow tenant r.sourceId) ∧ Live (s.entityRow tenant r.targetId) ∧
    ∀ v ∈ r.evidenceIds, Live (s.evidenceRow tenant v)

@[simp] theorem entityRow_empty (tenant entityId : String) :
    Store.empty.entityRow tenant entityId = none := rfl

@[simp] theorem evidenceRow_empty (tenant evidenceId : String) :
    Store.empty.evidenceRow tenant evidenceId = none := rfl

@[simp] theorem relationshipRow_empty (tenant : String) (k : EdgeKey) :
    Store.empty.relationshipRow tenant k = none := rfl

section
variable {α : Type} (s : Store) (recordType recordKey operation : String) (r : Stored α)

@[simp] theorem entities_appendEvent :
    (s.appendEvent recordType recordKey operation r).entities = s.entities := rfl

@[simp] theorem evidence_appendEvent :
    (s.appendEvent recordType recordKey operation r).evidence = s.evidence := rfl

@[simp] theorem relationships_appendEvent :
    (s.appendEvent recordType recordKey operation r).relationships = s.relationships := rfl

@[simp] theorem entityRow_appendEvent (tenant entityId : String) :
    (s.appendEvent recordType recordKey operation r).entityRow tenant entityId =
      s.entityRow tenant entityId := rfl

@[simp] theorem evidenceRow_appendEvent (tenant evidenceId : String) :
    (s.appendEvent recordType recordKey operation r).evidenceRow tenant evidenceId =
      s.evidenceRow tenant evidenceId := rfl

@[simp] theorem relationshipRow_appendEvent (tenant : String) (k : EdgeKey) :
    (s.appendEvent recordType recordKey operation r).relationshipRow tenant k =
      s.relationshipRow tenant k := rfl

end

section
variable (s : Store)

theorem entityRow_writeEntity (r : StoredEntity) (tenant entityId : String) :
    (s.writeEntity r).entityRow tenant entityId =
      if (tenant, entityId) = r.rowKey then some r else s.entityRow tenant entityId :=
  Table.get_put s.entities r (tenant, entityId)

theorem evidenceRow_writeEvidence (r : StoredEvidence) (tenant evidenceId : String) :
    (s.writeEvidence r).evidenceRow tenant evidenceId =
      if (tenant, evidenceId) = r.rowKey then some r else s.evidenceRow tenant evidenceId :=
  Table.get_put s.evidence r (tenant, evidenceId)

theorem relationshipRow_writeRelationship (r : StoredRelationship) (tenant : String) (k : EdgeKey) :
    (s.writeRelationship r).relationshipRow tenant k =
      if (tenant, k) = r.rowKey then some r else s.relationshipRow tenant k :=
  Table.get_put s.relationships r (tenant, k)

@[simp] theorem evidenceRow_writeEntity (r : StoredEntity) (tenant evidenceId : String) :
    (s.writeEntity r).evidenceRow tenant evidenceId = s.evidenceRow tenant evidenceId := rfl

@[simp] theorem relationshipRow_writeEntity (r : StoredEntity) (tenant : String) (k : EdgeKey) :
    (s.writeEntity r).relationshipRow tenant k = s.relationshipRow tenant k := rfl

@[simp] theorem entityRow_writeEvidence (r : StoredEvidence) (tenant entityId : String) :
    (s.writeEvidence r).entityRow tenant entityId = s.entityRow tenant entityId := rfl

@[simp] theorem relationshipRow_writeEvidence (r : StoredEvidence) (tenant : String) (k : EdgeKey) :
    (s.writeEvidence r).relationshipRow tenant k = s.relationshipRow tenant k := rfl

@[simp] theorem entityRow_writeRelationship (r : StoredRelationship) (tenant entityId : String) :
    (s.writeRelationship r).entityRow tenant entityId = s.entityRow tenant entityId := rfl

@[simp] theorem evidenceRow_writeRelationship (r : StoredRelationship) (tenant evidenceId : String) :
    (s.writeRelationship r).evidenceRow tenant evidenceId = s.evidenceRow tenant evidenceId := rfl

end

/-! ### The accepted writes -/

section
variable {s s' : Store} {tenant : String} {now : Int}

theorem putEntity_ok_iff {entity : BrainEntity} {terms : PutTerms} {stored : StoredEntity} :
    putEntity tenant entity terms now s = (s', .ok stored) ↔ required 200 tenant = true ∧
      revise (s.entityRow tenant entity.entityId) tenant entity terms now = .ok stored ∧
      s' = (s.writeEntity stored).appendEvent "entity" entity.entityId
        (if (s.entityRow tenant entity.entityId).isNone then "created" else "updated") stored := by
  rw [putEntity, putting_ok_iff, putEntityRow, putRow_ok_iff]

theorem putEvidence_ok_iff {evidence : BrainEvidence} {terms : PutTerms} {entityNow : Int}
    {stored : StoredEvidence} :
    putEvidence tenant evidence terms now entityNow s = (s', .ok stored) ↔
      required 200 tenant = true ∧
      revise (s.evidenceRow tenant evidence.evidenceId) tenant evidence terms now = .ok stored ∧
      ∃ entity structural, evidenceEntity evidence = .ok entity ∧
        revise (s.entityRow tenant evidence.evidenceId) tenant entity
          { terms with
            expectedVersion := (s.entityRow tenant evidence.evidenceId).map (·.version) }
          entityNow = .ok structural ∧
        s' = (((s.writeEvidence stored).appendEvent "evidence" evidence.evidenceId
          (if (s.evidenceRow tenant evidence.evidenceId).isNone then "created" else "updated")
          stored).writeEntity structural).appendEvent "entity" evidence.evidenceId
          (if (s.entityRow tenant evidence.evidenceId).isNone then "created" else "updated")
          structural := by
  rw [putEvidence, putting_ok_iff, andThen_ok_iff]
  refine and_congr_right fun _ => ?_
  constructor
  · rintro ⟨mid, a, hevidence, hrest⟩
    obtain ⟨hrevise, rfl⟩ := putRow_ok_iff.mp hevidence
    split at hrest
    · exact nomatch (Prod.mk.inj hrest).2
    · next entity hentity =>
      obtain ⟨written, structural, hput, hdone⟩ := andThen_ok_iff.mp hrest
      obtain ⟨rfl, ⟨⟩⟩ := Prod.mk.inj hdone
      obtain ⟨hstructural, rfl⟩ := putRow_ok_iff.mp hput
      have hid := (BrainEntity.make_eq_ok hentity).1
      simp only [entityRow_appendEvent, entityRow_writeEvidence, hid] at hstructural ⊢
      exact ⟨hrevise, entity, structural, hentity, hstructural, rfl⟩
  · rintro ⟨hrevise, entity, structural, hentity, hstructural, rfl⟩
    have hid := (BrainEntity.make_eq_ok hentity).1
    refine ⟨_, stored, putRow_ok_iff.mpr ⟨hrevise, rfl⟩, ?_⟩
    simp only [hentity]
    refine andThen_ok_iff.mpr ⟨_, structural, putRow_ok_iff.mpr ⟨?_, rfl⟩, ?_⟩
    · simpa only [entityRow_appendEvent, entityRow_writeEvidence, hid] using hstructural
    · simp only [entityRow_appendEvent, entityRow_writeEvidence, hid]

theorem assertLinkable_ok_iff {r : BrainRelationship} :
    s.assertLinkable tenant r = .ok () ↔ s.Linkable tenant r := by
  unfold assertLinkable Linkable
  rw [bind_eq_ok_iff]
  constructor
  · rintro ⟨_, hsource, hrest⟩
    obtain ⟨_, htarget, hevidence⟩ := bind_eq_ok_iff.mp hrest
    exact ⟨assertActive_ok_iff.mp hsource, assertActive_ok_iff.mp htarget,
      fun v hv => assertActive_ok_iff.mp (forM_ok_iff.mp hevidence v hv)⟩
  · rintro ⟨hsource, htarget, hevidence⟩
    refine ⟨(), assertActive_ok_iff.mpr hsource, ?_⟩
    refine bind_eq_ok_iff.mpr ⟨(), assertActive_ok_iff.mpr htarget, ?_⟩
    exact forM_ok_iff.mpr fun v hv => assertActive_ok_iff.mpr (hevidence v hv)

theorem putRelationship_ok_iff {relationship : BrainRelationship} {terms : PutTerms}
    {stored : StoredRelationship} :
    putRelationship tenant relationship terms now s = (s', .ok stored) ↔
      required 200 tenant = true ∧ s.Linkable tenant relationship ∧
      revise (s.relationshipRow tenant relationship.key) tenant relationship terms now = .ok stored ∧
      s' = (s.writeRelationship stored).appendEvent "relationship" (auditKey relationship.key)
        (if (s.relationshipRow tenant relationship.key).isNone then "created" else "updated")
        stored := by
  rw [putRelationship, putting_ok_iff, ← assertLinkable_ok_iff]
  refine and_congr_right fun _ => ?_
  split
  · next h => simp [h]
  · next h => rw [putRelationshipRow, putRow_ok_iff, and_iff_right h]

theorem deleteEntity_ok_iff {entityId : String} {terms : DeleteTerms} {stored : StoredEntity} :
    deleteEntity tenant entityId terms now s = (s', .ok stored) ↔
      DeleteArguments tenant [entityId] terms ∧ ∃ time current,
        deletionTime terms.deletedAt now = .ok time ∧
        deletable "entity" notEvidence (s.entityRow tenant entityId) terms.expectedVersion =
          .ok current ∧
        stored = tombstone current terms.reason time ∧
        s' = (s.writeEntity stored).appendEvent "entity" entityId "tombstoned" stored := by
  rw [deleteEntity, deleting_ok_iff]
  refine and_congr (by simp [DeleteArguments]) ?_
  constructor
  · rintro ⟨time, htime, hbody⟩
    split at hbody
    · exact nomatch (Prod.mk.inj hbody).2
    · next current hcurrent =>
      obtain ⟨rfl, ⟨⟩⟩ := Prod.mk.inj hbody
      exact ⟨time, current, htime, hcurrent, rfl, rfl⟩
  · rintro ⟨time, current, htime, hcurrent, rfl, rfl⟩
    exact ⟨time, htime, by simp [hcurrent]⟩

theorem deleteRelationship_ok_iff {k : EdgeKey} {terms : DeleteTerms} {stored : StoredRelationship} :
    deleteRelationship tenant k terms now s = (s', .ok stored) ↔
      DeleteArguments tenant [k.sourceId, k.targetId] terms ∧ ∃ time current,
        deletionTime terms.deletedAt now = .ok time ∧
        deletable "relationship" (fun _ => none) (s.relationshipRow tenant k) terms.expectedVersion =
          .ok current ∧
        stored = tombstone current terms.reason time ∧
        s' = (s.writeRelationship stored).appendEvent "relationship" (auditKey current.record.key)
          "tombstoned" stored := by
  rw [deleteRelationship, deleting_ok_iff]
  refine and_congr (by simp [DeleteArguments]) ?_
  constructor
  · rintro ⟨time, htime, hbody⟩
    split at hbody
    · exact nomatch (Prod.mk.inj hbody).2
    · next current hcurrent =>
      obtain ⟨rfl, ⟨⟩⟩ := Prod.mk.inj hbody
      exact ⟨time, current, htime, hcurrent, rfl, rfl⟩
  · rintro ⟨time, current, htime, hcurrent, rfl, rfl⟩
    exact ⟨time, htime, by simp [hcurrent]⟩

theorem structuralEntity_ok_iff {current : Option StoredEntity} {row : StoredEntity} :
    structuralEntity current = .ok row ↔ current = some row ∧ row.record.kind = .evidence ∧
      row.isActive = true ∧ row.retention.legalHold = false := by
  unfold structuralEntity
  split
  · simp
  · next found =>
    rw [ite_error_eq_ok_iff, ite_error_eq_ok_iff, ite_error_eq_ok_iff]
    constructor
    · rintro ⟨hkind, hactive, hhold, ⟨⟩⟩
      exact ⟨rfl, not_not.mp hkind, by simpa [Stored.isActive] using hactive, by simpa using hhold⟩
    · rintro ⟨⟨⟩, hkind, hactive, hhold⟩
      exact ⟨not_not.mpr hkind, by simpa [Stored.isActive] using hactive, by simpa using hhold, rfl⟩

theorem deleteEvidence_ok_iff {evidenceId : String} {terms : DeleteTerms} {stored : StoredEvidence} :
    deleteEvidence tenant evidenceId terms now s = (s', .ok stored) ↔
      DeleteArguments tenant [evidenceId] terms ∧ ∃ time current structural,
        deletionTime terms.deletedAt now = .ok time ∧
        deletable "evidence" (fun _ => none) (s.evidenceRow tenant evidenceId) terms.expectedVersion =
          .ok current ∧
        structuralEntity (s.entityRow tenant evidenceId) = .ok structural ∧
        stored = tombstone current terms.reason time ∧
        s' = (((s.writeEvidence stored).appendEvent "evidence" evidenceId "tombstoned"
          stored).writeEntity (tombstone structural terms.reason time)).appendEvent "entity" evidenceId
          "tombstoned" (tombstone structural terms.reason time) := by
  rw [deleteEvidence, deleting_ok_iff]
  refine and_congr (by simp [DeleteArguments]) ?_
  constructor
  · rintro ⟨time, htime, hbody⟩
    split at hbody
    · exact nomatch (Prod.mk.inj hbody).2
    · next current hcurrent =>
      split at hbody
      · exact nomatch (Prod.mk.inj hbody).2
      · next structural hstructural =>
        obtain ⟨rfl, ⟨⟩⟩ := Prod.mk.inj hbody
        exact ⟨time, current, structural, htime, hcurrent, hstructural, rfl, rfl⟩
  · rintro ⟨time, current, structural, htime, hcurrent, hstructural, rfl, rfl⟩
    exact ⟨time, htime, by simp [hcurrent, hstructural]⟩

end

/-- An operation answers with what the call it stands for returned. -/
theorem answered {α : Type} {f : α → StoreAnswer} {out : Store × Except BrainError α} {s' : Store}
    {a : StoreAnswer} (h : out.map id (Except.map f) = (s', .ok a)) :
    ∃ stored, out = (s', .ok stored) ∧ a = f stored := by
  obtain ⟨t, r⟩ := out
  cases r with
  | error y => exact nomatch (Prod.mk.inj h).2
  | ok stored =>
    obtain ⟨hs, ha⟩ := Prod.mk.inj h
    exact ⟨stored, by rw [← hs]; rfl, (Except.ok.inj ha).symm⟩

/-- A write that raises leaves the store as it was. -/
theorem step_error {s s' : Store} {op : StoreOp} {x : BrainError} (h : s.step op = (s', .error x)) :
    s' = s := by
  have hraised : ∀ {α : Type} {f : α → StoreAnswer} {out : Store × Except BrainError α},
      out.map id (Except.map f) = (s', .error x) → ∃ y, out = (s', .error y) := by
    rintro α f ⟨t, r⟩ hout
    cases r with
    | error y => exact ⟨y, by rw [← (Prod.mk.inj hout).1]; rfl⟩
    | ok a => exact nomatch (Prod.mk.inj hout).2
  cases op with
  | putEntity | putEvidence | putRelationship =>
    obtain ⟨y, hy⟩ := hraised h
    exact putting_error hy
  | deleteEntity | deleteEvidence | deleteRelationship =>
    obtain ⟨y, hy⟩ := hraised h
    exact deleting_error hy

end Store

end EngineeringIntelligence.CompanyBrain
