import EngineeringIntelligence.CompanyBrain.Rows

namespace EngineeringIntelligence.CompanyBrain

open EngineeringIntelligence.Framework

/-! Evidence and the entity that stands for it. -/

/-- An active entity of kind `EVIDENCE`. -/
def Structural (row : Option StoredEntity) : Prop :=
  ∃ e, row = some e ∧ e.isActive = true ∧ e.record.kind = .evidence

/-- Evidence is active exactly when its entity is, and the entity is held only if the evidence is. -/
structure Paired (r : Rows) : Prop where
  together : ∀ id, Live (r.evidence id) ↔ Structural (r.entity id)
  held : ∀ id e v, r.entity id = some e → e.isActive = true → e.record.kind = .evidence →
    e.retention.legalHold = true → r.evidence id = some v → v.retention.legalHold = true

/-- `put_entity` writes an entity of kind `EVIDENCE` exactly where there is active evidence,
and holds it only if the evidence is held. -/
def KeepsPairs (s : Store) : StoreOp → Prop
  | .putEntity tenant entity terms _ =>
    (entity.kind = .evidence ↔ Live (s.evidenceRow tenant entity.entityId)) ∧
      (entity.kind = .evidence → terms.retention.legalHold = true →
        ∀ v, s.evidenceRow tenant entity.entityId = some v → v.retention.legalHold = true)
  | _ => True

section
variable {α : Type}

theorem live_revised (current : Option (Stored α)) (tenant : String) (record : α) (terms : PutTerms)
    (now : Int) : Live (some (revised current tenant record terms now)) :=
  ⟨_, rfl, rfl⟩

theorem not_live_tombstone (row : Stored α) (reason : String) (now : Int) :
    ¬ Live (some (tombstone row reason now)) := by
  simp [Live, tombstone, Stored.isActive]

end

theorem structural_some {row : StoredEntity} :
    Structural (some row) ↔ row.isActive = true ∧ row.record.kind = .evidence := by
  simp [Structural]

theorem Structural.live {row : Option StoredEntity} (h : Structural row) : Live row := by
  obtain ⟨e, he, hactive, -⟩ := h
  exact ⟨e, he, hactive⟩

theorem paired_step {s : Store} {op : StoreOp} {r' : Rows} (h : Paired (s.rows op.tenant))
    (hop : KeepsPairs s op) (hwrote : Wrote (s.rows op.tenant) r' op) : Paired r' := by
  cases op with
  | putEntity tenant entity terms now =>
    obtain ⟨-, rfl⟩ := hwrote
    obtain ⟨hkind, hhold⟩ := hop
    refine ⟨fun id => ?_, fun id e v he hactive hevidence hheld hv => ?_⟩
    · by_cases hid : id = entity.entityId
      · subst hid
        simp only [Rows.setEntity, Function.update_self, structural_some]
        exact hkind.symm.trans (and_iff_right rfl).symm
      · simpa only [Rows.setEntity, Function.update_of_ne hid] using h.together id
    · by_cases hid : id = entity.entityId
      · subst hid
        simp only [Rows.setEntity, Function.update_self, Option.some.injEq] at he
        subst he
        exact hhold hevidence hheld v hv
      · simp only [Rows.setEntity, Function.update_of_ne hid] at he hv
        exact h.held id e v he hactive hevidence hheld hv
  | putEvidence tenant evidence terms now entityNow =>
    obtain ⟨-, -, entity, hentity, rfl⟩ := hwrote
    have hkind := (BrainEntity.make_eq_ok hentity).2.1
    refine ⟨fun id => ?_, fun id e v he hactive hevidence hheld hv => ?_⟩
    · by_cases hid : id = evidence.evidenceId
      · subst hid
        simp only [Rows.setEntity, Rows.setEvidence, Function.update_self, structural_some]
        exact iff_of_true (live_revised _ _ _ _ _) ⟨rfl, hkind⟩
      · simpa only [Rows.setEntity, Rows.setEvidence, Function.update_of_ne hid] using h.together id
    · by_cases hid : id = evidence.evidenceId
      · subst hid
        simp only [Rows.setEntity, Rows.setEvidence, Function.update_self, Option.some.injEq] at he hv
        subst he hv
        exact hheld
      · simp only [Rows.setEntity, Rows.setEvidence, Function.update_of_ne hid] at he hv
        exact h.held id e v he hactive hevidence hheld hv
  | putRelationship tenant relationship terms now =>
    obtain ⟨-, -, rfl⟩ := hwrote
    exact ⟨h.together, h.held⟩
  | deleteEntity tenant entityId terms now =>
    obtain ⟨row, time, hrow, -, hkind, rfl⟩ := hwrote
    refine ⟨fun id => ?_, fun id e v he hactive hevidence hheld hv => ?_⟩
    · by_cases hid : id = entityId
      · subst hid
        simp only [Rows.setEntity, Function.update_self]
        refine iff_of_false (fun hlive => ?_) fun hs => not_live_tombstone _ _ _ hs.live
        have hstructural := (h.together id).mp hlive
        rw [hrow, structural_some] at hstructural
        exact hkind hstructural.2
      · simpa only [Rows.setEntity, Function.update_of_ne hid] using h.together id
    · by_cases hid : id = entityId
      · subst hid
        simp only [Rows.setEntity, Function.update_self, Option.some.injEq] at he
        subst he
        exact absurd ⟨_, rfl, hactive⟩ (not_live_tombstone row terms.reason time)
      · simp only [Rows.setEntity, Function.update_of_ne hid] at he hv
        exact h.held id e v he hactive hevidence hheld hv
  | deleteEvidence tenant evidenceId terms now =>
    obtain ⟨row, structural, time, -, -, -, -, -, -, rfl⟩ := hwrote
    refine ⟨fun id => ?_, fun id e v he hactive hevidence hheld hv => ?_⟩
    · by_cases hid : id = evidenceId
      · subst hid
        simp only [Rows.setEntity, Rows.setEvidence, Function.update_self]
        exact iff_of_false (not_live_tombstone _ _ _) fun hs => not_live_tombstone _ _ _ hs.live
      · simpa only [Rows.setEntity, Rows.setEvidence, Function.update_of_ne hid] using h.together id
    · by_cases hid : id = evidenceId
      · subst hid
        simp only [Rows.setEntity, Rows.setEvidence, Function.update_self, Option.some.injEq] at he
        subst he
        exact absurd ⟨_, rfl, hactive⟩ (not_live_tombstone structural terms.reason time)
      · simp only [Rows.setEntity, Rows.setEvidence, Function.update_of_ne hid] at he hv
        exact h.held id e v he hactive hevidence hheld hv
  | deleteRelationship tenant k terms now =>
    obtain ⟨row, time, -, -, rfl⟩ := hwrote
    exact ⟨h.together, h.held⟩

theorem paired_empty (tenant : String) : Paired (Store.empty.rows tenant) where
  together id := by
    refine iff_of_false ?_ ?_
    · rintro ⟨row, ⟨⟩, -⟩
    · rintro ⟨row, ⟨⟩, -⟩
  held id e v he := nomatch he

theorem paired_run {ops : List StoreOp} (h : Admissible Store.step KeepsPairs Store.empty ops)
    (tenant : String) : Paired ((runState Store.step Store.empty ops).rows tenant) :=
  run_rows (fun _ _ _ => paired_step) paired_empty h tenant

/-- The right arguments delete active evidence that is not held, when it is paired. -/
theorem Paired.deletes {s : Store} {tenant : String} (h : Paired (s.rows tenant)) {id : String}
    {row : StoredEvidence} (hrow : s.evidenceRow tenant id = some row) {terms : DeleteTerms}
    (hdeletable : Deletable terms row) (hargs : DeleteArguments tenant [id] terms) {now time : Int}
    (htime : deletionTime terms.deletedAt now = .ok time) :
    ∃ s' stored, Store.deleteEvidence tenant id terms now s = (s', .ok stored) := by
  obtain ⟨hversion, hactive, hhold⟩ := hdeletable
  obtain ⟨e, he, hlive, hkind⟩ := (h.together id).mp ⟨row, hrow, hactive⟩
  have hfree : e.retention.legalHold = false := by
    rw [Bool.eq_false_iff]
    intro hheld
    rw [h.held id e row he hlive hkind hheld hrow] at hhold
    cases hhold
  exact ⟨_, _, Store.deleteEvidence_ok_iff.mpr ⟨hargs, time, row, e, htime,
    deletable_ok_iff.mpr ⟨hrow, hversion, hactive, rfl, hhold⟩,
    Store.structuralEntity_ok_iff.mpr ⟨he, hkind, hlive, hfree⟩, rfl, rfl⟩⟩

/-- In every run in which `put_entity` respects the pairs, evidence is active exactly when its
structural entity is, and active evidence that is not held can be deleted. -/
theorem evidence_with_its_entity {ops : List StoreOp}
    (h : Admissible Store.step KeepsPairs Store.empty ops) (tenant id : String) :
    (Live ((runState Store.step Store.empty ops).evidenceRow tenant id) ↔
      Structural ((runState Store.step Store.empty ops).entityRow tenant id)) ∧
    ∀ row terms now time,
      (runState Store.step Store.empty ops).evidenceRow tenant id = some row → Deletable terms row →
      DeleteArguments tenant [id] terms → deletionTime terms.deletedAt now = .ok time →
      ∃ s' stored, Store.deleteEvidence tenant id terms now
        (runState Store.step Store.empty ops) = (s', .ok stored) :=
  ⟨(paired_run h tenant).together id, fun _ _ _ _ hrow hdeletable hargs htime =>
    (paired_run h tenant).deletes hrow hdeletable hargs htime⟩

namespace Sample

def provenance : BrainProvenance :=
  ⟨"github", "github:acme/payments:main:payments.py", "one", "company-brain-file-change-projection:v1",
    0, none, by decide +kernel⟩

def terms : PutTerms := ⟨provenance, defaultRetentionPolicy, none⟩

def pointer : BrainEvidence :=
  ⟨"evidence:1", "repository-change", "github:acme/payments@one:payments.py", "one", ["payments"], [],
    by decide +kernel⟩

/-- A service under the identifier of the evidence. -/
def impostor : BrainEntity := ⟨"evidence:1", .service, "payments", [], by decide +kernel⟩

def service : BrainEntity := ⟨"service:payments", .service, "payments", [], by decide +kernel⟩

def recorded : List StoreOp :=
  [.putEvidence "acme" pointer terms 1 2, .putEntity "acme" service terms 3]

end Sample

/-- The run that records evidence and a service meets the condition, and its evidence can go. -/
theorem recorded_evidence_with_its_entity :
    Structural ((runState Store.step Store.empty Sample.recorded).entityRow "acme" "evidence:1") ∧
    ∃ s' stored, Store.deleteEvidence "acme" "evidence:1" ⟨1, "superseded", none⟩ 4
      (runState Store.step Store.empty Sample.recorded) = (s', .ok stored) := by
  have hok : Admissible Store.step KeepsPairs Store.empty Sample.recorded := by
    refine ⟨trivial, ⟨iff_of_false nofun ?_, nofun⟩, trivial⟩
    rintro ⟨row, hrow, -⟩
    have hnone : ((Store.empty.step (.putEvidence "acme" Sample.pointer Sample.terms 1 2)).1.evidenceRow
        "acme" "service:payments").isNone = true := by decide
    have hid : Sample.service.entityId = "service:payments" := rfl
    rw [hid] at hrow
    rw [hrow] at hnone
    cases hnone
  obtain ⟨htogether, hdelete⟩ := evidence_with_its_entity hok "acme" "evidence:1"
  have hrow : (runState Store.step Store.empty Sample.recorded).evidenceRow "acme" "evidence:1" =
      some (revised none "acme" Sample.pointer Sample.terms 1) := by decide
  refine ⟨htogether.mp ⟨_, hrow, rfl⟩, hdelete _ _ 4 4 hrow ⟨rfl, rfl, rfl⟩ ?_ rfl⟩
  exact ⟨by decide, by decide, by decide⟩

/-- `put_entity` overwrites the entity of active evidence with a service: the evidence has no
structural entity left and cannot be deleted. -/
theorem overwritten_entity_strands_evidence :
    ∃ s, s = runState Store.step Store.empty
        [.putEvidence "acme" Sample.pointer Sample.terms 1 2, .putEntity "acme" Sample.impostor Sample.terms 3] ∧
      Live (s.evidenceRow "acme" "evidence:1") ∧ ¬ Structural (s.entityRow "acme" "evidence:1") ∧
      (Store.deleteEvidence "acme" "evidence:1" ⟨1, "superseded", none⟩ 4 s).2 =
        .error (.store "evidence structural entity has an invalid kind") := by
  refine ⟨_, rfl, ⟨revised none "acme" Sample.pointer Sample.terms 1, by decide, rfl⟩, ?_,
    by decide⟩
  rintro ⟨e, he, -, hkind⟩
  have hservice : ((runState Store.step Store.empty
      [.putEvidence "acme" Sample.pointer Sample.terms 1 2,
        .putEntity "acme" Sample.impostor Sample.terms 3]).entityRow "acme" "evidence:1").map
        (·.record.kind) = some .service := by decide
  rw [he, Option.map_some, Option.some.injEq, hkind] at hservice
  cases hservice

end EngineeringIntelligence.CompanyBrain
