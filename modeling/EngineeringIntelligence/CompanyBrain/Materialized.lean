import EngineeringIntelligence.CompanyBrain.View
import Mathlib.Data.List.Induction

namespace EngineeringIntelligence.CompanyBrain

open EngineeringIntelligence.Framework EngineeringIntelligence.Ingestion

/-! Runs of calls that go through: the store is the view of the journal, and the journal holds
what the latest changes describe. -/

section
variable {q : MemoryProjector} {sha256 : String → String} {c : Call} {m m' : Memory}

/-- The change is the one the journal already has for its source. -/
def Replays (q : MemoryProjector) (sha256 : String → String) (m : Memory) (c : Call) : Prop :=
  c.change.changeType = .upsert ∧ ∃ old, m.journal.get (q.tenantId, c.change.sourceKey) = some old ∧
    old.state = .active ∧ old.fingerprint = c.change.fingerprint sha256

/-- The call goes through. -/
def GoesThrough (q : MemoryProjector) (sha256 : String → String) (m : Memory) (c : Call) : Prop :=
  ∃ r, (q.step sha256 m c).2 = .ok r

theorem intent_keeps {r : ProjectionReceipt} (h : q.intent sha256 c m = .keeps r) :
    Replays q sha256 m c ∨ ∃ old, m.journal.get (q.tenantId, c.change.sourceKey) = some old ∧
      old.state = .deleted := by
  unfold MemoryProjector.intent at h
  split at h
  · cases h
  split at h
  · unfold MemoryProjector.deleteIntent at h
    split at h
    · cases h
    · split at h <;> cases h
    · next previous hprevious =>
      obtain ⟨-, hold, -⟩ := assertNotConflictingReplay_ok_iff.mp hprevious
      split at h
      · next hdeleted => exact .inr ⟨previous, hold.symm, hdeleted⟩
      · cases h
  · next htype =>
    unfold MemoryProjector.upsertIntent at h
    split at h
    · cases h
    next previous hprevious =>
    obtain ⟨-, rfl, -⟩ := assertNotConflictingReplay_ok_iff.mp hprevious
    split at h
    · next p hp =>
      rw [Option.filter_eq_some_iff] at hp
      obtain ⟨hold, hseen⟩ := hp
      simp only [Bool.and_eq_true, decide_eq_true_eq] at hseen
      exact .inl ⟨htype, p, hold, hseen⟩
    · split at h
      · cases h
      split at h
      · cases h
      split at h <;> cases h

/-- A projection holds what its source's latest change describes: of the calls for its source, the last that is not a
replay is an upsert with its fingerprint, and the relationships are those that it describes and those that the store
already showed with its evidence. -/
def Latest (q : MemoryProjector) (sha256 : String → String) (calls : List Call)
    (p : BrainSourceProjection) : Prop :=
  ∃ before c after, calls = before ++ c :: after ∧ c.change.sourceKey = p.sourceKey ∧
    c.change.changeType = .upsert ∧ p.fingerprint = c.change.fingerprint sha256 ∧
    p.evidenceIds = [c.change.upsert.evidenceId] ∧
    (∀ mid d rest, after = mid ++ d :: rest → d.change.sourceKey = p.sourceKey →
      Replays q sha256 (runState (q.step sha256) Memory.empty (before ++ c :: mid)) d) ∧
    ∀ x, x ∈ p.relationships ↔ x.evidenceIds = [c.change.upsert.evidenceId] ∧
      ((∃ row, ((runState (q.step sha256) Memory.empty before).store.rows q.tenantId).Listed x.key row ∧
        c.change.upsert.evidenceId ∈ row.record.evidenceIds) ∨
      x.key ∈ c.change.upsert.edges
        ((runState (q.step sha256) Memory.empty before).store.rows q.tenantId).present)

theorem runState_concat (step : Memory → Call → Memory × Except BrainError ProjectionReceipt)
    (calls : List Call) (c : Call) : runState step Memory.empty (calls ++ [c]) =
      (step (runState step Memory.empty calls) c).1 := by
  rw [runState_append]
  rfl

theorem Latest.append {calls : List Call} {p : BrainSourceProjection} (h : Latest q sha256 calls p)
    (hc : c.change.sourceKey = p.sourceKey →
      Replays q sha256 (runState (q.step sha256) Memory.empty calls) c) :
    Latest q sha256 (calls ++ [c]) p := by
  obtain ⟨before, d, after, rfl, hkey, htype, hseen, hevidence, hafter, hedges⟩ := h
  refine ⟨before, d, after ++ [c], by simp, hkey, htype, hseen, hevidence, fun mid e rest heq hsource => ?_, hedges⟩
  -- the new call is the last one, or the split lies in the calls before it
  rcases List.eq_nil_or_concat rest with rfl | ⟨rest', last, rfl⟩
  · obtain ⟨rfl, hlast⟩ := List.append_inj' heq rfl
    cases hlast
    exact hc hsource
  · have hsplit : after ++ [c] = (mid ++ e :: rest') ++ [last] := by simp [heq]
    obtain ⟨rfl, -⟩ := List.append_inj' hsplit rfl
    exact hafter mid e rest' rfl hsource

/-- After calls that go through, the store is the view of the journal. -/
theorem view_run {calls : List Call}
    (h : Admissible (q.step sha256) (GoesThrough q sha256) Memory.empty calls) :
    Lawful q (runState (q.step sha256) Memory.empty calls) ∧ View q (runState (q.step sha256) Memory.empty calls) := by
  refine run_guarded (P := fun m => Lawful q m ∧ View q m) (q.step sha256) (fun m c hm hok => ?_)
    ⟨lawful_empty q, view_empty q⟩ h
  obtain ⟨hlawful, hview⟩ := hm
  obtain ⟨receipt, hreceipt⟩ := hok
  exact ⟨hlawful.step, hview.step hlawful (Prod.ext rfl hreceipt)⟩

theorem latest_step {calls : List Call} (hlawful : Lawful q (runState (q.step sha256) Memory.empty calls))
    (hlatest : ∀ p ∈ (runState (q.step sha256) Memory.empty calls).journal.active q.tenantId, Latest q sha256 calls p)
    (hok : GoesThrough q sha256 (runState (q.step sha256) Memory.empty calls) c) :
    ∀ p ∈ (runState (q.step sha256) Memory.empty (calls ++ [c])).journal.active q.tenantId,
      Latest q sha256 (calls ++ [c]) p := by
  rw [runState_concat]
  generalize hm : runState (q.step sha256) Memory.empty calls = m at *
  obtain ⟨receipt, hreceipt⟩ := hok
  have hstep : q.step sha256 m c = ((q.step sha256 m c).1, .ok receipt) := Prod.ext rfl hreceipt
  generalize (q.step sha256 m c).1 = m' at hstep
  intro p hp
  -- a projection that was active before and that the call leaves
  have hkeep : p ∈ m.journal.active q.tenantId →
      (c.change.sourceKey = p.sourceKey → Replays q sha256 m c) → Latest q sha256 (calls ++ [c]) p := by
    intro hactive hreplay
    refine (hlatest p hactive).append fun hsource => ?_
    rw [hm]
    exact hreplay hsource
  obtain ⟨rfl, hkeeps⟩ | ⟨p', -, -, hjournal, hnone, ht, hk, hstate⟩ |
    ⟨plan, p', record, -, -, -, hjournal, -, ht, hk, -, hrecord⟩ := step_ok_cases hlawful hstep
  · refine hkeep hp fun hsource => ?_
    obtain hreplay | ⟨old, hold, hdeleted⟩ := intent_keeps hkeeps
    · exact hreplay
    · obtain ⟨hget, hactive⟩ := Journal.mem_active.mp hp
      rw [hsource, hget] at hold
      cases hold
      rw [hactive] at hdeleted
      cases hdeleted
  · rw [hjournal, mem_active_put ht, mem_others] at hp
    obtain ⟨hactive, hne⟩ | ⟨rfl, hactive⟩ := hp
    · exact hkeep hactive fun hsource => absurd (hsource.symm.trans hk.symm) hne
    · rw [hstate] at hactive
      cases hactive
  · rw [hjournal, mem_active_put ht, mem_others] at hp
    obtain ⟨hactive, hne⟩ | ⟨rfl, hactive⟩ := hp
    · exact hkeep hactive fun hsource => absurd (hsource.symm.trans hk.symm) hne
    · obtain ⟨-, -, hplan⟩ | ⟨-, hdeleted, -⟩ := hrecord
      · refine ⟨calls, c, [], rfl, hk.symm, hplan.upserts, hplan.fingerprint, hplan.records.evidenceIds, by simp,
          fun x => ?_⟩
        rw [hm]
        exact hplan.records.relationships x
      · rw [hactive] at hdeleted
        cases hdeleted

/-- Every run of calls that go through leaves the store as the view of the journal: the active evidence, the active
entities that sources own and the evidence entities are those of the active projections, every entity that one of them
describes is active, and so are exactly the relationships that one of them has, each with the evidence that they have
for it. -/
theorem store_is_view_of_journal {calls : List Call}
    (h : Admissible (q.step sha256) (GoesThrough q sha256) Memory.empty calls)
    (hm : m = runState (q.step sha256) Memory.empty calls) :
    (∀ id, Live (m.store.evidenceRow q.tenantId id) ↔
      ∃ p ∈ m.journal.active q.tenantId, id ∈ p.evidenceIds) ∧
    (∀ id, (∃ e, Content (m.store.entityRow q.tenantId id) = some e ∧ isSourceOwned e = true ∧
      e.kind ≠ .evidence) ↔ ∃ p ∈ m.journal.active q.tenantId, id ∈ p.ownedEntityIds) ∧
    (∀ id, (∃ e, Content (m.store.entityRow q.tenantId id) = some e ∧ e.kind = .evidence) ↔
      ∃ p ∈ m.journal.active q.tenantId, id ∈ p.evidenceIds) ∧
    (∀ p ∈ m.journal.active q.tenantId, ∀ id ∈ p.entityIds, Live (m.store.entityRow q.tenantId id)) ∧
    (∀ k, Live (m.store.relationshipRow q.tenantId k) ↔
      ∃ p ∈ m.journal.active q.tenantId, ∃ r ∈ p.relationships, r.key = k) ∧
    ∀ k r, Content (m.store.relationshipRow q.tenantId k) = some r → ∀ v, v ∈ r.evidenceIds ↔
      ∃ p ∈ m.journal.active q.tenantId, ∃ x ∈ p.relationships, x.key = k ∧ v ∈ x.evidenceIds := by
  obtain ⟨hlawful, hview⟩ := hm ▸ view_run h
  refine ⟨hview.evidence, hview.owned, fun id => ?_, hview.entities, hview.relationships, fun k r hr v => ?_⟩
  · rw [← hview.evidence id]
    constructor
    · rintro ⟨e, he, hkind⟩
      obtain ⟨row, hrow, hactive, rfl⟩ := content_eq_some.mp he
      obtain ⟨v, hv⟩ := Option.isSome_iff_exists.mp (hlawful.governed.structural id row hrow hkind)
      obtain ⟨-, structural, -, hstructural, -, hsame⟩ := hlawful.governed.paired id v hv
      cases hrow.symm.trans hstructural
      exact ⟨v, hv, hsame.symm.trans hactive⟩
    · rintro ⟨v, hv, hactive⟩
      obtain ⟨e, structural, he, hstructural, hrecord, hsame⟩ := hlawful.governed.paired id v hv
      refine ⟨e, content_eq_some.mpr ⟨structural, hstructural, hsame.trans hactive, hrecord⟩, ?_⟩
      exact (evidenceEntity_kind he).2
  · rw [hview.citations k r hr, mem_relationshipMemberships]

/-- After calls that go through, every active projection is as its source's latest change describes it. -/
theorem journal_is_latest {calls : List Call}
    (h : Admissible (q.step sha256) (GoesThrough q sha256) Memory.empty calls) :
    ∀ p ∈ (runState (q.step sha256) Memory.empty calls).journal.active q.tenantId, Latest q sha256 calls p := by
  induction calls using List.reverseRecOn with
  | nil => exact fun p hp => absurd hp List.not_mem_nil
  | append_singleton calls c ih =>
    obtain ⟨hbefore, hlast, -⟩ := (admissible_append _ _ _ _ _).mp h
    exact latest_step (view_run hbefore).1 (ih hbefore) hlast

end

namespace Sample

def acme : MemoryProjector := ⟨"acme", by decide +kernel⟩

def payments (commitSha service : String) : FileChange :=
  ⟨⟨"github", "acme/payments", "main", commitSha, "pay.py"⟩, .upsert, some "print(1)", some "python",
    some "ana", some service, ⟨["payments"], []⟩⟩

/-- The digest of the fingerprint of the file. -/
def digest (_ : String) : String := "c76b14d23e073f6cb9ddd27566f71766399b606d0e109ae9cc6d490e6c40a0fa"

def call (change : SourceChange) : Call := ⟨change, none, ⟨0, 0, fun n => n⟩⟩

/-- The call goes through, and its projection is active after it. -/
theorem payments_run :
    (acme.step digest Memory.empty (call (.file (payments "one" "payments")))).2.isOk = true ∧
    (runState (acme.step digest) Memory.empty
      [call (.file (payments "one" "payments"))]).journal.active "acme" ≠ [] := by
  decide +kernel

theorem payments_goes_through :
    Admissible (acme.step digest) (GoesThrough acme digest) Memory.empty [call (.file (payments "one" "payments"))] :=
  ⟨isOk_iff.mp payments_run.1, trivial⟩

end Sample

theorem payments_is_viewed :
    ∃ p ∈ (runState (Sample.acme.step Sample.digest) Memory.empty
        [Sample.call (.file (Sample.payments "one" "payments"))]).journal.active "acme",
      ∀ id ∈ p.evidenceIds, Live ((runState (Sample.acme.step Sample.digest) Memory.empty
        [Sample.call (.file (Sample.payments "one" "payments"))]).store.evidenceRow "acme" id) := by
  have hview := store_is_view_of_journal (q := Sample.acme) Sample.payments_goes_through rfl
  obtain ⟨p, hp⟩ := List.exists_mem_of_ne_nil _ Sample.payments_run.2
  exact ⟨p, hp, fun id hid => (hview.1 id).mpr ⟨p, hp, hid⟩⟩

theorem payments_is_latest :
    ∃ p ∈ (runState (Sample.acme.step Sample.digest) Memory.empty
        [Sample.call (.file (Sample.payments "one" "payments"))]).journal.active "acme",
      Latest Sample.acme Sample.digest [Sample.call (.file (Sample.payments "one" "payments"))] p := by
  obtain ⟨p, hp⟩ := List.exists_mem_of_ne_nil _ Sample.payments_run.2
  exact ⟨p, hp, journal_is_latest (q := Sample.acme) Sample.payments_goes_through p hp⟩

end EngineeringIntelligence.CompanyBrain
