import EngineeringIntelligence.CompanyBrain.Isolation
import EngineeringIntelligence.State.ConditionalPuts

namespace EngineeringIntelligence.CompanyBrain

open EngineeringIntelligence.Framework
open EngineeringIntelligence.State (StateError StateRecord PutRequest SqliteState WorkflowRow
  sqlite_cellLaw)
open EngineeringIntelligence.State.Cosmos (Clients ClientMove Coherent documentVersion cosmos_cellLaw
  coherent_empty)

/-! Writers that name the version they have read, on the three stores that check it. -/

namespace StoreOp

/-- The version the writer expects of the record the write is named after. -/
def expected : StoreOp → Option Int
  | putEntity _ _ terms _ | putEvidence _ _ terms _ _ | putRelationship _ _ terms _ => terms.expectedVersion
  | deleteEntity _ _ terms _ | deleteEvidence _ _ terms _ | deleteRelationship _ _ terms _ =>
    some terms.expectedVersion

def IsPut : StoreOp → Prop
  | putEntity .. | putEvidence .. | putRelationship .. => True
  | deleteEntity .. | deleteEvidence .. | deleteRelationship .. => False

end StoreOp

/-- A write to the record that succeeds; what a write does to the structural entity of evidence
expects nothing. -/
def Store.won (ref : RecordRef) (s : Store) (op : StoreOp) : Option (Option Int × StoreAnswer) :=
  if (s.step op).2.isOk = true ∧ ref ∈ op.writes then
    ((s.step op).1.row ref).map fun r => (if ref = op.subject then op.expected else none, r)
  else none

/-- An accepted write met the version it expected. -/
theorem step_expected {s s' : Store} {op : StoreOp} {a : StoreAnswer} (h : s.step op = (s', .ok a)) {v : Int}
    (hv : op.expected = some v) : (s.row op.subject).map (·.life.version) = some v := by
  have hwrote := (step_rows h).2
  cases op with
  | putEntity tenant entity terms now =>
    have hversion := hwrote.1.1 v hv
    rw [StoreOp.subject, row_entity, Option.map_map]
    exact hversion
  | putEvidence tenant evidence terms now entityNow =>
    have hversion := hwrote.1.1 v hv
    rw [StoreOp.subject, row_evidence, Option.map_map]
    exact hversion
  | putRelationship tenant relationship terms now =>
    have hversion := hwrote.2.1.1 v hv
    rw [StoreOp.subject, row_relationship, Option.map_map]
    exact hversion
  | deleteEntity tenant entityId terms now =>
    obtain ⟨row, time, hrow, ⟨hversion, -⟩, -⟩ := hwrote
    rw [StoreOp.subject, row_entity, show s.entityRow tenant entityId = some row from hrow]
    exact (congrArg some hversion).trans hv
  | deleteEvidence tenant evidenceId terms now =>
    obtain ⟨row, structural, time, hrow, ⟨hversion, -⟩, -⟩ := hwrote
    rw [StoreOp.subject, row_evidence, show s.evidenceRow tenant evidenceId = some row from hrow]
    exact (congrArg some hversion).trans hv
  | deleteRelationship tenant k terms now =>
    obtain ⟨row, time, hrow, ⟨hversion, -⟩, -⟩ := hwrote
    rw [StoreOp.subject, row_relationship, show s.relationshipRow tenant k = some row from hrow]
    exact (congrArg some hversion).trans hv

theorem store_cellLaw (ref : RecordRef) :
    CellLaw Store.step (fun _ => True) (fun s => s.row ref) (fun r => r.life.version) (Store.won ref) where
  preserved _ _ _ := trivial
  kept s op _ hwon := by
    unfold Store.won at hwon
    split at hwon
    · next hwrite =>
      obtain ⟨new, hnew, -⟩ := row_rewritten hwrite
      rw [hnew] at hwon
      cases hwon
    · next hwrite => exact row_kept hwrite
  replaced s op expected r _ hwon := by
    unfold Store.won at hwon
    split at hwon
    · next hwrite =>
      obtain ⟨new, hnew, hrewrites⟩ := row_rewritten hwrite
      rw [hnew, Option.map_some, Option.some.injEq, Prod.mk.injEq] at hwon
      obtain ⟨hexpected, rfl⟩ := hwon
      refine ⟨hnew, hrewrites.version, fun v hv => ?_⟩
      rw [← hexpected] at hv
      split at hv
      · next hsubject =>
        obtain ⟨a, ha⟩ := isOk_iff.mp hwrite.1
        rw [hsubject]
        exact step_expected (Prod.ext rfl ha) hv
      · cases hv
    · cases hwon

/-! ### Losing writes -/

theorem putting_snd {α : Type} {tenant : String} (h : required 200 tenant = true)
    (body : Store → Store × Except BrainError α) (s : Store) :
    (putting tenant body s).2 = (body s).2 := by
  have hargs : argumentProblem [(required 200 tenant, "tenant_id")] = none :=
    argumentProblem_eq_none.mpr (by simpa using h)
  rw [putting, hargs]
  exact transaction_snd body s

theorem revise_stale {α : Type} {current : Option (Stored α)} {terms : PutTerms} {v : Int}
    (tenant : String) (record : α) (now : Int) (hexpected : terms.expectedVersion = some v)
    (hstale : current.map (·.version) ≠ some v) :
    ∃ m, revise current tenant record terms now = .error (.versionConflict m) := by
  have hconflict : assertExpected (current.map (·.version)) terms.expectedVersion =
      .error (.versionConflict ("expected version " ++ State.showVersion terms.expectedVersion ++
        ", current version is " ++ State.showVersion (current.map (·.version)))) := by
    unfold assertExpected
    exact if_pos (by simpa [hexpected] using hstale)
  exact ⟨_, by rw [revise, hconflict]⟩

theorem assertActive_error {α : Type} {noun : String} {current : Option (Stored α)} {x : BrainError}
    (h : assertActive noun current = .error x) : ∃ m, x = .store m := by
  unfold assertActive at h
  split at h
  · cases h
    exact ⟨_, rfl⟩
  · split at h
    · cases h
      exact ⟨_, rfl⟩
    · cases h

theorem forM_error {ι : Type} {f : ι → Except BrainError Unit} {items : List ι} {x : BrainError}
    (h : items.forM f = .error x) : ∃ i ∈ items, f i = .error x := by
  induction items with
  | nil => cases h
  | cons i items ih =>
    rw [List.forM] at h
    cases hi : f i with
    | error y =>
      rw [hi] at h
      cases h
      exact ⟨i, List.mem_cons_self, hi⟩
    | ok u =>
      rw [hi] at h
      obtain ⟨j, hj, hx⟩ := ih h
      exact ⟨j, List.mem_cons_of_mem i hj, hx⟩

theorem assertLinkable_error {s : Store} {tenant : String} {r : BrainRelationship} {x : BrainError}
    (h : s.assertLinkable tenant r = .error x) : (∃ m, x = .store m) ∧ ¬ s.Linkable tenant r := by
  refine ⟨?_, fun hlinkable => ?_⟩
  · unfold Store.assertLinkable at h
    cases hsource : assertActive "relationship endpoints" (s.entityRow tenant r.sourceId) with
    | error y =>
      rw [hsource] at h
      cases h
      exact assertActive_error hsource
    | ok u =>
      rw [hsource] at h
      cases htarget : assertActive "relationship endpoints" (s.entityRow tenant r.targetId) with
      | error y =>
        simp only [bind, Except.bind, htarget] at h
        cases h
        exact assertActive_error htarget
      | ok u =>
        simp only [bind, Except.bind, htarget] at h
        obtain ⟨v, -, hv⟩ := forM_error h
        exact assertActive_error hv
  · rw [Store.assertLinkable_ok_iff.mpr hlinkable] at h
    cases h

/-- What a put that comes too late raises: a version conflict, unless it is a relationship
that could not be linked at all. -/
def LosesWith (s : Store) (op : StoreOp) (x : BrainError) : Prop :=
  (∃ m, x = .versionConflict m) ∨
    (∃ m, x = .store m) ∧ ∃ tenant relationship terms now,
      op = .putRelationship tenant relationship terms now ∧ ¬ s.Linkable tenant relationship

theorem stale_put {s : Store} {op : StoreOp} (hput : op.IsPut) (htenant : required 200 op.tenant = true)
    {v : Int} (hexpected : op.expected = some v)
    (hstale : (s.row op.subject).map (·.life.version) ≠ some v) :
    ∃ x, s.step op = (s, .error x) ∧ LosesWith s op x := by
  have hraised : ∀ {x}, (s.step op).2 = .error x → s.step op = (s, .error x) := by
    intro x hx
    have hsame : (s.step op).1 = s := Store.step_error (Prod.ext rfl hx)
    exact Prod.ext hsame hx
  cases op with
  | putEntity tenant entity terms now =>
    simp only [StoreOp.tenant] at htenant
    rw [StoreOp.subject, row_entity, Option.map_map] at hstale
    obtain ⟨m, hm⟩ := revise_stale tenant entity now hexpected hstale
    refine ⟨_, hraised ?_, .inl ⟨m, rfl⟩⟩
    show Except.map _ (Store.putEntity tenant entity terms now s).2 = _
    rw [Store.putEntity, putting_snd htenant, Store.putEntityRow, putRow_snd, hm]
    rfl
  | putEvidence tenant evidence terms now entityNow =>
    simp only [StoreOp.tenant] at htenant
    rw [StoreOp.subject, row_evidence, Option.map_map] at hstale
    obtain ⟨m, hm⟩ := revise_stale tenant evidence now hexpected hstale
    refine ⟨_, hraised ?_, .inl ⟨m, rfl⟩⟩
    have hfirst : (Store.putEvidenceRow tenant evidence terms now s).2 = .error (.versionConflict m) := by
      rw [Store.putEvidenceRow, putRow_snd, hm]
    have hpair : Store.putEvidenceRow tenant evidence terms now s =
        ((Store.putEvidenceRow tenant evidence terms now s).1, .error (.versionConflict m)) :=
      Prod.ext rfl hfirst
    show Except.map _ (Store.putEvidence tenant evidence terms now entityNow s).2 = _
    rw [Store.putEvidence, putting_snd htenant, andThen_of_error hpair]
    rfl
  | putRelationship tenant relationship terms now =>
    simp only [StoreOp.tenant] at htenant
    rw [StoreOp.subject, row_relationship, Option.map_map] at hstale
    cases hlinkable : s.assertLinkable tenant relationship with
    | error x =>
      obtain ⟨hstore, hnot⟩ := assertLinkable_error hlinkable
      refine ⟨x, hraised ?_, .inr ⟨hstore, tenant, relationship, terms, now, rfl, hnot⟩⟩
      show Except.map _ (Store.putRelationship tenant relationship terms now s).2 = _
      rw [Store.putRelationship, putting_snd htenant, hlinkable]
      rfl
    | ok u =>
      obtain ⟨m, hm⟩ := revise_stale tenant relationship now hexpected hstale
      refine ⟨_, hraised ?_, .inl ⟨m, rfl⟩⟩
      show Except.map _ (Store.putRelationship tenant relationship terms now s).2 = _
      rw [Store.putRelationship, putting_snd htenant, hlinkable]
      show Except.map _ (Store.putRelationshipRow tenant relationship terms now s).2 = _
      rw [Store.putRelationshipRow, putRow_snd, hm]
      rfl
  | deleteEntity | deleteEvidence | deleteRelationship => exact hput.elim

/-- A client that has read a record of the company brain and writes it after another client has
changed nothing, and it learns why. -/
theorem stale_write {ops : List StoreOp} {op : StoreOp} (hput : op.IsPut) {r : StoreAnswer} {v : Int}
    (hrow : (runState Store.step Store.empty ops).row op.subject = some r)
    (hexpected : op.expected = some v) (hstale : r.life.version ≠ v) :
    ∃ x, (runState Store.step Store.empty ops).step op = (runState Store.step Store.empty ops, .error x) ∧
      LosesWith (runState Store.step Store.empty ops) op x := by
  have htenant : required 200 op.tenant = true := by
    rw [← op.tenant_subject]
    exact tenant_of_row (by rw [hrow]; rfl)
  refine stale_put hput htenant hexpected ?_
  rw [hrow, Option.map_some]
  exact fun h => hstale (Option.some.inj h)

/-- However the clients of a state store or of the company brain interleave, no update is lost:
each version is left by one write, and who comes too late changes nothing. -/
theorem versioned_writes_are_not_lost (κ : Type) [DecidableEq κ] :
    (∀ place s requests, NoLostUpdate SqliteState.step (SqliteState.row place) WorkflowRow.version
        (SqliteState.won place) s requests) ∧
      (∀ (s : SqliteState) request x, (s.step request).2 = .error x →
        (∃ m, x = StateError.versionConflict m) ∧ (s.step request).1 = s) ∧
      (∀ item (moves : List (ClientMove κ)), NoLostUpdate Clients.step (Clients.document item)
        documentVersion (Clients.won item) Clients.empty moves) ∧
      (∀ (moves : List (ClientMove κ)) move request x,
        ((runState Clients.step Clients.empty moves).step move).2 = some (request, .error x) →
          (∃ m, x = StateError.versionConflict m) ∧
            ((runState Clients.step Clients.empty moves).step move).1.container =
              (runState Clients.step Clients.empty moves).container) ∧
      (∀ ref ops, NoLostUpdate Store.step (fun s => s.row ref) (fun r => r.life.version)
        (Store.won ref) Store.empty ops) ∧
      ∀ (ops : List StoreOp) (op : StoreOp) r v, op.IsPut →
        (runState Store.step Store.empty ops).row op.subject = some r → op.expected = some v →
          r.life.version ≠ v →
            ∃ x, (runState Store.step Store.empty ops).step op =
                (runState Store.step Store.empty ops, .error x) ∧
              LosesWith (runState Store.step Store.empty ops) op x := by
  refine ⟨fun place s requests => (sqlite_cellLaw place).noLostUpdate trivial requests,
    fun s request x => SqliteState.step_error,
    fun item moves => (cosmos_cellLaw item).noLostUpdate coherent_empty moves, ?_,
    fun ref ops => (store_cellLaw ref).noLostUpdate trivial ops,
    fun ops op r v hput hrow hexpected hstale => stale_write hput hrow hexpected hstale⟩
  intro moves move request x herror
  have hcoherent : Coherent (runState Clients.step Clients.empty moves) :=
    run_invariant Clients.step (P := Coherent) (fun s a hs => hs.step a) coherent_empty moves
  exact hcoherent.step_error herror

namespace Sample

/-- The owner of a service retires while another client still holds the relationship at its first
version. -/
def disowned : List StoreOp :=
  owned ++ [.deleteRelationship "acme" ⟨"team:core", .owns, "service:payments"⟩ ⟨1, "moved", none⟩ 4,
    .deleteEntity "acme" "team:core" ⟨1, "disbanded", none⟩ 5]

theorem core_owns_valid : relationshipProblem "team:core" "service:payments" [] = none := by decide +kernel

def lateOwner : StoreOp :=
  .putRelationship "acme" ⟨"team:core", "service:payments", .owns, [], core_owns_valid⟩
    { terms with expectedVersion := some 1 } 6

end Sample

theorem disowned_relationship_is_not_lost :
    ∃ x, (runState Store.step Store.empty Sample.disowned).step Sample.lateOwner =
        (runState Store.step Store.empty Sample.disowned, .error x) ∧
      LosesWith (runState Store.step Store.empty Sample.disowned) Sample.lateOwner x := by
  have hversion : ((runState Store.step Store.empty Sample.disowned).row Sample.lateOwner.subject).map
      (·.life.version) = some 2 := by
    decide
  obtain ⟨r, hrow, hr⟩ := Option.map_eq_some_iff.mp hversion
  obtain ⟨-, -, -, -, -, hlate⟩ := versioned_writes_are_not_lost Nat
  exact hlate Sample.disowned Sample.lateOwner r 1 trivial hrow rfl (by omega)

/-- The loser's own check of its endpoints comes before that of the version. -/
theorem late_owner_raises_a_store_error :
    (((runState Store.step Store.empty Sample.owned).row Sample.lateOwner.subject).map
        (·.life.version) = some 1 ∧ Sample.lateOwner.expected = some 1) ∧
      (((runState Store.step Store.empty Sample.disowned).row Sample.lateOwner.subject).map
        (·.life.version) = some 2) ∧
      ((runState Store.step Store.empty Sample.disowned).step Sample.lateOwner).2.map (fun _ => ()) =
        .error (.store "relationship endpoints must be active") := by
  decide

end EngineeringIntelligence.CompanyBrain
