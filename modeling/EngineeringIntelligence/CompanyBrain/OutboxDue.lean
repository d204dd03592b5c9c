import EngineeringIntelligence.CompanyBrain.OutboxRuns
import EngineeringIntelligence.Framework.UtcInstant

namespace EngineeringIntelligence.CompanyBrain

open EngineeringIntelligence.Framework EngineeringIntelligence.Ingestion

/-! What `claim_next` selects, told by the times themselves. -/

namespace StoredDelivery

/-- The times of a row are texts of times in UTC. -/
structure Timed (row : StoredDelivery) : Prop where
  available : ∃ t : UtcTime, row.availableAt = t.isoformat
  expires : ∀ text, row.leaseExpiresAt = some text → ∃ t : UtcTime, text = t.isoformat

/-- The row waits and its time has come, or its lease has run out. -/
def DueAt (now : Int) (row : StoredDelivery) : Prop :=
  (row.state = .pending ∧ ∃ t : UtcTime, row.availableAt = t.isoformat ∧ t.instant ≤ now) ∨
    (row.state = .leased ∧ ∃ t : UtcTime, row.leaseExpiresAt = some t.isoformat ∧ t.instant ≤ now)

/-- The row is available before another, or with it under a smaller name. -/
def NotAfter (row other : StoredDelivery) : Prop :=
  ∀ t u : UtcTime, row.availableAt = t.isoformat → other.availableAt = u.isoformat →
    t.instant < u.instant ∨ t.instant = u.instant ∧
      [row.artifactId, row.intent.deliveryKey] ≤ [other.artifactId, other.intent.deliveryKey]

/-- A text of a time is compared as the time is. -/
theorem text_le_iff {t now : UtcTime} :
    t.isoformat ≤ now.isoformat ↔ ∃ u : UtcTime, t.isoformat = u.isoformat ∧ u.instant ≤ now.instant := by
  constructor
  · intro hle
    exact ⟨t, rfl, UtcTime.isoformat_le_iff.mp hle⟩
  · rintro ⟨u, hu, hle⟩
    rw [hu]
    exact UtcTime.isoformat_le_iff.mpr hle

theorem due_iff {row : StoredDelivery} (h : row.Timed) (now : UtcTime) :
    row.due now.isoformat = true ↔ row.DueAt now.instant := by
  obtain ⟨t, ht⟩ := h.available
  have hwaiting : row.availableAt ≤ now.isoformat ↔
      ∃ t : UtcTime, row.availableAt = t.isoformat ∧ t.instant ≤ now.instant := by
    rw [ht]
    exact text_le_iff
  have hleased : row.leaseExpiresAt.any (· ≤ now.isoformat) = true ↔
      ∃ t : UtcTime, row.leaseExpiresAt = some t.isoformat ∧ t.instant ≤ now.instant := by
    cases hexpires : row.leaseExpiresAt with
    | none => simp
    | some text =>
      obtain ⟨u, rfl⟩ := h.expires text hexpires
      simp only [Option.any_some, decide_eq_true_eq, Option.some.injEq]
      exact text_le_iff
  simp only [due, DueAt, Bool.or_eq_true, Bool.and_eq_true, decide_eq_true_eq, hwaiting, hleased]

theorem notAfter_of_le {row other : StoredDelivery}
    (h : [row.availableAt, row.artifactId, row.intent.deliveryKey] ≤
      [other.availableAt, other.artifactId, other.intent.deliveryKey]) : row.NotAfter other := by
  intro t u ht hu
  rw [ht, hu] at h
  rcases h.lt_or_eq with hlt | heq
  · rcases List.cons_lt_cons_iff.mp hlt with htime | ⟨htime, hnames⟩
    · refine .inl (lt_of_not_ge fun hge => ?_)
      exact absurd (UtcTime.isoformat_le_iff.mpr hge) (not_le_of_gt htime)
    · exact .inr ⟨le_antisymm (UtcTime.isoformat_le_iff.mp htime.le) (UtcTime.isoformat_le_iff.mp htime.ge),
        hnames.le⟩
  · obtain ⟨htime, hnames⟩ := List.cons.inj heq
    exact .inr ⟨le_antisymm (UtcTime.isoformat_le_iff.mp htime.le) (UtcTime.isoformat_le_iff.mp htime.ge),
      hnames.le⟩

end StoredDelivery

namespace ArtifactOutbox

variable {o : ArtifactOutbox}

/-! ### Rows of a run -/

/-- The artifact of every row is there, and its times are texts of times. -/
structure Kept (o : ArtifactOutbox) : Prop where
  artifact : ∀ k row, o.deliveries.get k = some row → (o.artifacts.get row.artifactId).isSome = true
  timed : ∀ k row, o.deliveries.get k = some row → row.Timed

theorem kept_update (h : Kept o) (k : String × String) (f : StoredDelivery → StoredDelivery)
    (hf : ∀ row, (f row).key = row.key) (htimed : ∀ row, row.Timed → (f row).Timed) :
    Kept ⟨o.artifacts, o.deliveries.update k f hf⟩ where
  artifact k' row hrow := by
    dsimp only at hrow ⊢
    refine Table.forall_update (P := fun row => (o.artifacts.get row.artifactId).isSome = true)
      h.artifact (fun old _ hold => ?_) hrow
    have hsame : (f old).artifactId = old.artifactId := congrArg Prod.fst (hf old)
    rw [hsame]
    exact hold
  timed k' row hrow := by
    dsimp only at hrow
    exact Table.forall_update h.timed (fun old _ hold => htimed old hold) hrow

theorem leasedTo_timed (leaseToken : String) (leaseExpiresAt : UtcTime) {row : StoredDelivery}
    (h : row.Timed) : (row.leasedTo leaseToken leaseExpiresAt.isoformat).Timed :=
  ⟨h.available, fun _ htext => ⟨leaseExpiresAt, (Option.some.inj htext).symm⟩⟩

theorem acknowledged_timed (deliveredAt : String) {row : StoredDelivery} (h : row.Timed) :
    (row.acknowledged deliveredAt).Timed :=
  ⟨h.available, fun _ htext => by cases htext⟩

theorem requeued_timed (error : String) (retryAt : UtcTime) (row : StoredDelivery) :
    (row.requeued error retryAt.isoformat).Timed :=
  ⟨⟨retryAt, rfl⟩, fun _ htext => by cases htext⟩

theorem planned_timed (artifactId : String) (now : UtcTime) (intent : ArtifactDeliveryIntent) :
    (StoredDelivery.planned artifactId now.isoformat intent).Timed :=
  ⟨⟨now, rfl⟩, fun _ htext => by cases htext⟩

theorem kept_record (h : Kept o) (artifact : ProductArtifact) (recordedAt : Option SourceTime)
    (clock : UtcTime) : Kept (o.record artifact recordedAt clock).1 := by
  unfold record
  split
  · exact h
  · next now hnow =>
    split
    · split
      · exact h
      · exact h
    · next hnew =>
      split
      · exact h
      · next deliveries hinsert =>
        obtain ⟨-, hplanned, -⟩ := insertDeliveries_ok hinsert
        refine ⟨fun k row hrow => ?_, fun k row hrow => ?_⟩
        · dsimp only
          rw [Table.get_put]
          split
          · rfl
          · next hother =>
            rcases hplanned k row hrow with hold | ⟨hold, intent, hintent, rfl⟩
            · exact h.artifact k row hold
            · exact absurd rfl hother
        · rcases hplanned k row hrow with hold | ⟨hold, intent, hintent, rfl⟩
          · exact h.timed k row hold
          · exact planned_timed artifact.artifactId now intent

theorem kept_claimNext (h : Kept o) (now : Option SourceTime) (leaseDuration : Int)
    (artifactId : Option String) (uuid : UuidHex) (clock : UtcTime) :
    Kept (o.claimNext now leaseDuration artifactId uuid clock).1 := by
  unfold claimNext
  split
  · exact h
  split
  · exact h
  split
  · exact h
  · next current hcurrent =>
    unfold leaseNextDue
    split
    · exact h
    · next artifact row hnext =>
      cases current.add leaseDuration.toNat with
      | none => exact h
      | some leaseExpiresAt =>
        exact kept_update h row.key (.leasedTo uuid.leaseToken leaseExpiresAt.isoformat) (fun _ => rfl)
          fun _ => leasedTo_timed uuid.leaseToken leaseExpiresAt

theorem kept_acknowledge (h : Kept o) (d : LeasedArtifactDelivery) (deliveredAt : Option SourceTime)
    (clock : UtcTime) : Kept (o.acknowledge d deliveredAt clock).1 := by
  unfold acknowledge
  split
  · exact h
  split
  · exact h
  · next timestamp _ _ _ =>
    exact kept_update h d.key (.acknowledged timestamp.isoformat) (fun _ => rfl) fun _ => acknowledged_timed _

theorem kept_retry (h : Kept o) (d : LeasedArtifactDelivery) (error : String) (retryAt : SourceTime) :
    Kept (o.retry d error retryAt).1 := by
  unfold retry
  split
  · exact h
  split
  · exact h
  split
  · exact h
  · next retryTimestamp _ _ _ =>
    exact kept_update h d.key (.requeued error retryTimestamp.isoformat) (fun _ => rfl)
      fun row _ => requeued_timed error retryTimestamp row

theorem kept_step (h : Kept o) (call : OutboxCall) : Kept (o.step call).1 := by
  cases hcall : call.request with
  | record artifact recordedAt =>
    rw [step, hcall]
    exact kept_record h artifact recordedAt call.clock
  | claimNext now leaseDuration artifactId uuid =>
    rw [step, hcall]
    exact kept_claimNext h now leaseDuration artifactId uuid call.clock
  | acknowledge d deliveredAt =>
    rw [step, hcall]
    exact kept_acknowledge h d deliveredAt call.clock
  | retry d error retryAt =>
    rw [step, hcall]
    exact kept_retry h d error retryAt

theorem kept_after (calls : List OutboxCall) : Kept (after calls) := by
  refine run_invariant (P := Kept) step (fun _ call h => kept_step h call) ⟨?_, ?_⟩ calls
  · intro k row hrow
    rw [get_empty] at hrow
    cases hrow
  · intro k row hrow
    rw [get_empty] at hrow
    cases hrow

/-! ### The selected row -/

/-- A row of the asked artifact, or of any, that is due. -/
def DueRow (o : ArtifactOutbox) (now : Int) (artifactId : Option String) (row : StoredDelivery) : Prop :=
  row ∈ o.deliveries.rows ∧ (∀ id, artifactId = some id → row.artifactId = id) ∧ row.DueAt now

/-- What the query of `claim_next` selects from. -/
theorem selected_iff (h : Kept o) {now : UtcTime} {artifactId : Option String} {row : StoredDelivery} :
    DueRow o now.instant artifactId row ↔ ∃ artifact,
      (artifact, row) ∈ (o.deliveries.rows.filterMap fun row =>
        (o.artifacts.get row.artifactId).map fun artifact => (artifact, row)).filter
          fun p => p.2.due now.isoformat && artifactId.all (p.2.artifactId = ·) := by
  have hasked : artifactId.all (row.artifactId = ·) = true ↔
      ∀ id, artifactId = some id → row.artifactId = id := by
    cases artifactId <;> simp
  simp only [List.mem_filter, List.mem_filterMap, Option.map_eq_some_iff, Bool.and_eq_true, hasked]
  constructor
  · rintro ⟨hrow, hid, hdue⟩
    have hget := Table.get_of_mem hrow
    obtain ⟨artifact, hartifact⟩ := Option.isSome_iff_exists.mp (h.artifact _ row hget)
    exact ⟨artifact, ⟨row, hrow, artifact, hartifact, rfl⟩,
      (StoredDelivery.due_iff (h.timed _ row hget) now).mpr hdue, hid⟩
  · rintro ⟨artifact, ⟨row', hrow, artifact', hartifact, hpair⟩, hdue, hid⟩
    obtain ⟨rfl, rfl⟩ := Prod.mk.inj hpair
    have hget := Table.get_of_mem hrow
    exact ⟨hrow, hid, (StoredDelivery.due_iff (h.timed _ row' hget) now).mp hdue⟩

theorem nextDue_eq_none_iff (h : Kept o) {now : UtcTime} {artifactId : Option String} :
    o.nextDue now.isoformat artifactId = none ↔ ∀ row, ¬ DueRow o now.instant artifactId row := by
  unfold nextDue
  rw [List.head?_eq_none_iff, sortedBy_eq_nil, List.eq_nil_iff_forall_not_mem]
  constructor
  · intro hnone row hdue
    obtain ⟨artifact, hmem⟩ := (selected_iff h).mp hdue
    exact hnone (artifact, row) hmem
  · intro hnone p hmem
    exact hnone p.2 ((selected_iff h).mpr ⟨p.1, hmem⟩)

theorem nextDue_first (h : Kept o) {now : UtcTime} {artifactId : Option String}
    {artifact : StoredArtifact} {row : StoredDelivery}
    (hnext : o.nextDue now.isoformat artifactId = some (artifact, row)) :
    DueRow o now.instant artifactId row ∧
      ∀ other, DueRow o now.instant artifactId other → row.NotAfter other := by
  unfold nextDue at hnext
  have hmem := mem_sortedBy.mp (List.mem_of_mem_head? hnext)
  refine ⟨(selected_iff h).mpr ⟨artifact, hmem⟩, fun other hother => ?_⟩
  obtain ⟨artifact', hmem'⟩ := (selected_iff h).mp hother
  exact StoredDelivery.notAfter_of_le (le_of_head?_sortedBy hnext hmem')

/-! ### Claims -/

/-- The claims of an outbox select what is due at the time they are made. -/
structure ClaimsWhenDue (o : ArtifactOutbox) : Prop where
  timed : ∀ row ∈ o.deliveries.rows, row.Timed
  idle : ∀ now leaseDuration artifactId uuid clock,
    (o.claimNext now leaseDuration artifactId uuid clock).2 = .ok none →
    ∀ row, ¬ DueRow o (orNow now clock).utc.instant artifactId row
  taken : ∀ now leaseDuration artifactId uuid clock lease,
    (o.claimNext now leaseDuration artifactId uuid clock).2 = .ok (some lease) →
    ∃ row, lease.key = row.key ∧ DueRow o (orNow now clock).utc.instant artifactId row ∧
      ∀ other, DueRow o (orNow now clock).utc.instant artifactId other → row.NotAfter other
  /-- a claim is refused for what it is given, or for a lease that ends after the calendar -/
  answered : ∀ now leaseDuration artifactId uuid clock,
    0 < leaseDuration → leaseDuration ≤ 300000000 → artifactId.all matchesIdentifier = true →
    (orNow now clock).aware = true → ((orNow now clock).utc.add leaseDuration.toNat).isSome = true →
    ∃ answer, (o.claimNext now leaseDuration artifactId uuid clock).2 = .ok answer

theorem claimNext_ok {now : Option SourceTime} {leaseDuration : Int} {artifactId : Option String}
    {uuid : UuidHex} {clock : UtcTime} {answer : Option LeasedArtifactDelivery}
    (h : (o.claimNext now leaseDuration artifactId uuid clock).2 = .ok answer) :
    (o.leaseNextDue (orNow now clock).utc leaseDuration artifactId uuid).2 = .ok answer := by
  unfold claimNext at h
  split at h
  · cases h
  split at h
  · cases h
  split at h
  · cases h
  · next current hcurrent =>
    rw [(inUtc_ok hcurrent).2] at h
    exact h

theorem leaseNextDue_ok {current : UtcTime} {leaseDuration : Int} {artifactId : Option String}
    {uuid : UuidHex} {answer : Option LeasedArtifactDelivery}
    (h : (o.leaseNextDue current leaseDuration artifactId uuid).2 = .ok answer) :
    (answer = none ∧ o.nextDue current.isoformat artifactId = none) ∨
      ∃ artifact row lease, answer = some lease ∧ lease.key = (artifact.header.artifactId, row.intent.deliveryKey) ∧
        o.nextDue current.isoformat artifactId = some (artifact, row) := by
  unfold leaseNextDue at h
  split at h
  · next hnext =>
    cases h
    exact .inl ⟨rfl, hnext⟩
  · next artifact row hnext =>
    cases hexpires : current.add leaseDuration.toNat with
    | none =>
      rw [hexpires] at h
      cases h
    | some leaseExpiresAt =>
      rw [hexpires] at h
      cases h
      exact .inr ⟨artifact, row, _, rfl, rfl, hnext⟩

theorem claimsWhenDue_of_kept (h : Kept o) : ClaimsWhenDue o where
  timed row hrow := h.timed _ row (Table.get_of_mem hrow)
  idle := by
    intro now leaseDuration artifactId uuid clock hanswer
    rcases leaseNextDue_ok (claimNext_ok hanswer) with ⟨-, hnone⟩ | ⟨artifact, row, lease, hsome, -⟩
    · exact (nextDue_eq_none_iff h).mp hnone
    · cases hsome
  taken := by
    intro now leaseDuration artifactId uuid clock lease hanswer
    rcases leaseNextDue_ok (claimNext_ok hanswer) with ⟨hnone, -⟩ | ⟨artifact, row, lease', hsome, hkey, hnext⟩
    · cases hnone
    · cases hsome
      obtain ⟨-, hartifact, -⟩ := nextDue_spec hnext
      have hheader : StoredArtifact.key artifact = row.artifactId := Table.key_of_get hartifact
      obtain ⟨hdue, hfirst⟩ := nextDue_first h hnext
      exact ⟨row, hkey.trans (Prod.ext hheader rfl), hdue, hfirst⟩
  answered := by
    intro now leaseDuration artifactId uuid clock hpositive hlong hid haware hend
    obtain ⟨leaseExpiresAt, hexpires⟩ := Option.isSome_iff_exists.mp hend
    have hvalid : artifactId.any (fun id => !matchesIdentifier id) = false := by
      cases artifactId with
      | none => rfl
      | some id => simpa using hid
    rw [claimNext, if_neg (by omega), if_neg (by simp [hvalid]), inUtc, if_pos haware]
    simp only [leaseNextDue, hexpires]
    cases o.nextDue (orNow now clock).utc.isoformat artifactId with
    | none => exact ⟨none, rfl⟩
    | some found => exact ⟨_, rfl⟩

/-- Aware times compare as their texts in UTC do, so in every run a claim takes the first row that
is due, and none while none is. -/
theorem claims_when_due (calls : List OutboxCall) :
    (∀ (a b : PyDateTime) (t u : UtcTime), a.inUtc = some t → b.inUtc = some u →
      (t.isoformat ≤ u.isoformat ↔ a.instant ≤ b.instant)) ∧
    ClaimsWhenDue (after calls) := by
  refine ⟨fun a b t u ha hb => ?_, claimsWhenDue_of_kept (kept_after calls)⟩
  rw [UtcTime.isoformat_le_iff, (PyDateTime.instant_of_inUtc ha).2, (PyDateTime.instant_of_inUtc hb).2]

end ArtifactOutbox

end EngineeringIntelligence.CompanyBrain
