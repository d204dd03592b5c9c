import EngineeringIntelligence.CompanyBrain.ArtifactOutbox
import EngineeringIntelligence.Framework.Fallible
import EngineeringIntelligence.Framework.Run

namespace EngineeringIntelligence.CompanyBrain

open EngineeringIntelligence.Framework EngineeringIntelligence.Ingestion

/-! ### What one call can do -/

/-- The lease a call hands out. -/
def leaseOf : Except OutboxError OutboxAnswer → Option LeasedArtifactDelivery
  | .ok (.claimed lease) => lease
  | _ => none

/-- An accepted report ends the lease it presents. -/
def GivesBack (x : OutboxCall × Except OutboxError OutboxAnswer) (lease : LeasedArtifactDelivery) : Prop :=
  x.2 = .ok .done ∧ ∃ d, x.1.presented = some d ∧ d.key = lease.key ∧ d.leaseToken = lease.leaseToken

theorem LeasedArtifactDelivery.leaseToken_ne_empty (d : LeasedArtifactDelivery) : d.leaseToken ≠ "" := by
  intro hempty
  have htoken := d.token
  rw [hempty] at htoken
  cases htoken

/-- The columns of a row agree on its state. -/
structure StoredDelivery.Coherent (row : StoredDelivery) : Prop where
  token : row.state = .leased ↔ row.leaseToken.isSome = true
  expiry : row.state = .leased ↔ row.leaseExpiresAt.isSome = true
  delivered : row.state = .delivered ↔ row.deliveredAt.isSome = true

namespace ArtifactOutbox

variable {o : ArtifactOutbox} {call : OutboxCall}

theorem requireLease_ok_iff {d : LeasedArtifactDelivery} : o.requireLease d = .ok () ↔
    ∃ row, o.deliveries.get d.key = some row ∧ row.state = .leased ∧ row.leaseToken = some d.leaseToken := by
  unfold requireLease
  cases hrow : o.deliveries.get d.key with
  | none => simp
  | some row =>
    have htoken : row.leaseToken.getD "" = d.leaseToken ↔ row.leaseToken = some d.leaseToken := by
      have hne := d.leaseToken_ne_empty
      cases row.leaseToken with
      | none => simp [hne.symm]
      | some token => simp
    dsimp only
    rw [ite_error_eq_ok_iff, ite_error_eq_ok_iff, not_not, not_not, htoken]
    simp

/-- What a call leaves and answers. -/
inductive Outcome (o : ArtifactOutbox) (call : OutboxCall) :
    ArtifactOutbox → Except OutboxError OutboxAnswer → Prop
  | refused (x : OutboxError) : Outcome o call o (.error x)
  | known {artifact : ProductArtifact} {recordedAt : Option SourceTime} {row : StoredArtifact}
      (hcall : call.request = .record artifact recordedAt)
      (hrow : o.artifacts.get artifact.artifactId = some row)
      (hpayload : row.payload = artifact.payload.dumpsUnicode) : Outcome o call o (.ok (.recorded false))
  | recorded {artifact : ProductArtifact} {recordedAt : Option SourceTime} {now : String}
      {deliveries : Table StoredDelivery.key} (hcall : call.request = .record artifact recordedAt)
      (hnew : o.artifacts.get artifact.artifactId = none)
      (hinsert : artifact.deliveries.foldlM (insertDelivery artifact.artifactId now) o.deliveries =
        .ok deliveries) :
      Outcome o call ⟨o.artifacts.put ⟨artifact.toArtifactHeader, artifact.payload.dumpsUnicode, now⟩,
        deliveries⟩ (.ok (.recorded true))
  | idle : Outcome o call o (.ok (.claimed none))
  | claimed {row : StoredDelivery} {lease : LeasedArtifactDelivery} (hkey : lease.key = row.key)
      (htoken : call.freshToken = some lease.leaseToken) (hrow : o.deliveries.get row.key = some row)
      (hdue : row.due call.now.isoformat = true) :
      Outcome o call ⟨o.artifacts, o.deliveries.update row.key
        (.leasedTo lease.leaseToken lease.leaseExpiresAt.isoformat) fun _ => rfl⟩
        (.ok (.claimed (some lease)))
  | acknowledged {d : LeasedArtifactDelivery} {deliveredAt : String} (hcall : call.presented = some d)
      (hlease : o.requireLease d = .ok ()) :
      Outcome o call ⟨o.artifacts, o.deliveries.update d.key (.acknowledged deliveredAt) fun _ => rfl⟩
        (.ok .done)
  | requeued {d : LeasedArtifactDelivery} {error retryAt : String} (hcall : call.presented = some d)
      (hlease : o.requireLease d = .ok ()) :
      Outcome o call ⟨o.artifacts, o.deliveries.update d.key (.requeued error retryAt) fun _ => rfl⟩
        (.ok .done)

theorem inUtc_ok {value : SourceTime} {label : String} {t : UtcTime} (h : inUtc value label = .ok t) :
    value.aware = true ∧ t = value.utc := by
  unfold inUtc at h
  split at h
  · next haware =>
    cases h
    exact ⟨haware, rfl⟩
  · cases h

theorem outcome_record {artifact : ProductArtifact} {recordedAt : Option SourceTime}
    (hcall : call.request = .record artifact recordedAt) :
    Outcome o call (o.record artifact recordedAt call.clock).1
      ((o.record artifact recordedAt call.clock).2.map .recorded) := by
  unfold record
  split
  · exact .refused _
  · next now _ =>
    split
    · next row hrow =>
      split
      · exact .refused _
      · next hpayload => exact .known hcall hrow (not_not.mp hpayload)
    · next hnew =>
      split
      · exact .refused _
      · next deliveries hinsert => exact .recorded hcall hnew hinsert

theorem outcome_leaseRow {header : ArtifactHeader} {row : StoredDelivery} {uuid : UuidHex}
    (hheader : header.artifactId = row.artifactId) (htoken : call.freshToken = some uuid.leaseToken)
    (hrow : o.deliveries.get row.key = some row) (hdue : row.due call.now.isoformat = true)
    (leaseExpiresAt : Option UtcTime) :
    Outcome o call (o.leaseRow header row uuid leaseExpiresAt).1
      ((o.leaseRow header row uuid leaseExpiresAt).2.map .claimed) := by
  cases leaseExpiresAt with
  | none => exact .refused _
  | some leaseExpiresAt =>
    have hkey : (row.lease header uuid leaseExpiresAt).key = row.key := Prod.ext hheader rfl
    exact Outcome.claimed hkey htoken hrow hdue

theorem outcome_leaseNextDue {current : UtcTime} {leaseDuration : Int} {artifactId : Option String}
    {uuid : UuidHex} (hnow : call.now = current) (htoken : call.freshToken = some uuid.leaseToken) :
    Outcome o call (o.leaseNextDue current leaseDuration artifactId uuid).1
      ((o.leaseNextDue current leaseDuration artifactId uuid).2.map .claimed) := by
  unfold leaseNextDue
  split
  · exact .idle
  · next artifact row hnext =>
    obtain ⟨hrow, hartifact, hdue, -⟩ := nextDue_spec hnext
    have hheader : StoredArtifact.key artifact = row.artifactId := Table.key_of_get hartifact
    exact outcome_leaseRow hheader htoken hrow (hnow ▸ hdue) _

theorem outcome_claimNext {now : Option SourceTime} {leaseDuration : Int} {artifactId : Option String}
    {uuid : UuidHex} (hcall : call.request = .claimNext now leaseDuration artifactId uuid) :
    Outcome o call (o.claimNext now leaseDuration artifactId uuid call.clock).1
      ((o.claimNext now leaseDuration artifactId uuid call.clock).2.map .claimed) := by
  unfold claimNext
  split
  · exact .refused _
  split
  · exact .refused _
  split
  · exact .refused _
  · next current hutc =>
    have hnow : call.now = current := by
      rw [OutboxCall.now, hcall]
      exact (inUtc_ok hutc).2.symm
    have htoken : call.freshToken = some uuid.leaseToken := by rw [OutboxCall.freshToken, hcall]
    exact outcome_leaseNextDue hnow htoken

theorem outcome_acknowledge {d : LeasedArtifactDelivery} {deliveredAt : Option SourceTime}
    (hcall : call.request = .acknowledge d deliveredAt) :
    Outcome o call (o.acknowledge d deliveredAt call.clock).1
      ((o.acknowledge d deliveredAt call.clock).2.map fun _ => .done) := by
  have hpresented : call.presented = some d := by rw [OutboxCall.presented, hcall]
  unfold acknowledge
  split
  · exact .refused _
  split
  · exact .refused _
  · next hlease => exact .acknowledged hpresented hlease

theorem outcome_retry {d : LeasedArtifactDelivery} {error : String} {retryAt : SourceTime}
    (hcall : call.request = .retry d error retryAt) :
    Outcome o call (o.retry d error retryAt).1 ((o.retry d error retryAt).2.map fun _ => .done) := by
  have hpresented : call.presented = some d := by rw [OutboxCall.presented, hcall]
  unfold retry
  split
  · exact .refused _
  split
  · exact .refused _
  split
  · exact .refused _
  · next hlease => exact .requeued hpresented hlease

theorem outcome_step (o : ArtifactOutbox) (call : OutboxCall) :
    Outcome o call (o.step call).1 (o.step call).2 := by
  cases hcall : call.request with
  | record artifact recordedAt =>
    rw [step, hcall]
    exact outcome_record hcall
  | claimNext now leaseDuration artifactId uuid =>
    rw [step, hcall]
    exact outcome_claimNext hcall
  | acknowledge d deliveredAt =>
    rw [step, hcall]
    exact outcome_acknowledge hcall
  | retry d error retryAt =>
    rw [step, hcall]
    exact outcome_retry hcall

/-! ### The rows of one artifact -/

theorem insertDelivery_ok_iff {artifactId now : String} {rows rows' : Table StoredDelivery.key}
    {intent : ArtifactDeliveryIntent} : insertDelivery artifactId now rows intent = .ok rows' ↔
      rows.get (artifactId, intent.deliveryKey) = none ∧
      (∀ row ∈ rows.rows, row.intent.idempotencyKey ≠ intent.idempotencyKey) ∧
      rows' = rows.put (.planned artifactId now intent) := by
  unfold insertDelivery
  rw [ite_error_eq_ok_iff, ite_error_eq_ok_iff, Except.ok.injEq]
  refine and_congr ?_ (and_congr ?_ eq_comm)
  · cases rows.get (artifactId, intent.deliveryKey) <;> simp
  · simp only [List.any_eq_true, decide_eq_true_eq, not_exists, not_and]

/-- Rows that are there stay as they are, and every other one is that of a planned delivery. -/
theorem insertDeliveries_ok {artifactId now : String} {intents : List ArtifactDeliveryIntent}
    {rows rows' : Table StoredDelivery.key}
    (h : intents.foldlM (insertDelivery artifactId now) rows = .ok rows') :
    (∀ k row, rows.get k = some row → rows'.get k = some row) ∧
    (∀ k row, rows'.get k = some row → rows.get k = some row ∨
      rows.get k = none ∧ ∃ intent ∈ intents, row = .planned artifactId now intent) ∧
    ∀ intent ∈ intents, rows'.get (artifactId, intent.deliveryKey) = some (.planned artifactId now intent) := by
  induction intents generalizing rows with
  | nil =>
    cases h
    exact ⟨fun _ _ h => h, fun _ _ h => .inl h, by simp⟩
  | cons intent intents ih =>
    rw [List.foldlM_cons, bind_eq_ok_iff] at h
    obtain ⟨mid, hinsert, hrest⟩ := h
    obtain ⟨hnone, -, rfl⟩ := insertDelivery_ok_iff.mp hinsert
    obtain ⟨hkept, hnew, hall⟩ := ih hrest
    have hown : (StoredDelivery.planned artifactId now intent).key = (artifactId, intent.deliveryKey) := rfl
    refine ⟨fun k row hrow => hkept k row ?_, fun k row hrow => ?_, ?_⟩
    · have hne : k ≠ (StoredDelivery.planned artifactId now intent).key := by
        intro heq
        rw [heq, hown, hnone] at hrow
        cases hrow
      rw [Table.get_put_of_ne _ hne]
      exact hrow
    · rcases hnew k row hrow with hmid | ⟨hmid, hplanned⟩
      · rw [Table.get_put] at hmid
        split at hmid
        · next heq =>
          cases hmid
          exact .inr ⟨heq ▸ hnone, intent, List.mem_cons_self, rfl⟩
        · exact .inl hmid
      · rw [Table.get_put] at hmid
        split at hmid
        · cases hmid
        · obtain ⟨planned, hmem, hrow'⟩ := hplanned
          exact .inr ⟨hmid, planned, List.mem_cons_of_mem intent hmem, hrow'⟩
    · refine List.forall_mem_cons.mpr ⟨?_, hall⟩
      exact hkept _ _ (Table.get_put_self rows (.planned artifactId now intent))

/-! ### What a call does to one row -/

/-- How a call moves the row of a delivery. -/
inductive Moves (call : OutboxCall) (answer : Except OutboxError OutboxAnswer) :
    Option StoredDelivery → StoredDelivery → Prop
  | same (row : StoredDelivery) (h : ∀ lease, leaseOf answer = some lease → lease.key ≠ row.key) :
      Moves call answer (some row) row
  | planned (artifactId now : String) (intent : ArtifactDeliveryIntent) (h : leaseOf answer = none) :
      Moves call answer none (.planned artifactId now intent)
  | leased (row : StoredDelivery) {lease : LeasedArtifactDelivery} (h : leaseOf answer = some lease)
      (hkey : lease.key = row.key) (htoken : call.freshToken = some lease.leaseToken)
      (hdue : row.due call.now.isoformat = true) :
      Moves call answer (some row) (row.leasedTo lease.leaseToken lease.leaseExpiresAt.isoformat)
  | acknowledged (row : StoredDelivery) {d : LeasedArtifactDelivery} (deliveredAt : String)
      (hback : GivesBack (call, answer) d) (hkey : d.key = row.key) (hstate : row.state = .leased)
      (htoken : row.leaseToken = some d.leaseToken) : Moves call answer (some row) (row.acknowledged deliveredAt)
  | requeued (row : StoredDelivery) {d : LeasedArtifactDelivery} (error retryAt : String)
      (hback : GivesBack (call, answer) d) (hkey : d.key = row.key) (hstate : row.state = .leased)
      (htoken : row.leaseToken = some d.leaseToken) : Moves call answer (some row) (row.requeued error retryAt)

/-- The row of a delivery before and after a call; nothing else takes its place. -/
def Follows (call : OutboxCall) (answer : Except OutboxError OutboxAnswer) (k : String × String)
    (before after : Option StoredDelivery) : Prop :=
  (∀ row', after = some row' → Moves call answer before row') ∧
    (after = none → before = none ∧ ∀ lease, leaseOf answer = some lease → lease.key ≠ k)

theorem follows_same {answer : Except OutboxError OutboxAnswer} {k : String × String}
    {row : Option StoredDelivery} (hkey : ∀ r, row = some r → r.key = k)
    (h : ∀ lease, leaseOf answer = some lease → lease.key ≠ k) : Follows call answer k row row := by
  refine ⟨fun r hr => ?_, fun hnone => ⟨hnone, h⟩⟩
  subst hr
  refine .same r fun lease hlease => ?_
  rw [hkey r rfl]
  exact h lease hlease

/-- A call that writes over the row of one delivery. -/
theorem follows_update {answer : Except OutboxError OutboxAnswer} {k k' : String × String}
    {f : StoredDelivery → StoredDelivery} (hf : ∀ row, (f row).key = row.key)
    (hother : ∀ lease, leaseOf answer = some lease → lease.key = k')
    {row : StoredDelivery} (hrow : o.deliveries.get k' = some row)
    (hmoves : Moves call answer (some row) (f row)) :
    Follows call answer k (o.deliveries.get k) ((o.deliveries.update k' f hf).get k) := by
  rw [Table.get_update]
  split
  · next heq =>
    subst heq
    rw [hrow]
    refine ⟨fun r hr => ?_, fun hr => ?_⟩
    · cases hr
      exact hmoves
    · cases hr
  · next hne =>
    refine follows_same (fun r hr => Table.key_of_get hr) fun lease hlease heq => ?_
    exact hne (heq.symm.trans (hother lease hlease))

/-- What a call does to the row of each delivery. -/
theorem follows_step (o : ArtifactOutbox) (call : OutboxCall) (k : String × String) :
    Follows call (o.step call).2 k (o.deliveries.get k) ((o.step call).1.deliveries.get k) := by
  have hout := outcome_step o call
  generalize (o.step call).1 = o', (o.step call).2 = answer at hout ⊢
  cases hout with
  | refused x => exact follows_same (fun r hr => Table.key_of_get hr) fun _ hlease => nomatch hlease
  | known hcall hrow hpayload => exact follows_same (fun r hr => Table.key_of_get hr) fun _ hlease => nomatch hlease
  | idle => exact follows_same (fun r hr => Table.key_of_get hr) fun _ hlease => nomatch hlease
  | recorded hcall hnew hinsert =>
    obtain ⟨hkept, hplanned, -⟩ := insertDeliveries_ok hinsert
    refine ⟨fun row' hrow' => ?_, fun hnone => ⟨?_, fun _ hlease => nomatch hlease⟩⟩
    · rcases hplanned k row' hrow' with hold | ⟨hold, intent, -, rfl⟩
      · rw [hold]
        exact .same row' fun _ hlease => nomatch hlease
      · rw [hold]
        exact .planned _ _ intent rfl
    · cases hold : o.deliveries.get k with
      | none => rfl
      | some row => exact absurd (hkept k row hold) (by rw [hnone]; nofun)
  | claimed hkey htoken hrow hdue =>
    refine follows_update ?_ (fun lease hlease => ?_) hrow ?_
    · exact fun _ => rfl
    · cases hlease
      exact hkey
    · exact .leased _ rfl hkey htoken hdue
  | acknowledged hcall hlease =>
    obtain ⟨row, hrow, hstate, htoken⟩ := requireLease_ok_iff.mp hlease
    refine follows_update ?_ (fun lease hlease => ?_) hrow ?_
    · exact fun _ => rfl
    · cases hlease
    · exact .acknowledged row _ ⟨rfl, _, hcall, rfl, rfl⟩ (Table.key_of_get hrow).symm hstate htoken
  | requeued hcall hlease =>
    obtain ⟨row, hrow, hstate, htoken⟩ := requireLease_ok_iff.mp hlease
    refine follows_update ?_ (fun lease hlease => ?_) hrow ?_
    · exact fun _ => rfl
    · cases hlease
    · exact .requeued row _ _ ⟨rfl, _, hcall, rfl, rfl⟩ (Table.key_of_get hrow).symm hstate htoken

/-- The row of a delivery stays, moved. -/
theorem row_step (call : OutboxCall) {k : String × String} {row : StoredDelivery} (h : o.deliveries.get k = some row) :
    ∃ row', (o.step call).1.deliveries.get k = some row' ∧ Moves call (o.step call).2 (some row) row' := by
  obtain ⟨hmoves, hnone⟩ := follows_step o call k
  rw [h] at hmoves hnone
  cases hnext : (o.step call).1.deliveries.get k with
  | none => exact absurd (hnone hnext).1 nofun
  | some row' => exact ⟨row', rfl, hmoves row' hnext⟩

/-! ### Runs -/

/-- The outbox after some calls. -/
def after (calls : List OutboxCall) : ArtifactOutbox := runState step empty calls

def answerAt (pre : List OutboxCall) (call : OutboxCall) : Except OutboxError OutboxAnswer :=
  ((after pre).step call).2

/-- How often a delivery was claimed. -/
def claimsOf (h : List (OutboxCall × Except OutboxError OutboxAnswer)) (k : String × String) : Nat :=
  ((h.filterMap fun x => leaseOf x.2).filter (·.key = k)).length

/-- The times at which a lease handed out by `claim` is held: from the claim on until it runs out
or is given back by one of the calls that follow. -/
def HeldAt (claim : OutboxCall) (lease : LeasedArtifactDelivery)
    (following : List (OutboxCall × Except OutboxError OutboxAnswer)) (t : Int) : Prop :=
  claim.now.instant ≤ t ∧ t < lease.leaseExpiresAt.instant ∧
    ∀ x ∈ following, GivesBack x lease → t < x.1.now.instant

def Known (o : ArtifactOutbox) (artifact : ProductArtifact) : Prop :=
  (o.artifacts.get artifact.artifactId).map (·.payload) = some artifact.payload.dumpsUnicode

/-- The artifact is there, and so is every delivery it plans. -/
def Stored (o : ArtifactOutbox) (artifact : ProductArtifact) : Prop :=
  Known o artifact ∧
    ∀ intent ∈ artifact.deliveries,
      (o.deliveries.get (artifact.artifactId, intent.deliveryKey)).map (·.intent) = some intent

/-- The rules of the outbox in a run from an empty one. -/
structure Dependable (calls : List OutboxCall) : Prop where
  leased : ∀ k row, (after calls).deliveries.get k = some row →
    (row.state = .leased ↔ row.leaseToken.isSome = true) ∧
    (row.state = .leased ↔ row.leaseExpiresAt.isSome = true)
  delivered : ∀ k row, (after calls).deliveries.get k = some row →
    (row.state = .delivered ↔ row.deliveredAt.isSome = true)
  final : ∀ pre post, calls = pre ++ post → ∀ k row, (after pre).deliveries.get k = some row →
    row.state = .delivered → (after calls).deliveries.get k = some row
  attempts : ∀ k row, (after calls).deliveries.get k = some row →
    row.attempts = claimsOf (history step empty calls) k
  disjoint : ∀ pre c₁ mid c₂ post l₁ l₂, calls = pre ++ c₁ :: (mid ++ c₂ :: post) →
    leaseOf (answerAt pre c₁) = some l₁ → leaseOf (answerAt (pre ++ c₁ :: mid) c₂) = some l₂ →
    l₁.key = l₂.key → ∀ t,
    ¬ (HeldAt c₁ l₁ (history step (after (pre ++ [c₁])) (mid ++ c₂ :: post)) t ∧
      HeldAt c₂ l₂ (history step (after (pre ++ c₁ :: (mid ++ [c₂]))) post) t)
  /-- a report under the token of an earlier claim is refused and changes nothing -/
  superseded : ∀ pre c₁ mid c₂ post l₁ l₂, calls = pre ++ c₁ :: (mid ++ c₂ :: post) →
    leaseOf (answerAt pre c₁) = some l₁ → leaseOf (answerAt (pre ++ c₁ :: mid) c₂) = some l₂ →
    l₁.key = l₂.key → ∀ call d, call.presented = some d → d.key = l₁.key → d.leaseToken = l₁.leaseToken →
    ((after calls).step call).1 = after calls ∧ ∃ x, answerAt calls call = .error x
  whole : ∀ pre call post artifact recordedAt, calls = pre ++ call :: post →
    call.request = .record artifact recordedAt →
    after (pre ++ [call]) = after pre ∨
      answerAt pre call = .ok (.recorded true) ∧ Stored (after calls) artifact
  idempotent : ∀ pre call post artifact recordedAt new, calls = pre ++ call :: post →
    call.request = .record artifact recordedAt → answerAt pre call = .ok (.recorded new) →
    ∀ again recordedAgain, again.request = .record artifact recordedAgain →
    (orNow recordedAgain again.clock).aware = true →
    (after calls).step again = (after calls, .ok (.recorded false))

theorem after_append (pre post : List OutboxCall) :
    after (pre ++ post) = runState step (after pre) post :=
  runState_append step empty pre post

theorem after_snoc (pre : List OutboxCall) (call : OutboxCall) :
    after (pre ++ [call]) = ((after pre).step call).1 :=
  after_append pre [call]

/-! ### The columns of a row -/

theorem due_not_delivered {row : StoredDelivery} {now : String} (h : row.due now = true) :
    row.state ≠ .delivered := by
  intro hstate
  simp [StoredDelivery.due, hstate] at h

theorem Moves.coherent {answer : Except OutboxError OutboxAnswer} {row row' : StoredDelivery}
    (h : Moves call answer (some row) row') (hrow : row.Coherent) : row'.Coherent := by
  have hnone : row.state ≠ .delivered → row.deliveredAt = none := by
    intro hstate
    have hdelivered := hrow.delivered
    cases hat : row.deliveredAt with
    | none => rfl
    | some t => exact absurd (hdelivered.mpr (by rw [hat]; rfl)) hstate
  cases h with
  | same => exact hrow
  | leased _ _ _ _ hdue =>
    have hat := hnone (due_not_delivered hdue)
    refine ⟨?_, ?_, ?_⟩ <;> simp [StoredDelivery.leasedTo, hat]
  | acknowledged => refine ⟨?_, ?_, ?_⟩ <;> simp [StoredDelivery.acknowledged]
  | requeued _ _ _ _ _ hstate =>
    have hat := hnone (by rw [hstate]; decide)
    refine ⟨?_, ?_, ?_⟩ <;> simp [StoredDelivery.requeued, hat]

theorem planned_coherent (artifactId now : String) (intent : ArtifactDeliveryIntent) :
    (StoredDelivery.planned artifactId now intent).Coherent := by
  refine ⟨?_, ?_, ?_⟩ <;> simp [StoredDelivery.planned]

/-- Every row is coherent. -/
def AllCoherent (o : ArtifactOutbox) : Prop := ∀ k row, o.deliveries.get k = some row → row.Coherent

theorem allCoherent_step (h : AllCoherent o) (call : OutboxCall) : AllCoherent (o.step call).1 := by
  intro k row' hrow'
  have hmoves := (follows_step o call k).1 row' hrow'
  cases hold : o.deliveries.get k with
  | none =>
    rw [hold] at hmoves
    cases hmoves
    exact planned_coherent _ _ _
  | some row =>
    rw [hold] at hmoves
    exact hmoves.coherent (h k row hold)

theorem get_empty (k : String × String) : empty.deliveries.get k = none := rfl

theorem allCoherent_after (calls : List OutboxCall) : AllCoherent (after calls) := by
  refine run_invariant (P := AllCoherent) step (fun _ call h => allCoherent_step h call) ?_ calls
  intro k row hrow
  rw [get_empty] at hrow
  cases hrow

/-- A delivered row stays as it is. -/
theorem delivered_step {k : String × String} {row : StoredDelivery}
    (h : o.deliveries.get k = some row) (hstate : row.state = .delivered) :
    (o.step call).1.deliveries.get k = some row := by
  obtain ⟨row', hrow', hmoves⟩ := row_step call h
  rw [hrow']
  cases hmoves with
  | same => rfl
  | leased _ _ _ _ hdue => exact absurd hstate (due_not_delivered hdue)
  | acknowledged _ _ _ _ hleased => rw [hleased] at hstate; cases hstate
  | requeued _ _ _ _ _ hleased => rw [hleased] at hstate; cases hstate

/-! ### Attempts -/

/-- The attempts of a delivery are its claims, none where it has no row. -/
def Counted (h : List (OutboxCall × Except OutboxError OutboxAnswer)) (o : ArtifactOutbox) : Prop :=
  ∀ k, claimsOf h k = ((o.deliveries.get k).map (·.attempts)).getD 0

theorem claimsOf_snoc (h : List (OutboxCall × Except OutboxError OutboxAnswer))
    (x : OutboxCall × Except OutboxError OutboxAnswer) (k : String × String) :
    claimsOf (h ++ [x]) k =
      claimsOf h k + if ∃ lease, leaseOf x.2 = some lease ∧ lease.key = k then 1 else 0 := by
  cases hlease : leaseOf x.2 with
  | none => simp [claimsOf, hlease]
  | some lease =>
    by_cases hkey : lease.key = k <;> simp [claimsOf, hlease, hkey]

theorem counted_step {h : List (OutboxCall × Except OutboxError OutboxAnswer)} (hc : Counted h o)
    (call : OutboxCall) : Counted (h ++ [(call, (o.step call).2)]) (o.step call).1 := by
  intro k
  have hold := hc k
  obtain ⟨hmoves, hnone⟩ := follows_step o call k
  rw [claimsOf_snoc]
  cases hnext : (o.step call).1.deliveries.get k with
  | none =>
    obtain ⟨hnorow, hother⟩ := hnone hnext
    rw [hnorow] at hold
    rw [hold, if_neg]
    · rfl
    · rintro ⟨lease, hlease, hkey⟩
      exact hother lease hlease hkey
  | some row' =>
    have hrow' : row'.key = k := Table.key_of_get hnext
    have hmove := hmoves row' hnext
    generalize o.deliveries.get k = before at hold hmove
    rw [hold]
    cases hmove with
    | same row hother =>
      rw [if_neg]
      · rfl
      · rintro ⟨lease, hlease, hkey⟩
        exact hother lease hlease (hkey.trans hrow'.symm)
    | planned artifactId now intent hlease =>
      rw [if_neg]
      · rfl
      · rintro ⟨lease, hsome, -⟩
        rw [hlease] at hsome
        cases hsome
    | leased row hlease hkey =>
      rw [if_pos ⟨_, hlease, hkey.trans hrow'⟩]
      rfl
    | acknowledged row at' hback =>
      rw [if_neg]
      · rfl
      · rintro ⟨lease, hsome, -⟩
        rw [show (o.step call).2 = .ok .done from hback.1] at hsome
        cases hsome
    | requeued row error retryAt hback =>
      rw [if_neg]
      · rfl
      · rintro ⟨lease, hsome, -⟩
        rw [show (o.step call).2 = .ok .done from hback.1] at hsome
        cases hsome

theorem counted_after (calls : List OutboxCall) : Counted (history step empty calls) (after calls) := by
  have hempty : Counted [] empty := fun k => rfl
  exact run_history_invariant (P := Counted) step (fun h o call hc => counted_step hc call) hempty calls

/-! ### Leases -/

section
variable (lease : LeasedArtifactDelivery)

/-- The row of a delivery as the claim under `lease` left it. -/
def LeasedUnder (row : StoredDelivery) : Prop :=
  row.state = .leased ∧ row.leaseToken = some lease.leaseToken ∧
    row.leaseExpiresAt = some lease.leaseExpiresAt.isoformat

/-- A lease still holds, or an accepted report or the time of a later claim has ended it. -/
def HeldOrEnded (h : List (OutboxCall × Except OutboxError OutboxAnswer)) (o : ArtifactOutbox) : Prop :=
  (∃ x ∈ h, GivesBack x lease) ∨
  (∃ x ∈ h, lease.leaseExpiresAt.instant ≤ x.1.now.instant) ∨
  ∃ row, o.deliveries.get lease.key = some row ∧ LeasedUnder lease row

variable {lease}

/-- The row of a held lease is taken only once its time is up. -/
theorem expired_of_due {row : StoredDelivery} {now : UtcTime} (h : LeasedUnder lease row)
    (hdue : row.due now.isoformat = true) : lease.leaseExpiresAt.instant ≤ now.instant := by
  obtain ⟨hstate, -, hexpires⟩ := h
  have htext : lease.leaseExpiresAt.isoformat ≤ now.isoformat := by
    simpa [StoredDelivery.due, hstate, hexpires] using hdue
  exact UtcTime.isoformat_le_iff.mp htext

theorem givesBack_of_token {x : OutboxCall × Except OutboxError OutboxAnswer} {d : LeasedArtifactDelivery}
    (hback : GivesBack x d) (hkey : d.key = lease.key) (htoken : d.leaseToken = lease.leaseToken) :
    GivesBack x lease := by
  obtain ⟨hdone, d', hcall, hkey', htoken'⟩ := hback
  exact ⟨hdone, d', hcall, hkey'.trans hkey, htoken'.trans htoken⟩

theorem heldOrEnded_step {h : List (OutboxCall × Except OutboxError OutboxAnswer)}
    (hl : HeldOrEnded lease h o) (call : OutboxCall) :
    HeldOrEnded lease (h ++ [(call, (o.step call).2)]) (o.step call).1 := by
  have hlast : (call, (o.step call).2) ∈ h ++ [(call, (o.step call).2)] := by simp
  rcases hl with ⟨x, hx, hback⟩ | ⟨x, hx, hexpired⟩ | ⟨row, hrow, hunder⟩
  · exact .inl ⟨x, List.mem_append_left _ hx, hback⟩
  · exact .inr (.inl ⟨x, List.mem_append_left _ hx, hexpired⟩)
  · have hkey : row.key = lease.key := Table.key_of_get hrow
    have hended : ∀ d : LeasedArtifactDelivery, GivesBack (call, (o.step call).2) d → d.key = row.key →
        row.leaseToken = some d.leaseToken → GivesBack (call, (o.step call).2) lease := by
      intro d hback hd htoken
      have hsame : lease.leaseToken = d.leaseToken := Option.some.inj (hunder.2.1.symm.trans htoken)
      exact givesBack_of_token hback (hd.trans hkey) hsame.symm
    obtain ⟨row', hrow', hmoves⟩ := row_step call hrow
    cases hmoves with
    | same => exact .inr (.inr ⟨row, hrow', hunder⟩)
    | leased _ _ _ _ hdue => exact .inr (.inl ⟨_, hlast, expired_of_due hunder hdue⟩)
    | acknowledged _ _ hback hd _ htoken => exact .inl ⟨_, hlast, hended _ hback hd htoken⟩
    | requeued _ _ _ hback hd _ htoken => exact .inl ⟨_, hlast, hended _ hback hd htoken⟩

/-- A call that hands out a lease leaves the row of its delivery leased under it. -/
theorem leasedUnder_of_leaseOf (h : leaseOf (o.step call).2 = some lease) :
    call.freshToken = some lease.leaseToken ∧
    (∃ row', (o.step call).1.deliveries.get lease.key = some row' ∧ LeasedUnder lease row') ∧
    ∃ row, o.deliveries.get lease.key = some row ∧ row.due call.now.isoformat = true := by
  obtain ⟨hmoves, hnone⟩ := follows_step o call lease.key
  cases hnext : (o.step call).1.deliveries.get lease.key with
  | none => exact absurd rfl ((hnone hnext).2 lease h)
  | some row' =>
    have hkey : row'.key = lease.key := Table.key_of_get hnext
    have hmove := hmoves row' hnext
    cases hold : o.deliveries.get lease.key with
    | none =>
      rw [hold] at hmove
      cases hmove with
      | planned _ _ _ hlease => rw [hlease] at h; cases h
    | some row =>
      rw [hold] at hmove
      cases hmove with
      | same _ hother => exact absurd hkey.symm (hother lease h)
      | leased _ hlease _ htoken hdue =>
        rw [h] at hlease
        cases hlease
        exact ⟨htoken, ⟨_, rfl, rfl, rfl, rfl⟩, row, rfl, hdue⟩
      | acknowledged _ _ hback =>
        rw [show (o.step call).2 = .ok .done from hback.1] at h
        cases h
      | requeued _ _ _ hback =>
        rw [show (o.step call).2 = .ok .done from hback.1] at h
        cases h

/-- From the claim of a lease to another claim of its delivery, it was given back or its time is up. -/
theorem ended_of_claimed {pre mid : List OutboxCall} {c₁ c₂ : OutboxCall} {l₁ l₂ : LeasedArtifactDelivery}
    (h₁ : leaseOf (answerAt pre c₁) = some l₁) (h₂ : leaseOf (answerAt (pre ++ c₁ :: mid) c₂) = some l₂)
    (hkey : l₁.key = l₂.key) (htimes : ∀ c ∈ mid, c.now.instant ≤ c₂.now.instant) :
    (∃ x ∈ history step (after (pre ++ [c₁])) mid, GivesBack x l₁) ∨
      l₁.leaseExpiresAt.instant ≤ c₂.now.instant := by
  obtain ⟨-, hheld, -⟩ := leasedUnder_of_leaseOf h₁
  obtain ⟨-, -, row, hrow, hdue⟩ := leasedUnder_of_leaseOf h₂
  have hstart : HeldOrEnded l₁ [] (after (pre ++ [c₁])) := by
    rw [after_snoc]
    exact .inr (.inr hheld)
  have hsplit : after (pre ++ c₁ :: mid) = runState step (after (pre ++ [c₁])) mid := by
    rw [← after_append, List.append_assoc]
    rfl
  have hrun := run_history_invariant (P := HeldOrEnded l₁) step
    (fun h o call hl => heldOrEnded_step hl call) hstart mid
  rw [List.nil_append, ← hsplit] at hrun
  rcases hrun with hback | ⟨x, hx, hexpired⟩ | ⟨row', hrow', hunder⟩
  · exact .inl hback
  · have hcall : x.1 ∈ mid := by
      rw [← history_map_fst step (after (pre ++ [c₁])) mid]
      exact List.mem_map_of_mem hx
    exact .inr (hexpired.trans (htimes x.1 hcall))
  · rw [hkey, hrow] at hrow'
    cases hrow'
    exact .inr (expired_of_due hunder hdue)

/-- The row of a delivery has another token, or none. -/
def Unheld (k : String × String) (token : String) (o : ArtifactOutbox) : Prop :=
  ∀ row, o.deliveries.get k = some row → row.leaseToken ≠ some token

theorem unheld_step {k : String × String} {token : String} (h : Unheld k token o)
    (hfresh : call.freshToken ≠ some token) : Unheld k token (o.step call).1 := by
  intro row' hrow'
  have hmove := (follows_step o call k).1 row' hrow'
  cases hold : o.deliveries.get k with
  | none =>
    rw [hold] at hmove
    cases hmove
    exact nofun
  | some row =>
    rw [hold] at hmove
    cases hmove with
    | same => exact h row' hold
    | leased _ _ _ htoken =>
      rw [htoken] at hfresh
      exact hfresh
    | acknowledged => exact nofun
    | requeued => exact nofun

/-- A report under a token its delivery does not have. -/
theorem step_of_unheld {d : LeasedArtifactDelivery} (h : Unheld d.key d.leaseToken o)
    (hcall : call.presented = some d) : (o.step call).1 = o ∧ ∃ x, (o.step call).2 = .error x := by
  have hrefused : o.requireLease d ≠ .ok () := by
    intro hlease
    obtain ⟨row, hrow, -, htoken⟩ := requireLease_ok_iff.mp hlease
    exact h row hrow htoken
  obtain ⟨x, hx⟩ : ∃ x, o.requireLease d = .error x := by
    cases hlease : o.requireLease d with
    | error x => exact ⟨x, rfl⟩
    | ok u => exact absurd hlease hrefused
  cases hrequest : call.request with
  | record artifact recordedAt => simp [OutboxCall.presented, hrequest] at hcall
  | claimNext now leaseDuration artifactId uuid => simp [OutboxCall.presented, hrequest] at hcall
  | acknowledge d' deliveredAt =>
    obtain rfl : d' = d := by simpa [OutboxCall.presented, hrequest] using hcall
    rw [step, hrequest]
    dsimp only
    unfold acknowledge
    split
    · exact ⟨rfl, _, rfl⟩
    · rw [hx]
      exact ⟨rfl, x, rfl⟩
  | retry d' error retryAt =>
    obtain rfl : d' = d := by simpa [OutboxCall.presented, hrequest] using hcall
    rw [step, hrequest]
    dsimp only
    unfold retry
    split
    · exact ⟨rfl, _, rfl⟩
    split
    · exact ⟨rfl, _, rfl⟩
    · rw [hx]
      exact ⟨rfl, x, rfl⟩

/-- A token is superseded by a later claim of its delivery, for good. -/
theorem unheld_of_claimed {pre mid post : List OutboxCall} {c₁ c₂ : OutboxCall}
    {l₁ l₂ : LeasedArtifactDelivery} (h₂ : leaseOf (answerAt (pre ++ c₁ :: mid) c₂) = some l₂)
    (hkey : l₁.key = l₂.key) (hfresh : ∀ c ∈ c₂ :: post, c.freshToken ≠ some l₁.leaseToken) :
    Unheld l₁.key l₁.leaseToken (after (pre ++ c₁ :: (mid ++ c₂ :: post))) := by
  obtain ⟨htoken, ⟨row, hrow, -, hrowToken, -⟩, -⟩ := leasedUnder_of_leaseOf h₂
  have hsplit : pre ++ c₁ :: (mid ++ c₂ :: post) = (pre ++ c₁ :: mid) ++ (c₂ :: post) := by simp
  rw [hsplit, after_append, runState_cons]
  have hstart : Unheld l₁.key l₁.leaseToken ((after (pre ++ c₁ :: mid)).step c₂).1 := by
    intro row' hrow'
    rw [hkey, hrow] at hrow'
    cases hrow'
    rw [hrowToken, ← htoken]
    exact hfresh c₂ List.mem_cons_self
  have hadmissible : Admissible step (fun _ c => c.freshToken ≠ some l₁.leaseToken)
      ((after (pre ++ c₁ :: mid)).step c₂).1 post :=
    admissible_of_forall step (fun c hc _ => hfresh c (List.mem_cons_of_mem c₂ hc)) _
  exact run_guarded (P := Unheld l₁.key l₁.leaseToken) step (fun _ _ h hok => unheld_step h hok) hstart
    hadmissible

end

/-! ### Artifacts -/

theorem known_step {artifact : ProductArtifact} (h : Known o artifact) (call : OutboxCall) :
    Known (o.step call).1 artifact := by
  have hout := outcome_step o call
  generalize (o.step call).1 = o', (o.step call).2 = answer at hout ⊢
  cases hout with
  | recorded hcall hnew hinsert =>
    unfold Known at h ⊢
    rw [Table.get_put]
    split
    · next heq =>
      have hsame : o.artifacts.get artifact.artifactId = none := by
        rw [heq]
        exact hnew
      rw [hsame] at h
      cases h
    · exact h
  | refused | known | idle | claimed | acknowledged | requeued => exact h

theorem stored_step {artifact : ProductArtifact} (h : Stored o artifact) (call : OutboxCall) :
    Stored (o.step call).1 artifact := by
  refine ⟨known_step h.1 call, fun intent hintent => ?_⟩
  obtain ⟨row, hrow, hplanned⟩ := Option.map_eq_some_iff.mp (h.2 intent hintent)
  obtain ⟨row', hrow', hmoves⟩ := row_step call hrow
  rw [hrow', Option.map_some]
  cases hmoves with
  | same | leased | acknowledged | requeued => exact congrArg some hplanned

theorem known_after {pre : List OutboxCall} {artifact : ProductArtifact}
    (h : Known (after pre) artifact) (post : List OutboxCall) : Known (after (pre ++ post)) artifact := by
  rw [after_append]
  exact run_invariant (P := fun o => Known o artifact) step (fun _ call h => known_step h call) h post

theorem stored_after {pre : List OutboxCall} {artifact : ProductArtifact}
    (h : Stored (after pre) artifact) (post : List OutboxCall) : Stored (after (pre ++ post)) artifact := by
  rw [after_append]
  exact run_invariant (P := fun o => Stored o artifact) step (fun _ call h => stored_step h call) h post

/-- `record` stores an artifact with all its deliveries, or nothing. -/
theorem record_whole {artifact : ProductArtifact} {recordedAt : Option SourceTime}
    (hcall : call.request = .record artifact recordedAt) :
    (o.step call).1 = o ∨ (o.step call).2 = .ok (.recorded true) ∧ Stored (o.step call).1 artifact := by
  have hrequest : ∀ a t, call.request = .record a t → a = artifact := by
    intro a t h
    rw [hcall] at h
    cases h
    rfl
  have hnoreport : call.presented = none := by rw [OutboxCall.presented, hcall]
  have hnoclaim : call.freshToken = none := by rw [OutboxCall.freshToken, hcall]
  have hout := outcome_step o call
  generalize (o.step call).1 = o', (o.step call).2 = answer at hout ⊢
  cases hout with
  | refused | known | idle => exact .inl rfl
  | recorded hrecord hnew hinsert =>
    obtain rfl := hrequest _ _ hrecord
    obtain ⟨-, -, hall⟩ := insertDeliveries_ok hinsert
    refine .inr ⟨rfl, ?_, fun intent hintent => ?_⟩
    · rw [Known, Table.get_put, if_pos]
      · rfl
      · rfl
    · rw [hall intent hintent]
      rfl
  | claimed _ htoken => rw [hnoclaim] at htoken; cases htoken
  | acknowledged hpresented => rw [hnoreport] at hpresented; cases hpresented
  | requeued hpresented => rw [hnoreport] at hpresented; cases hpresented

theorem known_of_recorded {artifact : ProductArtifact} {recordedAt : Option SourceTime} {new : Bool}
    (hcall : call.request = .record artifact recordedAt) (h : (o.step call).2 = .ok (.recorded new)) :
    Known (o.step call).1 artifact := by
  have hout := outcome_step o call
  generalize (o.step call).1 = o', (o.step call).2 = answer at hout h ⊢
  cases hout with
  | known hrecord hrow hpayload =>
    rw [hcall] at hrecord
    cases hrecord
    rw [Known, hrow, Option.map_some, hpayload]
  | recorded hrecord hnew =>
    rw [hcall] at hrecord
    cases hrecord
    rw [Known, Table.get_put, if_pos]
    · rfl
    · rfl
  | refused | idle | claimed | acknowledged | requeued => cases h

/-- A known artifact is not stored again, whatever time it is recorded at. -/
theorem record_known {artifact : ProductArtifact} {recordedAt : Option SourceTime}
    (h : Known o artifact) (hcall : call.request = .record artifact recordedAt)
    (haware : (orNow recordedAt call.clock).aware = true) : o.step call = (o, .ok (.recorded false)) := by
  obtain ⟨row, hrow, hpayload⟩ := Option.map_eq_some_iff.mp h
  rw [step, hcall]
  simp only [record, inUtc, haware, if_true, hrow, hpayload, ne_eq, not_true_eq_false, if_false]
  rfl

/-! ### The rules in every run -/

/-- A token that a call may hand out is handed out by no other. -/
theorem freshToken_ne {calls pre mid : List OutboxCall} {c₁ : OutboxCall}
    (hfresh : (calls.filterMap (·.freshToken)).Nodup) (hsplit : calls = pre ++ c₁ :: mid)
    {token : String} (htoken : c₁.freshToken = some token) : ∀ c ∈ mid, c.freshToken ≠ some token := by
  intro c hc hsame
  rw [hsplit, List.filterMap_append, List.filterMap_cons_some htoken] at hfresh
  have hcons := (List.nodup_append.mp hfresh).2.1
  exact (List.nodup_cons.mp hcons).1 (List.mem_filterMap.mpr ⟨c, hc, hsame⟩)

/-- Every run with fresh tokens, at times that do not decrease. -/
theorem outbox_dependable (calls : List OutboxCall) (hfresh : (calls.filterMap (·.freshToken)).Nodup)
    (htimes : (calls.map (·.now.instant)).Pairwise (· ≤ ·)) : Dependable calls where
  leased k row hrow := ⟨(allCoherent_after calls k row hrow).token, (allCoherent_after calls k row hrow).expiry⟩
  delivered k row hrow := (allCoherent_after calls k row hrow).delivered
  final := by
    intro pre post hcalls k row hrow hstate
    rw [hcalls, after_append]
    exact run_invariant (P := fun o => o.deliveries.get k = some row) step
      (fun _ _ h => delivered_step h hstate) hrow post
  attempts := by
    intro k row hrow
    rw [counted_after calls k, hrow]
    rfl
  disjoint := by
    intro pre c₁ mid c₂ post l₁ l₂ hcalls h₁ h₂ hkey t hboth
    obtain ⟨⟨-, hbefore, hback⟩, hsince, -⟩ := hboth
    have hmid : ∀ c ∈ mid, c.now.instant ≤ c₂.now.instant := by
      intro c hc
      rw [hcalls, List.map_append, List.map_cons, List.map_append, List.map_cons] at htimes
      have htail := (List.pairwise_cons.mp (List.pairwise_append.mp htimes).2.1).2
      exact (List.pairwise_append.mp htail).2.2 _ (List.mem_map_of_mem hc) _ List.mem_cons_self
    rcases ended_of_claimed h₁ h₂ hkey hmid with ⟨x, hx, hgiven⟩ | hexpired
    · have hcall : x.1 ∈ mid := by
        rw [← history_map_fst step (after (pre ++ [c₁])) mid]
        exact List.mem_map_of_mem hx
      have hlater := hback x (by rw [history_append]; exact List.mem_append_left _ hx) hgiven
      have hle := hmid x.1 hcall
      omega
    · omega
  superseded := by
    intro pre c₁ mid c₂ post l₁ l₂ hcalls h₁ h₂ hkey call d hcall hd htoken
    obtain ⟨hfirst, -, -⟩ := leasedUnder_of_leaseOf h₁
    have hothers := freshToken_ne hfresh hcalls hfirst
    have hunheld := unheld_of_claimed h₂ hkey fun c hc => hothers c (List.mem_append_right mid hc)
    rw [← hcalls, ← hd, ← htoken] at hunheld
    exact step_of_unheld hunheld hcall
  whole := by
    intro pre call post artifact recordedAt hcalls hcall
    rw [after_snoc]
    rcases record_whole (o := after pre) hcall with hsame | ⟨hanswer, hstored⟩
    · exact .inl hsame
    · have hsplit : calls = (pre ++ [call]) ++ post := by rw [hcalls, List.append_assoc]; rfl
      rw [← after_snoc] at hstored
      rw [hsplit]
      exact .inr ⟨hanswer, stored_after hstored post⟩
  idempotent := by
    intro pre call post artifact recordedAt new hcalls hcall hanswer again recordedAgain hagain haware
    have hknown := known_of_recorded hcall hanswer
    have hsplit : calls = (pre ++ [call]) ++ post := by rw [hcalls, List.append_assoc]; rfl
    rw [← after_snoc] at hknown
    rw [hsplit]
    exact record_known (known_after hknown post) hagain haware

/-- Noon of a day, some minutes later. -/
def noon (minutes : Nat) (h : minutes ≤ 59) : UtcTime :=
  ⟨2026, 9, 9, 12, minutes, 0, 0, by decide, by omega⟩

def onePayload : ProductArtifact :=
  { artifactId := "artifact:1", product := "pr-guardian", scopeId := "pr:1", correlationId := "corr-1"
    contextVersion := "v1", valid := by decide +kernel
    deliveries := [⟨"check", .githubCheck, "delivery:1:check", (Json.obj []).dumpsUnicode,
      by decide +kernel, ⟨[], rfl⟩, by decide +kernel⟩]
    count := by decide
    sorted := by rfl
    deliveryKeys := by simp
    idempotencyKeys := by simp }

def hexOf (c : Char) (h : c.isDigit = true) : UuidHex :=
  ⟨String.ofList (List.replicate 32 c), by simp [h]⟩

/-- A lease that runs out, its recovery by another worker and a record that is repeated. -/
def recovered : List OutboxCall :=
  [⟨noon 0 (by decide), .record onePayload none⟩,
    ⟨noon 0 (by decide), .claimNext none 60000000 none (hexOf '0' (by decide))⟩,
    ⟨noon 1 (by decide), .claimNext none 60000000 none (hexOf '1' (by decide))⟩,
    ⟨noon 2 (by decide), .record onePayload none⟩]

theorem recovered_dependable : Dependable recovered :=
  outbox_dependable recovered (by decide) (by decide)

end ArtifactOutbox

end EngineeringIntelligence.CompanyBrain
