import EngineeringIntelligence.CompanyBrain.OutboxRuns
import EngineeringIntelligence.PrGuardian.Publication

namespace EngineeringIntelligence.PrGuardian

open EngineeringIntelligence.Framework EngineeringIntelligence.CompanyBrain EngineeringIntelligence.Ingestion

/-! ### Artifacts and what their deliveries ask for -/

section
variable {sha256 floatRepr : String → String} {repository : String} {number : Int}

theorem deliveryIntent_eq_some {deliveryKey idempotencyKey : String} {channel : ArtifactDeliveryChannel}
    {payload : List (String × Json)} {intent : ArtifactDeliveryIntent}
    (h : deliveryIntent deliveryKey channel idempotencyKey payload = some intent) :
    intent.channel = channel ∧ intent.payloadJson = (Json.obj payload).dumpsUnicode := by
  unfold deliveryIntent at h
  split at h
  · split at h
    · cases h
      exact ⟨rfl, rfl⟩
    · cases h
  · cases h

/-- A review is published as a check and a comment. -/
theorem reviewArtifact_deliveries {review : ReviewPresentation} {artifact : ProductArtifact}
    (h : reviewArtifact sha256 repository number review = some artifact) :
    (1 ≤ number ∧ number ≤ 1000000000) ∧ ∃ check comment, artifact.deliveries = [check, comment] ∧
      check.channel = .githubCheck ∧ comment.channel = .githubComment ∧
      comment.payloadJson = (Json.obj (review.commentPayload repository number)).dumpsUnicode := by
  unfold reviewArtifact at h
  split at h
  · next hnumber =>
    refine ⟨hnumber, ?_⟩
    simp only [Option.bind_eq_bind, Option.bind_eq_some_iff] at h
    obtain ⟨check, hcheck, comment, hcomment, header, -, h⟩ := h
    split at h
    · split at h
      · cases h
        obtain ⟨hchannel, hpayload⟩ := deliveryIntent_eq_some hcomment
        exact ⟨check, comment, rfl, (deliveryIntent_eq_some hcheck).1, hchannel, hpayload⟩
      · cases h
    · cases h
  · cases h

theorem readable_commentPayload (review : ReviewPresentation) (h : 1 ≤ number ∧ number ≤ 1000000000) :
    Json.Readable floatRepr (.obj (review.commentPayload repository number)) := by
  have hnumber : Json.Readable floatRepr (.int number) := Json.readable_int floatRepr (by omega)
  refine ⟨by simp [ReviewPresentation.commentPayload], (Json.readableFields_iff floatRepr).mpr ?_⟩
  simp only [ReviewPresentation.commentPayload, List.mem_cons, List.not_mem_nil, or_false, forall_eq_or_imp, forall_eq]
  exact ⟨trivial, hnumber, trivial⟩

/-- A delivery asks for a check, or for the comment of the review on its pull request. -/
theorem deliver_of_review {review : ReviewPresentation} {artifact : ProductArtifact}
    (h : reviewArtifact sha256 repository number review = some artifact) {intent : ArtifactDeliveryIntent}
    (hintent : intent ∈ artifact.deliveries) {call : GitHubCall} (hcall : deliver floatRepr intent = .ok call) :
    (intent.channel = .githubCheck ∧ ∃ r s n c t m x, call = .check r s n c t m x) ∨
      (intent.channel = .githubComment ∧ call = .comment repository number review.summary) := by
  obtain ⟨hnumber, check, comment, hdeliveries, hcheck, hcomment, hpayload⟩ := reviewArtifact_deliveries h
  rw [hdeliveries, List.mem_cons, List.mem_singleton] at hintent
  simp only [deliver, bind_eq_ok_iff] at hcall
  obtain ⟨payload, hread, hcall⟩ := hcall
  rcases hintent with hintent | hintent
  · rw [hintent, hcheck] at hcall
    simp only [bind_eq_ok_iff, Except.ok.injEq] at hcall
    obtain ⟨r, -, s, -, n, -, c, -, t, -, m, -, hcall⟩ := hcall
    refine .inl ⟨by rw [hintent, hcheck], r, s, n, c, t, m, _, hcall.symm⟩
  · refine .inr ⟨by rw [hintent, hcomment], ?_⟩
    have hreadable : Json.Readable floatRepr (.obj (review.commentPayload repository number)) :=
      readable_commentPayload review hnumber
    obtain ⟨fields, hloads, hget⟩ := Json.loads_obj floatRepr hreadable
    rw [hintent, hpayload, storedPayload, hloads] at hread
    cases hread
    have hrepository : Json.get payload "repository" = .str repository := by
      rw [hget]
      simp [ReviewPresentation.commentPayload, Json.get, Json.sortKeys]
    have hprNumber : Json.get payload "pr_number" = .int number := by
      rw [hget]
      simp [ReviewPresentation.commentPayload, Json.get, List.lookup_cons, Json.sortKeys]
    have hbody : Json.get payload "body" = .str review.summary := by
      rw [hget]
      simp [ReviewPresentation.commentPayload, Json.get, List.lookup_cons, Json.sortKeys]
    rw [hintent, hcomment] at hcall
    simp only [bind_eq_ok_iff, storedText, storedPositiveInt, hrepository, hprNumber, hbody, ite_error_eq_ok_iff,
      Except.ok.injEq] at hcall
    obtain ⟨_, ⟨-, rfl⟩, _, ⟨-, rfl⟩, _, ⟨-, rfl⟩, hcall⟩ := hcall
    exact hcall.symm

end

/-! ### The methods of the outbox -/

section
variable {o : ArtifactOutbox}

/-- `record` stores an artifact under a new id with its deliveries, or leaves everything as it was. -/
theorem record_spec (artifact : ProductArtifact) (recordedAt : Option SourceTime) (clock : UtcTime) :
    (∃ answer, o.record artifact recordedAt clock = (o, answer) ∧ answer ≠ .ok true) ∨
      ∃ stored now deliveries, o.artifacts.get artifact.artifactId = none ∧
        StoredArtifact.key stored = artifact.artifactId ∧
        artifact.deliveries.foldlM (insertDelivery artifact.artifactId now) o.deliveries = .ok deliveries ∧
        o.record artifact recordedAt clock = (⟨o.artifacts.put stored, deliveries⟩, .ok true) := by
  unfold ArtifactOutbox.record
  split
  · exact .inl ⟨_, rfl, fun h => by cases h⟩
  · next now _ =>
    split
    · split
      · exact .inl ⟨_, rfl, fun h => by cases h⟩
      · exact .inl ⟨_, rfl, fun h => by cases h⟩
    · next hnew =>
      split
      · exact .inl ⟨_, rfl, fun h => by cases h⟩
      · next deliveries hinsert => exact .inr ⟨_, _, deliveries, hnew, rfl, hinsert, rfl⟩

/-- What `claim_next` leaves of the rows, and the lease it hands out. -/
theorem claimNext_spec (now : Option SourceTime) (leaseDuration : Int) (artifactId : Option String) (uuid : UuidHex)
    (clock : UtcTime) :
    (∃ answer, o.claimNext now leaseDuration artifactId uuid clock = (o, answer) ∧
        ∀ lease, answer ≠ .ok (some lease)) ∨
      ∃ row lease token expires, o.deliveries.get row.key = some row ∧
        lease.artifactId = row.artifactId ∧ lease.intent = row.intent ∧
        o.claimNext now leaseDuration artifactId uuid clock =
          (⟨o.artifacts, o.deliveries.update row.key (.leasedTo token expires) fun _ => rfl⟩,
            .ok (some lease)) := by
  unfold ArtifactOutbox.claimNext
  split
  · exact .inl ⟨_, rfl, fun _ h => by cases h⟩
  split
  · exact .inl ⟨_, rfl, fun _ h => by cases h⟩
  split
  · exact .inl ⟨_, rfl, fun _ h => by cases h⟩
  next current _ =>
    unfold ArtifactOutbox.leaseNextDue
    split
    · exact .inl ⟨_, rfl, fun _ h => by cases h⟩
    · next artifact row hnext =>
      obtain ⟨hrow, hartifact, -, -⟩ := ArtifactOutbox.nextDue_spec hnext
      cases current.add leaseDuration.toNat with
      | none => exact .inl ⟨_, rfl, fun _ h => by cases h⟩
      | some leaseExpiresAt =>
        have hkey : StoredArtifact.key artifact = row.artifactId := Table.key_of_get hartifact
        exact .inr ⟨row, row.lease artifact.header uuid leaseExpiresAt, _, _, hrow, hkey, rfl, rfl⟩

theorem acknowledge_spec (d : LeasedArtifactDelivery) (deliveredAt : Option SourceTime) (clock : UtcTime) :
    (o.acknowledge d deliveredAt clock).1 = o ∨ ∃ time, (o.acknowledge d deliveredAt clock).1 =
      ⟨o.artifacts, o.deliveries.update d.key (.acknowledged time) fun _ => rfl⟩ := by
  unfold ArtifactOutbox.acknowledge
  split
  · exact .inl rfl
  split
  · exact .inl rfl
  · exact .inr ⟨_, rfl⟩

theorem retry_spec (d : LeasedArtifactDelivery) (error : String) (retryAt : SourceTime) :
    (o.retry d error retryAt).1 = o ∨ ∃ time, (o.retry d error retryAt).1 =
      ⟨o.artifacts, o.deliveries.update d.key (.requeued error time) fun _ => rfl⟩ := by
  unfold ArtifactOutbox.retry
  split
  · exact .inl rfl
  split
  · exact .inl rfl
  split
  · exact .inl rfl
  · exact .inr ⟨_, rfl⟩

end

/-! ### What holds in a run -/

namespace Publications

def ids (s : Publications) : List String := s.recorded.map fun r => r.artifact.artifactId

/-- The place of an artifact in the order of recording. -/
def position (s : Publications) (artifactId : String) : Nat := s.ids.idxOf artifactId

end Publications

section
variable (sha256 floatRepr : String → String) (repository : String) (number : Int)

/-- Once every recorded delivery is delivered the sticky comment is that of the artifact recorded last, and no
comment is ever written over that of an artifact recorded later. -/
structure InRecordingOrder (s : Publications) : Prop where
  settled : (∀ row ∈ s.outbox.deliveries.rows, row.state = .delivered) →
    ∀ last, s.recorded.getLast? = some last →
      s.comment = some (markedBody stickyMarker last.review.summary)
  kept : s.sent.Pairwise fun before after => s.position before ≤ s.position after

/-- When GitHub takes the comment of an artifact, it has not yet taken one of an artifact recorded later. -/
def SentInTurn (s : Publications) : PublicationMove → Prop
  | .send index _ => ∀ attempt, s.attempts[index]? = some attempt → attempt.phase = .leased →
      ∀ body, deliver floatRepr attempt.lease.intent = .ok (.comment repository number body) →
        ∀ id ∈ s.sent, s.position id ≤ s.position attempt.lease.artifactId
  | _ => True

/-- A delivery is one of a recorded artifact. -/
def Publications.Planned (s : Publications) (artifactId : String) (intent : ArtifactDeliveryIntent) : Prop :=
  ∃ r ∈ s.recorded, r.artifact.artifactId = artifactId ∧ intent ∈ r.artifact.deliveries

structure PublicationInvariant (s : Publications) : Prop where
  distinct : s.ids.Nodup
  built : ∀ r ∈ s.recorded, reviewArtifact sha256 repository number r.review = some r.artifact
  known : ∀ r ∈ s.recorded, (s.outbox.artifacts.get r.artifact.artifactId).isSome
  stored : ∀ r ∈ s.recorded, ∀ intent ∈ r.artifact.deliveries,
    (s.outbox.deliveries.get (r.artifact.artifactId, intent.deliveryKey)).isSome
  rows : ∀ k row, s.outbox.deliveries.get k = some row → s.Planned row.artifactId row.intent ∧
    (row.state = .delivered → row.intent.channel = .githubComment → row.artifactId ∈ s.sent)
  held : ∀ t ∈ s.attempts, s.Planned t.lease.artifactId t.lease.intent ∧
    (t.phase = .returned → t.lease.intent.channel = .githubComment → t.lease.artifactId ∈ s.sent)
  sent : ∀ id ∈ s.sent, id ∈ s.ids
  shown : ∀ id, s.sent.getLast? = some id → ∃ r ∈ s.recorded, r.artifact.artifactId = id ∧
    s.comment = some (markedBody stickyMarker r.review.summary)
  ordered : s.sent.Pairwise fun before after => s.position before ≤ s.position after

end

section
variable {sha256 floatRepr : String → String} {repository : String} {number : Int} {s : Publications}

/-- A key of a recorded artifact names one delivery. -/
theorem PublicationInvariant.intent_eq (h : PublicationInvariant sha256 repository number s) {artifactId : String}
    {i j : ArtifactDeliveryIntent} (hi : s.Planned artifactId i) (hj : s.Planned artifactId j)
    (hkey : i.deliveryKey = j.deliveryKey) : i = j := by
  obtain ⟨r, hr, hid, hi⟩ := hi
  obtain ⟨r', hr', hid', hj⟩ := hj
  have hsame : r = r' := List.inj_on_of_nodup_map h.distinct hr hr' (hid.trans hid'.symm)
  rw [← hsame] at hj
  exact List.inj_on_of_nodup_map r.artifact.deliveryKeys hi hj hkey

/-- The artifact recorded last comes last. -/
theorem PublicationInvariant.last_position (h : PublicationInvariant sha256 repository number s)
    {last r : RecordedReview} (hlast : s.recorded.getLast? = some last) (hr : r ∈ s.recorded)
    (hle : s.position last.artifact.artifactId ≤ s.position r.artifact.artifactId) : r = last := by
  obtain ⟨before, hsplit⟩ := List.getLast?_eq_some_iff.mp hlast
  have hids : s.ids = before.map (fun r => r.artifact.artifactId) ++ [last.artifact.artifactId] := by
    rw [Publications.ids, hsplit, List.map_append, List.map_singleton]
  have hdistinct := h.distinct
  rw [hids, List.nodup_append] at hdistinct
  have hnew : last.artifact.artifactId ∉ before.map fun r => r.artifact.artifactId := by
    intro hmem
    exact hdistinct.2.2 _ hmem _ List.mem_cons_self rfl
  rw [hsplit, List.mem_append, List.mem_singleton] at hr
  rcases hr with hr | hr
  · have hmem : r.artifact.artifactId ∈ before.map fun r => r.artifact.artifactId := List.mem_map_of_mem hr
    have hlt := List.idxOf_lt_length_iff.mpr hmem
    rw [Publications.position, Publications.position, hids, List.idxOf_append_of_mem hmem,
      List.idxOf_append_of_notMem hnew] at hle
    omega
  · exact hr

theorem PublicationInvariant.inRecordingOrder (h : PublicationInvariant sha256 repository number s) :
    InRecordingOrder s := by
  refine ⟨fun hall last hlast => ?_, h.ordered⟩
  have hmem : last ∈ s.recorded := List.mem_of_getLast? hlast
  obtain ⟨-, check, comment, hdeliveries, -, hcomment, -⟩ := reviewArtifact_deliveries (h.built last hmem)
  have hintent : comment ∈ last.artifact.deliveries := by rw [hdeliveries]; simp
  obtain ⟨row, hrow⟩ := Option.isSome_iff_exists.mp (h.stored last hmem comment hintent)
  have hkey : row.key = (last.artifact.artifactId, comment.deliveryKey) := Table.key_of_get hrow
  obtain ⟨hid, hdelivery⟩ := Prod.mk.inj hkey
  obtain ⟨hplanned, hdelivered⟩ := h.rows _ row hrow
  have hsame : row.intent = comment :=
    h.intent_eq hplanned ⟨last, hmem, hid.symm, hintent⟩ hdelivery
  have hsent : last.artifact.artifactId ∈ s.sent := by
    rw [← hid]
    exact hdelivered (hall row (Table.mem_of_get hrow)) (by rw [hsame, hcomment])
  -- nothing was sent after the last comment that was sent
  cases hnewest : s.sent.getLast? with
  | none =>
    rw [List.getLast?_eq_none_iff.mp hnewest] at hsent
    cases hsent
  | some newest =>
    obtain ⟨r, hr, hrid, hcomment⟩ := h.shown newest hnewest
    obtain ⟨before, hsplit⟩ := List.getLast?_eq_some_iff.mp hnewest
    have hle : s.position last.artifact.artifactId ≤ s.position r.artifact.artifactId := by
      have hordered := h.ordered
      rw [hsplit, List.pairwise_append] at hordered
      rw [hsplit, List.mem_append, List.mem_singleton] at hsent
      rw [hrid]
      rcases hsent with hsent | hsent
      · exact hordered.2.2 _ hsent _ List.mem_cons_self
      · rw [hsent]
    rw [h.last_position hlast hr hle] at hcomment
    exact hcomment

/-! ### What one move does -/

theorem publicationInvariant_empty : PublicationInvariant sha256 repository number .empty where
  distinct := List.nodup_nil
  built _ hr := absurd hr List.not_mem_nil
  known _ hr := absurd hr List.not_mem_nil
  stored _ hr := absurd hr List.not_mem_nil
  rows _ row hrow := absurd hrow.symm (Option.some_ne_none row)
  held _ ht := absurd ht List.not_mem_nil
  sent _ hid := absurd hid List.not_mem_nil
  shown id hid := absurd hid.symm (Option.some_ne_none id)
  ordered := List.Pairwise.nil

/-- Fewer attempts. -/
theorem PublicationInvariant.fewer (h : PublicationInvariant sha256 repository number s)
    {attempts : List DeliveryAttempt} (hattempts : attempts ⊆ s.attempts) :
    PublicationInvariant sha256 repository number { s with attempts := attempts } :=
  { h with held := fun t ht => h.held t (hattempts ht) }

/-- The outbox writes over the row of one delivery, and a comment that becomes delivered was sent. -/
theorem PublicationInvariant.updated (h : PublicationInvariant sha256 repository number s)
    {k : String × String} {f : StoredDelivery → StoredDelivery} (hf : ∀ row, (f row).key = row.key)
    (hkeeps : ∀ row, (f row).artifactId = row.artifactId ∧ (f row).intent = row.intent)
    (hdelivered : ∀ row, s.outbox.deliveries.get k = some row → (f row).state = .delivered →
      row.intent.channel = .githubComment → row.artifactId ∈ s.sent) :
    PublicationInvariant sha256 repository number
      { s with outbox := ⟨s.outbox.artifacts, s.outbox.deliveries.update k f hf⟩ } where
  distinct := h.distinct
  built := h.built
  known := h.known
  stored := by
    intro r hr intent hintent
    have hsome := h.stored r hr intent hintent
    rw [Table.get_update]
    split
    · rwa [Option.isSome_map]
    · exact hsome
  rows := by
    intro k' row' hrow'
    rw [Table.get_update] at hrow'
    split at hrow'
    · next heq =>
      obtain ⟨row, hrow, rfl⟩ := Option.map_eq_some_iff.mp hrow'
      obtain ⟨hid, hintent⟩ := hkeeps row
      rw [hid, hintent]
      refine ⟨(h.rows k' row hrow).1, fun hstate => ?_⟩
      rw [heq] at hrow
      exact hdelivered row hrow hstate
    · exact h.rows k' row' hrow'
  held := h.held
  sent := h.sent
  shown := h.shown
  ordered := h.ordered

theorem position_recorded {id : String} (hid : id ∈ s.ids) (outbox : ArtifactOutbox) (r : RecordedReview) :
    Publications.position { s with outbox := outbox, recorded := s.recorded ++ [r] } id = s.position id := by
  rw [Publications.position, Publications.ids, List.map_append]
  exact List.idxOf_append_of_mem hid

/-- A new artifact is recorded with its deliveries. -/
theorem PublicationInvariant.recording (h : PublicationInvariant sha256 repository number s)
    {review : ReviewPresentation} {artifact : ProductArtifact} {stored : StoredArtifact} {now : String}
    {deliveries : Table StoredDelivery.key}
    (hbuilt : reviewArtifact sha256 repository number review = some artifact)
    (hnew : s.outbox.artifacts.get artifact.artifactId = none)
    (hkey : StoredArtifact.key stored = artifact.artifactId)
    (hinsert : artifact.deliveries.foldlM (insertDelivery artifact.artifactId now) s.outbox.deliveries =
      .ok deliveries) :
    PublicationInvariant sha256 repository number
      { s with outbox := ⟨s.outbox.artifacts.put stored, deliveries⟩
               recorded := s.recorded ++ [⟨review, artifact⟩] } := by
  obtain ⟨hkept, hrows, hall⟩ := ArtifactOutbox.insertDeliveries_ok hinsert
  have hmore {artifactId : String} {intent : ArtifactDeliveryIntent} (hplanned : s.Planned artifactId intent) :
      ∃ r ∈ s.recorded ++ [⟨review, artifact⟩], r.artifact.artifactId = artifactId ∧ intent ∈ r.artifact.deliveries := by
    obtain ⟨r, hr, hrest⟩ := hplanned
    exact ⟨r, List.mem_append_left _ hr, hrest⟩
  have hfresh : artifact.artifactId ∉ s.ids := by
    intro hmem
    obtain ⟨r, hr, hid⟩ := List.mem_map.mp hmem
    have hknown := h.known r hr
    rw [hid, hnew] at hknown
    cases hknown
  refine ⟨?_, ?_, ?_, ?_, ?_, ?_, ?_, ?_, ?_⟩
  · rw [Publications.ids, List.map_append, List.nodup_append]
    refine ⟨h.distinct, List.nodup_singleton _, ?_⟩
    intro id hid id' hid' heq
    rw [List.map_singleton, List.mem_singleton] at hid'
    rw [heq, hid'] at hid
    exact hfresh hid
  · intro r hr
    rcases List.mem_append.mp hr with hr | hr
    · exact h.built r hr
    · rw [List.mem_singleton.mp hr]
      exact hbuilt
  · intro r hr
    rw [Table.get_put]
    split
    · rfl
    · next hne =>
      rcases List.mem_append.mp hr with hr | hr
      · exact h.known r hr
      · rw [List.mem_singleton.mp hr, hkey] at hne
        exact absurd rfl hne
  · intro r hr intent hintent
    rcases List.mem_append.mp hr with hr | hr
    · obtain ⟨row, hrow⟩ := Option.isSome_iff_exists.mp (h.stored r hr intent hintent)
      rw [hkept _ row hrow]
      rfl
    · rw [List.mem_singleton.mp hr] at hintent ⊢
      rw [hall intent hintent]
      rfl
  · intro k row hrow
    rcases hrows k row hrow with hold | ⟨-, intent, hintent, rfl⟩
    · obtain ⟨hplanned, hdelivered⟩ := h.rows k row hold
      exact ⟨hmore hplanned, hdelivered⟩
    · exact ⟨⟨_, List.mem_append_right _ List.mem_cons_self, rfl, hintent⟩, fun hstate => by cases hstate⟩
  · intro t ht
    obtain ⟨hplanned, hreturned⟩ := h.held t ht
    exact ⟨hmore hplanned, hreturned⟩
  · intro id hid
    rw [Publications.ids, List.map_append]
    exact List.mem_append_left _ (h.sent id hid)
  · intro id hid
    obtain ⟨r, hr, hrest⟩ := h.shown id hid
    exact ⟨r, List.mem_append_left _ hr, hrest⟩
  · refine h.ordered.imp_of_mem fun hbefore hafter hle => ?_
    rwa [position_recorded (h.sent _ hbefore), position_recorded (h.sent _ hafter)]

theorem PublicationInvariant.published (h : PublicationInvariant sha256 repository number s)
    (review : ReviewPresentation) (recordedAt : Option SourceTime) (clock : UtcTime) :
    PublicationInvariant sha256 repository number (publish sha256 repository number s review recordedAt clock) := by
  unfold publish
  cases hbuilt : reviewArtifact sha256 repository number review with
  | none => exact h
  | some artifact =>
    rcases record_spec (o := s.outbox) artifact recordedAt clock with ⟨answer, hrecord, hanswer⟩ |
      ⟨stored, now, deliveries, hnew, hkey, hinsert, hrecord⟩
    · simp only [hrecord]
      exact h
    · simp only [hrecord]
      exact h.recording hbuilt hnew hkey hinsert

theorem PublicationInvariant.claimed (h : PublicationInvariant sha256 repository number s)
    (artifactId : Option String) (current : UtcTime) (uuid : UuidHex) :
    PublicationInvariant sha256 repository number (claim s artifactId current uuid) := by
  unfold claim
  rcases claimNext_spec (o := s.outbox) (some ⟨current, true⟩) deliveryLease artifactId uuid current with
    ⟨answer, hclaim, hanswer⟩ | ⟨row, lease, token, expires, hrow, hid, hintent, hclaim⟩
  · simp only [hclaim]
    exact h
  · simp only [hclaim]
    have hupdated := h.updated (k := row.key) (f := .leasedTo token expires) (fun _ => rfl) (fun _ => ⟨rfl, rfl⟩)
      (fun _ _ hstate => by cases hstate)
    refine { hupdated with held := fun t ht => ?_ }
    rcases List.mem_append.mp ht with ht | ht
    · exact hupdated.held t ht
    · rw [List.mem_singleton.mp ht]
      refine ⟨?_, fun hphase => by cases hphase⟩
      rw [hid, hintent]
      exact (h.rows row.key row hrow).1

/-- An equation between functions: of two values the kernel would work out when the retry is due. -/
theorem returnDelivery_eq : returnDelivery = fun s index attempt errorName =>
    match attempt.retryAt with
    | none => s.release index s.outbox
    | some retryAt => s.release index
        (s.outbox.retry attempt.lease (deliveryError attempt.lease.intent.channel errorName) ⟨retryAt, true⟩).1 :=
  rfl

theorem PublicationInvariant.returned (h : PublicationInvariant sha256 repository number s) (index : Nat)
    (attempt : DeliveryAttempt) (errorName : String) :
    PublicationInvariant sha256 repository number (returnDelivery s index attempt errorName) := by
  rw [returnDelivery_eq]
  beta_reduce
  generalize deliveryError attempt.lease.intent.channel errorName = message
  cases attempt.retryAt with
  | none => exact h.fewer List.eraseIdx_subset
  | some retryAt =>
    rcases retry_spec (o := s.outbox) attempt.lease message ⟨retryAt, true⟩ with hsame | ⟨time, hrequeued⟩
    · simp only [hsame]
      exact h.fewer List.eraseIdx_subset
    · simp only [hrequeued]
      have hupdated := h.updated (k := attempt.lease.key) (f := .requeued message time) (fun _ => rfl)
        (fun _ => ⟨rfl, rfl⟩) (fun _ _ hstate => by cases hstate)
      exact hupdated.fewer List.eraseIdx_subset

/-- The delivery a worker acknowledges was carried out. -/
theorem PublicationInvariant.acknowledged (h : PublicationInvariant sha256 repository number s) {index : Nat}
    {attempt : DeliveryAttempt} (hattempt : s.attempts[index]? = some attempt)
    (hphase : attempt.phase = .returned) (deliveredAt : Option SourceTime) (clock : UtcTime) :
    PublicationInvariant sha256 repository number
      (s.release index (s.outbox.acknowledge attempt.lease deliveredAt clock).1) := by
  obtain ⟨hplanned, hsent⟩ := h.held attempt (List.mem_of_getElem? hattempt)
  rcases acknowledge_spec (o := s.outbox) attempt.lease deliveredAt clock with hsame | ⟨time, hdone⟩
  · rw [hsame]
    exact h.fewer List.eraseIdx_subset
  · rw [hdone]
    have hdelivered (row : StoredDelivery) (hrow : s.outbox.deliveries.get attempt.lease.key = some row)
        (hcomment : row.intent.channel = .githubComment) : row.artifactId ∈ s.sent := by
      have hrowKey : row.key = attempt.lease.key := Table.key_of_get hrow
      obtain ⟨hid, hkey⟩ := Prod.mk.inj hrowKey
      have hplanned' := (h.rows _ row hrow).1
      rw [hid] at hplanned' ⊢
      rw [h.intent_eq hplanned' hplanned hkey] at hcomment
      exact hsent hphase hcomment
    have hupdated := h.updated (k := attempt.lease.key) (f := .acknowledged time) (fun _ => rfl)
      (fun _ => ⟨rfl, rfl⟩) (fun row hrow _ hcomment => hdelivered row hrow hcomment)
    exact hupdated.fewer List.eraseIdx_subset

/-- An attempt moves on; one that has returned was carried out. -/
theorem PublicationInvariant.phased (h : PublicationInvariant sha256 repository number s) {index : Nat}
    {attempt : DeliveryAttempt} (hattempt : s.attempts[index]? = some attempt) (phase : AttemptPhase)
    (hsent : attempt.lease.intent.channel = .githubComment → attempt.lease.artifactId ∈ s.sent) :
    PublicationInvariant sha256 repository number (s.setPhase index attempt phase) := by
  refine { h with held := fun t ht => ?_ }
  rcases List.mem_or_eq_of_mem_set ht with ht | ht
  · exact h.held t ht
  · rw [ht]
    exact ⟨(h.held attempt (List.mem_of_getElem? hattempt)).1, fun _ => hsent⟩

/-- A comment is written in turn. -/
theorem PublicationInvariant.commented (h : PublicationInvariant sha256 repository number s) {r : RecordedReview}
    (hr : r ∈ s.recorded)
    (hturn : ∀ id ∈ s.sent, s.position id ≤ s.position r.artifact.artifactId) :
    PublicationInvariant sha256 repository number
      { s with comment := some (markedBody stickyMarker r.review.summary)
               sent := s.sent ++ [r.artifact.artifactId] } where
  distinct := h.distinct
  built := h.built
  known := h.known
  stored := h.stored
  rows := fun k row hrow =>
    ⟨(h.rows k row hrow).1, fun hstate hchannel => List.mem_append_left _ ((h.rows k row hrow).2 hstate hchannel)⟩
  held := fun t ht =>
    ⟨(h.held t ht).1, fun hphase hchannel => List.mem_append_left _ ((h.held t ht).2 hphase hchannel)⟩
  sent := by
    intro id hid
    rcases List.mem_append.mp hid with hid | hid
    · exact h.sent id hid
    · rw [List.mem_singleton.mp hid]
      exact List.mem_map_of_mem (f := fun r => r.artifact.artifactId) hr
  shown := by
    intro id hid
    rw [List.getLast?_concat, Option.some.injEq] at hid
    exact ⟨r, hr, hid, rfl⟩
  ordered := by
    rw [List.pairwise_append]
    refine ⟨h.ordered, List.pairwise_singleton _ _, ?_⟩
    intro before hbefore after hafter
    rw [List.mem_singleton.mp hafter]
    exact hturn before hbefore

theorem PublicationInvariant.sent_step (h : PublicationInvariant sha256 repository number s) {index : Nat}
    {attempt : DeliveryAttempt} (hattempt : s.attempts[index]? = some attempt) {call : GitHubCall} (hcall : deliver floatRepr attempt.lease.intent = .ok call) (phase : AttemptPhase)
    (hturn : ∀ body, deliver floatRepr attempt.lease.intent = .ok (.comment repository number body) →
      ∀ id ∈ s.sent, s.position id ≤ s.position attempt.lease.artifactId) :
    PublicationInvariant sha256 repository number
      ((s.carryOut repository number attempt.lease.artifactId call).setPhase index attempt phase) := by
  obtain ⟨r, hr, hid, hintent⟩ := (h.held attempt (List.mem_of_getElem? hattempt)).1
  rcases deliver_of_review (h.built r hr) hintent hcall with ⟨hchannel, _, _, _, _, _, _, _, rfl⟩ | ⟨-, rfl⟩
  · refine PublicationInvariant.phased h hattempt phase fun hcomment => ?_
    rw [hchannel] at hcomment
    cases hcomment
  · have hturn' := hturn _ hcall
    rw [← hid] at hturn'
    have hcommented := h.commented hr hturn'
    rw [Publications.carryOut, if_pos ⟨rfl, rfl⟩, ← hid]
    refine PublicationInvariant.phased hcommented hattempt phase fun _ => ?_
    rw [← hid]
    exact List.mem_append_right _ List.mem_cons_self

theorem publicationInvariant_step (s : Publications) (move : PublicationMove)
    (h : PublicationInvariant sha256 repository number s) (hturn : SentInTurn floatRepr repository number s move) :
    PublicationInvariant sha256 repository number (publicationStep sha256 floatRepr repository number s move).1 := by
  cases move with
  | publish review recordedAt clock => exact h.published review recordedAt clock
  | claim artifactId current uuid => exact h.claimed artifactId current uuid
  | send index answered =>
    cases hattempt : s.attempts[index]? with
    | none => simpa only [publicationStep, hattempt] using h
    | some attempt =>
      by_cases hphase : attempt.phase = .leased
      · cases hcall : deliver floatRepr attempt.lease.intent with
        | error e => simpa only [publicationStep, hattempt, hphase, if_true, hcall] using h
        | ok call =>
          have hsent := h.sent_step hattempt hcall (if answered then .returned else .failed)
            (hturn attempt hattempt hphase)
          simpa only [publicationStep, hattempt, hphase, if_true, hcall] using hsent
      · simpa only [publicationStep, hattempt, hphase, if_false] using h
  | acknowledge index =>
    cases hattempt : s.attempts[index]? with
    | none => simpa only [publicationStep, hattempt] using h
    | some attempt =>
      by_cases hphase : attempt.phase = .returned
      · have hdone := h.acknowledged hattempt hphase (some ⟨attempt.current, true⟩) attempt.current
        simpa only [publicationStep, hattempt, hphase, if_true] using hdone
      · simpa only [publicationStep, hattempt, hphase, if_false] using h
  | retry index errorName =>
    cases hattempt : s.attempts[index]? with
    | none => simpa only [publicationStep, hattempt] using h
    | some attempt =>
      by_cases hphase : attempt.phase = .returned
      · simpa only [publicationStep, hattempt, hphase, ne_eq, not_true_eq_false, if_false] using h
      · have hreturned := h.returned index attempt errorName
        simpa only [publicationStep, hattempt, hphase, ne_eq, not_false_eq_true, if_true] using hreturned
  | crash index => exact h.fewer List.eraseIdx_subset

/-- A comment out of turn is seen at once. -/
theorem sentInTurn_of_order (s : Publications) (move : PublicationMove)
    (_ : PublicationInvariant sha256 repository number s)
    (hnext : InRecordingOrder (publicationStep sha256 floatRepr repository number s move).1) :
    SentInTurn floatRepr repository number s move := by
  cases move with
  | send index answered =>
    intro attempt hattempt hphase body hcall id hid
    have hkept := hnext.kept
    simp only [publicationStep, hattempt, hphase, if_true, hcall, Publications.carryOut, and_self,
      Publications.setPhase] at hkept
    rw [List.pairwise_append] at hkept
    exact hkept.2.2 id hid _ List.mem_cons_self
  | publish review recordedAt clock => trivial
  | claim artifactId current uuid => trivial
  | acknowledge index => trivial
  | retry index errorName => trivial
  | crash index => trivial

end

/-- In the runs in which every comment is sent in turn, and in no others, the comment of the artifact recorded last
stays. -/
theorem publication_in_order_iff (sha256 floatRepr : String → String) (repository : String) (number : Int)
    (moves : List PublicationMove) :
    Admissible (publicationStep sha256 floatRepr repository number) (SentInTurn floatRepr repository number) .empty
        moves ↔
      ∀ before, before <+: moves →
        InRecordingOrder (runState (publicationStep sha256 floatRepr repository number) .empty before) :=
  admissible_iff_reached (publicationStep sha256 floatRepr repository number) publicationInvariant_step
    (fun _ h => h.inRecordingOrder) sentInTurn_of_order publicationInvariant_empty moves

end EngineeringIntelligence.PrGuardian
