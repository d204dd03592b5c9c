import EngineeringIntelligence.CompanyBrain.Corrections

namespace EngineeringIntelligence.CompanyBrain

open EngineeringIntelligence.Framework EngineeringIntelligence.Ingestion

/-! A correction that is submitted again. Its identifier leaves out the time of the request, the payload
that the store compares does not. -/

/-! ### Payloads -/

theorem readable_scope (scope : DecisionScope) : scope.payload.Readable id := by
  have hkeys : ["tenant_id", "product", "kind", "scope_id", "label", "correlation_id"].Nodup := by decide
  refine ⟨hkeys, ?_⟩
  simp [Json.ReadableFields, Json.Readable]

theorem readable_proposal (p : ProposalFields) (time : UtcTime) : (p.payloadAt time).Readable id := by
  have hkeys : ["correction_id", "request_id", "scope", "evidence_read_receipt_id", "context_version",
    "context_packet_digest", "target_key", "kind", "original_claim", "replacement_claim", "rationale",
    "requested_by", "requested_at"].Nodup := by decide
  have hreplacement : (Json.optStr p.replacementClaim).Readable id := by
    cases p.replacementClaim <;> trivial
  refine ⟨hkeys, ?_⟩
  simp [Json.ReadableFields, Json.Readable, readable_scope, hreplacement]

theorem readable_idPayload (q : CorrectionRequest) (receiptId : String) : (q.idPayload receiptId).Readable id := by
  have hkeys : ["request_id", "scope", "receipt_id", "target_key", "kind", "original_claim", "replacement_claim",
    "rationale", "requested_by"].Nodup := by decide
  have hreplacement : (Json.optStr q.replacementClaim).Readable id := by
    cases q.replacementClaim <;> trivial
  refine ⟨hkeys, ?_⟩
  simp [Json.ReadableFields, Json.Readable, readable_scope, hreplacement]

/-- The payload tells at what time the proposal was requested. -/
theorem payloadAt_time {p p' : ProposalFields} {time time' : UtcTime}
    (h : (p.payloadAt time).dumpsUnicode = (p'.payloadAt time').dumpsUnicode) : time = time' := by
  have hget := Json.get_eq_of_dumpsUnicode_eq id (readable_proposal p time) (readable_proposal p' time') h
  exact UtcTime.isoformat_injective (Json.str.inj (hget "requested_at"))

theorem proposal_make_eq_ok {fields : ProposalFields} {time : UtcTime} {proposal : CorrectionProposal}
    (h : CorrectionProposal.make fields time = .ok proposal) :
    proposal.toProposalFields = fields ∧ proposal.requestedAt = time := by
  unfold CorrectionProposal.make at h
  split at h
  · cases h
  · cases h
    exact ⟨rfl, rfl⟩

theorem proposal_make_ok {fields : ProposalFields} (h : fields.problem = none) (time : UtcTime) :
    CorrectionProposal.make fields time = .ok ⟨fields, time, h⟩ := by
  unfold CorrectionProposal.make
  split
  · next hproblem => rw [h] at hproblem; cases hproblem
  · rfl

/-! ### The store -/

/-- A proposal is recorded exactly where nothing else is retained under its identifier. -/
theorem recordProposal_isOk_iff {store : CorrectionStore} {proposal : CorrectionProposal} :
    (store.recordProposal proposal).2.isOk = true ↔ ∀ row, store.proposals.get proposal.correctionId = some row →
      row.payload = proposal.payload.dumpsUnicode := by
  unfold CorrectionStore.recordProposal
  cases hrow : store.proposals.get proposal.correctionId with
  | none => exact iff_of_true rfl fun row h => by cases h
  | some row =>
    simp only
    by_cases hpayload : row.payload = proposal.payload.dumpsUnicode
    · rw [if_neg (not_not.mpr hpayload)]
      refine iff_of_true rfl fun row' h => ?_
      cases h
      exact hpayload
    · rw [if_pos hpayload]
      exact iff_of_false (by simp [Except.isOk, Except.toBool]) fun h => hpayload (h row rfl)

theorem recordProposal_row {store : CorrectionStore} {proposal : CorrectionProposal}
    (h : (store.recordProposal proposal).2.isOk = true) :
    ∃ row, (store.recordProposal proposal).1.proposals.get proposal.correctionId = some row ∧
      row.payload = proposal.payload.dumpsUnicode := by
  have hretained := recordProposal_isOk_iff.mp h
  unfold CorrectionStore.recordProposal
  cases hrow : store.proposals.get proposal.correctionId with
  | none =>
    refine ⟨proposal.row, ?_, rfl⟩
    exact Table.get_put_self store.proposals proposal.row
  | some row =>
    have hpayload := hretained row hrow
    simp only
    rw [if_neg (not_not.mpr hpayload)]
    exact ⟨row, hrow, hpayload⟩

theorem recordProposal_keeps_row (store : CorrectionStore) (proposal : CorrectionProposal) {correctionId : String}
    {row : StoredProposal} (h : store.proposals.get correctionId = some row) :
    (store.recordProposal proposal).1.proposals.get correctionId = some row := by
  unfold CorrectionStore.recordProposal
  cases hrow : store.proposals.get proposal.correctionId with
  | none =>
    have hne : correctionId ≠ StoredProposal.key proposal.row := by
      intro heq
      rw [heq] at h
      rw [show proposal.correctionId = StoredProposal.key proposal.row from rfl, h] at hrow
      cases hrow
    simp only
    rw [Table.get_put_of_ne _ hne]
    exact h
  | some other =>
    simp only
    split_ifs <;> exact h

theorem recordProposal_conflict {store : CorrectionStore} {proposal : CorrectionProposal} {row : StoredProposal}
    (hrow : store.proposals.get proposal.correctionId = some row)
    (hpayload : row.payload ≠ proposal.payload.dumpsUnicode) :
    store.recordProposal proposal = (store, .error (.correction "correction_id conflicts with retained history")) := by
  unfold CorrectionStore.recordProposal
  rw [hrow]
  simp only
  rw [if_pos hpayload]

/-! ### Submissions -/

section

variable {l : ReceiptLibrary} {authority : ReceiptAuthority} {s : CorrectionSystem} {q : CorrectionRequest}

theorem submit_fst (now : Option SourceTime) (clock : UtcTime) :
    (s.submit l authority q now clock).1 =
      match prepareSubmission l authority s.receipts q now clock with
      | .error _ => s
      | .ok proposal => { s with corrections := (s.corrections.recordProposal proposal).1 } := by
  unfold CorrectionSystem.submit
  cases prepareSubmission l authority s.receipts q now clock with
  | error x => rfl
  | ok proposal =>
    rcases hrecord : s.corrections.recordProposal proposal with ⟨store, answer⟩
    cases answer <;> simp [hrecord]

theorem submit_keeps_row (now : Option SourceTime) (clock : UtcTime) {correctionId : String} {row : StoredProposal}
    (h : s.corrections.proposals.get correctionId = some row) :
    (s.submit l authority q now clock).1.corrections.proposals.get correctionId = some row := by
  rw [submit_fst]
  cases prepareSubmission l authority s.receipts q now clock with
  | error x => exact h
  | ok proposal => exact recordProposal_keeps_row s.corrections proposal h

theorem submit_receipts (now : Option SourceTime) (clock : UtcTime) :
    (s.submit l authority q now clock).1.receipts = s.receipts := by
  rw [submit_fst]
  cases prepareSubmission l authority s.receipts q now clock <;> rfl

theorem recordReview_frame (review : CorrectionReview) :
    (s.recordReview l review).1.receipts = s.receipts ∧
      (s.recordReview l review).1.corrections.proposals = s.corrections.proposals := by
  unfold CorrectionSystem.recordReview
  split <;> exact ⟨rfl, rfl⟩

/-- A review changes neither the receipts nor the proposals. -/
theorem review_frame (r : ReviewRequest) (reviewedAt : Option SourceTime) (clock : UtcTime) :
    (s.review l r reviewedAt clock).1.receipts = s.receipts ∧
      (s.review l r reviewedAt clock).1.corrections.proposals = s.corrections.proposals := by
  unfold CorrectionSystem.review
  by_cases huser : r.reviewer ∉ r.reviewerPrincipal.users
  · rw [if_pos huser]
    exact ⟨rfl, rfl⟩
  · rw [if_neg huser]
    split
    · exact ⟨rfl, rfl⟩
    · exact ⟨rfl, rfl⟩
    · split
      · exact ⟨rfl, rfl⟩
      · split
        · exact ⟨rfl, rfl⟩
        · next review _ =>
          have hframe := recordReview_frame (l := l) (s := s) review
          split
          · next after x hafter => rw [hafter] at hframe; exact hframe
          · next after answer hafter => rw [hafter] at hframe; exact hframe

/-- Rows of receipts and of proposals outlive every call. -/
theorem correction_step_keeps (call : CorrectionCall) {receiptId correctionId : String} {receiptRow : StoredReceipt}
    {row : StoredProposal} (h : s.receipts.get receiptId = some receiptRow ∧
      s.corrections.proposals.get correctionId = some row) :
    (s.step l authority call).1.receipts.get receiptId = some receiptRow ∧
      (s.step l authority call).1.corrections.proposals.get correctionId = some row := by
  cases call with
  | receipts call => exact ⟨step_keeps_row l s.receipts call h.1, h.2⟩
  | submit r now clock =>
    refine ⟨?_, submit_keeps_row now clock h.2⟩
    rw [show (s.step l authority (.submit r now clock)).1 = (s.submit l authority r now clock).1 from rfl,
      submit_receipts]
    exact h.1
  | review r reviewedAt clock =>
    obtain ⟨hreceipts, hproposals⟩ := review_frame (l := l) (s := s) r reviewedAt clock
    simp only [CorrectionSystem.step, hreceipts, hproposals]
    exact h

theorem run_keeps_rows (calls : List CorrectionCall) {receiptId correctionId : String}
    {receiptRow : StoredReceipt} {row : StoredProposal} (h : s.receipts.get receiptId = some receiptRow ∧
      s.corrections.proposals.get correctionId = some row) :
    (runState (CorrectionSystem.step l authority) s calls).receipts.get receiptId = some receiptRow ∧
      (runState (CorrectionSystem.step l authority) s calls).corrections.proposals.get correctionId = some row :=
  run_invariant (CorrectionSystem.step l authority) (P := fun t => t.receipts.get receiptId = some receiptRow ∧
    t.corrections.proposals.get correctionId = some row) (fun _ call hrows => correction_step_keeps call hrows) h calls

/-- What a store gives for an identifier is in the row that it holds. -/
theorem getReceipt_row {floatRepr : String → String} {store : ReceiptStore} {receiptId : String}
    {receipt : EvidenceReadReceipt} (h : getReceipt floatRepr store receiptId = .ok (some receipt)) :
    ∃ row, store.get receiptId = some row ∧ ∀ other : ReceiptStore, other.get receiptId = some row →
      getReceipt floatRepr other receiptId = .ok (some receipt) := by
  unfold getReceipt at h
  obtain ⟨identifier, hidentifier, hrow⟩ := bind_eq_ok_iff.mp h
  have hsame : identifier = receiptId := by
    unfold resolveReceiptId at hidentifier
    split_ifs at hidentifier
    exact (Except.ok.inj hidentifier).symm
  subst hsame
  cases hget : store.get identifier with
  | none =>
    rw [hget] at hrow
    cases hrow
  | some row =>
    rw [hget] at hrow
    refine ⟨row, rfl, fun other hother => ?_⟩
    rw [getReceipt, hidentifier, ok_bind, hother]
    exact hrow

theorem getReceipt_put (floatRepr : String → String) (store : ReceiptStore) (receipt : EvidenceReadReceipt) :
    getReceipt floatRepr (store.put receipt.row) receipt.receiptId = .ok (some receipt) :=
  getReceipt_of_row floatRepr (Table.get_put_self store receipt.row) rfl

/-- A well-formed request under a valid receipt gets as far as the store. -/
theorem prepareSubmission_ok {receipts : ReceiptStore} {now : Option SourceTime} {clock : UtcTime}
    {receipt : EvidenceReadReceipt}
    (hstored : getReceipt l.floatRepr receipts q.receiptId = .ok (some receipt))
    (hvalid : Passes l authority.secret (q.proposal now) clock receipt)
    (huser : q.requestedBy ∈ q.principal.users) (hform : (q.fields l receipt.receiptId).problem = none) :
    prepareSubmission l authority receipts q now clock =
      .ok ⟨q.fields l receipt.receiptId, (orNow now clock).utc, hform⟩ := by
  have hgate : authority.requireForProposal l receipts (q.proposal now) clock = .ok receipt := by
    have hpass := checkReceipt_isOk_iff.mpr hvalid
    obtain ⟨taken, htaken⟩ := isOk_iff.mp hpass
    rw [ReceiptAuthority.requireForProposal, show (q.proposal now).receiptId = q.receiptId from rfl, hstored, ok_bind]
    simp only
    rw [htaken, checkReceipt_eq_ok htaken]
  have haware : (orNow now clock).aware = true := hvalid.aware
  unfold prepareSubmission
  rw [if_neg (not_not.mpr huser), hgate]
  simp only [correctionTime, haware, if_true, ok_bind]
  exact proposal_make_ok hform _

theorem submit_of_prepared {now : Option SourceTime} {clock : UtcTime} {proposal : CorrectionProposal}
    (h : prepareSubmission l authority s.receipts q now clock = .ok proposal) (given : CorrectionProposal) :
    (s.submit l authority q now clock).2 = .ok given ↔
      (s.corrections.recordProposal proposal).2.isOk = true ∧ given = proposal := by
  unfold CorrectionSystem.submit
  rw [h]
  rcases hrecord : s.corrections.recordProposal proposal with ⟨store, answer⟩
  cases answer with
  | error x => simp [hrecord, Except.isOk, Except.toBool]
  | ok new =>
    simp only [hrecord, Except.isOk, Except.toBool, true_and, Except.ok.injEq]
    exact eq_comm

end

/-! ### The same request again -/

/-- Under a key that a table holds there is one row. -/
theorem length_filter_key {ρ κ : Type} [DecidableEq κ] {key : ρ → κ} {t : Table key} {k : κ} {r : ρ}
    (h : t.get k = some r) : (t.rows.filter fun x => key x = k).length = 1 := by
  have hcount : (t.rows.map key).count k = 1 := by
    have hkey := Table.key_of_get h
    have hmem : k ∈ t.rows.map key := hkey ▸ List.mem_map_of_mem (Table.mem_of_get h)
    exact List.count_eq_one_of_mem t.unique hmem
  rw [List.count_eq_countP, List.countP_map, List.countP_eq_length_filter] at hcount
  rw [← hcount]
  congr 2

section

variable (l : ReceiptLibrary) (authority : ReceiptAuthority) (s : CorrectionSystem) (q : CorrectionRequest)

/-- The request is submitted, and after `calls` submitted again: both succeed with one correction, which
is stored once. -/
def Retried (now : Option SourceTime) (clock : UtcTime) (calls : List CorrectionCall)
    (now' : Option SourceTime) (clock' : UtcTime) : Prop :=
  let later := runState (CorrectionSystem.step l authority) (s.submit l authority q now clock).1 calls
  ∃ correction, (s.submit l authority q now clock).2 = .ok correction ∧
    (later.submit l authority q now' clock').2 = .ok correction ∧
      ((later.submit l authority q now' clock').1.corrections.proposals.rows.filter
        (·.correctionId = correction.correctionId)).length = 1

/-- The request is by a user of its principal, and its fields are in order. -/
structure CorrectionRequest.WellFormed (receiptId : String) : Prop where
  requester : q.requestedBy ∈ q.principal.users
  fields : (q.fields l receiptId).problem = none

variable {l authority s q}

theorem wellFormed_of_prepared {now : Option SourceTime} {clock : UtcTime} {receipt : EvidenceReadReceipt}
    {proposal : CorrectionProposal} (hstored : getReceipt l.floatRepr s.receipts q.receiptId = .ok (some receipt))
    (h : prepareSubmission l authority s.receipts q now clock = .ok proposal) :
    q.WellFormed l receipt.receiptId := by
  unfold prepareSubmission at h
  by_cases huser : q.requestedBy ∉ q.principal.users
  · rw [if_pos huser] at h
    cases h
  · rw [if_neg huser] at h
    cases hgate : authority.requireForProposal l s.receipts (q.proposal now) clock with
    | error x =>
      rw [hgate] at h
      cases h
    | ok taken =>
      have htaken : taken = receipt := by
        rw [ReceiptAuthority.requireForProposal, show (q.proposal now).receiptId = q.receiptId from rfl, hstored,
          ok_bind] at hgate
        exact checkReceipt_eq_ok hgate
      rw [hgate, htaken] at h
      obtain ⟨time, -, hmake⟩ := bind_eq_ok_iff.mp h
      obtain ⟨hfields, -⟩ := proposal_make_eq_ok hmake
      exact ⟨not_not.mp huser, hfields ▸ proposal.valid⟩

theorem submit_prepared {now : Option SourceTime} {clock : UtcTime} {proposal : CorrectionProposal}
    (h : (s.submit l authority q now clock).2 = .ok proposal) :
    prepareSubmission l authority s.receipts q now clock = .ok proposal := by
  cases hprepared : prepareSubmission l authority s.receipts q now clock with
  | error x =>
    rw [CorrectionSystem.submit, hprepared] at h
    cases h
  | ok prepared =>
    obtain ⟨-, hsame⟩ := (submit_of_prepared hprepared proposal).mp h
    rw [hsame]

/-- At another time a request conflicts with what it stored itself. -/
theorem resubmit_conflict {now now' : Option SourceTime} {clock clock' : UtcTime} {receipt : EvidenceReadReceipt}
    (hstored : getReceipt l.floatRepr s.receipts q.receiptId = .ok (some receipt))
    (hvalid : Passes l authority.secret (q.proposal now) clock receipt)
    (hvalid' : Passes l authority.secret (q.proposal now') clock' receipt)
    (hform : q.WellFormed l receipt.receiptId)
    (hnew : s.corrections.proposals.get (q.correctionId l receipt.receiptId) = none)
    (htime : (orNow now clock).utc ≠ (orNow now' clock').utc) :
    (s.submit l authority q now clock).2.isOk = true ∧
      ((s.submit l authority q now clock).1.submit l authority q now' clock').2 =
        .error (.correction "correction_id conflicts with retained history") := by
  have hprepared := prepareSubmission_ok hstored hvalid hform.requester hform.fields
  have hrecord : (s.corrections.recordProposal
      ⟨q.fields l receipt.receiptId, (orNow now clock).utc, hform.fields⟩).2.isOk = true := by
    refine recordProposal_isOk_iff.mpr fun row hrow => ?_
    cases hnew.symm.trans hrow
  obtain ⟨row, hrow, hpayload⟩ := recordProposal_row hrecord
  have hstored' : getReceipt l.floatRepr (s.submit l authority q now clock).1.receipts q.receiptId =
      .ok (some receipt) := by
    rw [submit_receipts]
    exact hstored
  have hprepared' := prepareSubmission_ok hstored' hvalid' hform.requester hform.fields
  have hne : row.payload ≠ (CorrectionProposal.payload ⟨q.fields l receipt.receiptId, (orNow now' clock').utc,
      hform.fields⟩).dumpsUnicode := by
    intro heq
    exact htime (payloadAt_time (hpayload.symm.trans heq))
  constructor
  · rw [(submit_of_prepared hprepared _).mpr ⟨hrecord, rfl⟩]
    rfl
  · have hconflict := @recordProposal_conflict _ ⟨q.fields l receipt.receiptId, (orNow now' clock').utc, hform.fields⟩ _
      hrow hne
    rw [CorrectionSystem.submit, hprepared', submit_fst, hprepared]
    simp only
    rw [hconflict]

end

namespace DocumentRead

theorem passes_at (more : List (String × String)) (minute : Fin 60) (h : minute < 10) :
    Passes (library more) authority.secret proposal (minutesIn minute) receipt := by
  have hwindow : ∀ m : Fin 60, m < 10 → (minutesIn 0).instant ≤ (minutesIn m).instant ∧
      (minutesIn m).instant < (minutesIn 10).instant := by decide
  obtain ⟨hissued, hcurrent⟩ := hwindow minute h
  exact ⟨rfl, rfl, rfl, rfl, (fingerprint more).symm, rfl, rfl, (signed more).symm, rfl, hissued, hcurrent, rfl, rfl,
    List.cons_ne_nil _ _⟩

def scope : DecisionScope := ⟨"acme", "brief", .runbook, "pay", "Payments", "corr-1", by decide +kernel⟩

/-- A claim of the runbook is retracted under the receipt. -/
def retraction : CorrectionRequest :=
  { requestId := "req-1", scope, receiptId := body.receiptId, principal, contextVersion := "world:7"
    contextPacketDigest := packet.digest, targetKey := "doc:pay", kind := .retractClaim
    originalClaim := "The runbook covers failover.", replacementClaim := none, rationale := "It does not."
    requestedBy := "alice" }

def retractionDigest : String := "ee620d15fec3bd1bab235c1a68b60d130fc88db80041d2479e380123384ea3a5"

/-- SHA-256 on the identity of the retraction as well. -/
def hashes : ReceiptLibrary := library [((retraction.idPayload body.receiptId).dumpsUnicode, retractionDigest)]

theorem retraction_id : retraction.correctionId hashes body.receiptId = "correction:" ++ retractionDigest := by
  have hreadable := readable_idPayload retraction body.receiptId
  have hprincipal : (retraction.idPayload body.receiptId).dumpsUnicode ≠ (Json.obj [("groups",
      .arr (principal.groups.map .str)), ("users", .arr (principal.users.map .str))]).dumpsUnicode := by
    intro heq
    have hget := Json.get_eq_of_dumpsUnicode_eq id hreadable (readable_principal principal) heq "groups"
    cases hget
  have hbase : (retraction.idPayload body.receiptId).dumpsUnicode ≠ (Json.obj body.baseEntries).dumpsUnicode := by
    intro heq
    have hget := Json.get_eq_of_dumpsUnicode_eq id hreadable ⟨base_keys body, readable_baseEntries id body⟩ heq
      "request_id"
    cases hget
  have hlocator : (retraction.idPayload body.receiptId).dumpsUnicode ≠ "docs/pay.md" := object_ne _
  rw [CorrectionRequest.correctionId, hashes, library_sha256, digests, List.cons_append, digestsAt_cons_ne _ hprincipal,
    List.cons_append, digestsAt_cons_ne _ hbase, List.cons_append, digestsAt_cons_ne _ hlocator, List.nil_append,
    digestsAt_cons_self]

theorem retraction_wellFormed : retraction.WellFormed hashes body.receiptId := by
  refine ⟨by decide +kernel, ?_⟩
  rw [CorrectionRequest.fields, retraction_id]
  decide +kernel

/-- The receipt is stored, and nothing is corrected yet. -/
def corrections : CorrectionSystem := ⟨Table.empty.put receipt.row, CorrectionStore.empty⟩

theorem receipt_stored : getReceipt hashes.floatRepr corrections.receipts retraction.receiptId = .ok (some receipt) :=
  getReceipt_put hashes.floatRepr Table.empty receipt

theorem passes_retraction (minute : Fin 60) (h : minute < 10) :
    Passes hashes authority.secret (retraction.proposal none) (minutesIn minute) receipt := passes_at _ minute h

end DocumentRead

end EngineeringIntelligence.CompanyBrain
