import EngineeringIntelligence.CompanyBrain.EvidenceReceipts
import EngineeringIntelligence.Framework.Run

namespace EngineeringIntelligence.CompanyBrain

open EngineeringIntelligence.Framework EngineeringIntelligence.Ingestion

/-! A receipt that was issued is what every later read of the store gives back, and the gate takes it
exactly for the proposals that it was issued for. -/

/-! ### Payloads -/

section

variable (floatRepr : String → String)

theorem snapshot_keys (item : EvidenceSnapshotReference) :
    ([("evidence_id", Json.str item.evidenceId), ("source_kind", .str item.sourceKind),
      ("revision", .str item.revision), ("locator_digest", .str item.locatorDigest)].map Prod.fst).Nodup := by
  have hkeys : ["evidence_id", "source_kind", "revision", "locator_digest"].Nodup := by decide
  exact hkeys

theorem readable_snapshot (item : EvidenceSnapshotReference) : item.payload.Readable floatRepr := by
  refine ⟨snapshot_keys item, ?_⟩
  simp [Json.ReadableFields, Json.Readable]

theorem payload_keys (receipt : EvidenceReadReceipt) :
    ((("receipt_id", Json.str receipt.receiptId) :: receipt.baseEntries ++
      [("signature", Json.str receipt.signature)]).map Prod.fst).Nodup := by
  have hkeys : ["receipt_id", "tenant_id", "product", "scope_id", "correlation_id", "principal_fingerprint",
    "context_version", "context_packet_digest", "context_qualified", "packet_complete", "evidence",
    "issued_at", "expires_at", "signature"].Nodup := by decide
  exact hkeys

theorem unsigned_keys (body : ReceiptBody) :
    ((("receipt_id", Json.str body.receiptId) :: body.baseEntries).map Prod.fst).Nodup := by
  have hkeys : ["receipt_id", "tenant_id", "product", "scope_id", "correlation_id", "principal_fingerprint",
    "context_version", "context_packet_digest", "context_qualified", "packet_complete", "evidence",
    "issued_at", "expires_at"].Nodup := by decide
  exact hkeys

theorem readable_baseEntries (body : ReceiptBody) : Json.ReadableFields floatRepr body.baseEntries := by
  have hevidence : Json.ReadableItems floatRepr (body.evidence.map (·.payload)) := by
    apply (Json.readableItems_iff floatRepr).mpr
    intro j hj
    obtain ⟨item, -, rfl⟩ := List.mem_map.mp hj
    exact readable_snapshot floatRepr item
  simp [ReceiptBody.baseEntries, Json.ReadableFields, Json.Readable, hevidence]

theorem base_keys (body : ReceiptBody) : (body.baseEntries.map Prod.fst).Nodup :=
  (List.nodup_cons.mp (unsigned_keys body)).2

theorem readable_unsigned (body : ReceiptBody) : body.unsignedPayload.Readable floatRepr :=
  ⟨unsigned_keys body, trivial, readable_baseEntries floatRepr body⟩

theorem readable_payload (receipt : EvidenceReadReceipt) : receipt.payload.Readable floatRepr := by
  refine ⟨payload_keys receipt, ?_⟩
  apply (Json.readableFields_iff floatRepr).mpr
  intro f hf
  rcases List.mem_append.mp hf with hf | hf
  · exact (Json.readableFields_iff floatRepr).mp (readable_unsigned floatRepr receipt.toReceiptBody).2 f hf
  · rw [List.mem_singleton.mp hf]
    trivial

theorem requiredText_of_get {fields : List (String × Json)} {field label value : String}
    (h : Json.get fields field = .str value) : requiredText (.obj fields) field label = .ok value := by
  rw [requiredText, h]

theorem snapshot_make (item : EvidenceSnapshotReference) : EvidenceSnapshotReference.make item.evidenceId
    item.sourceKind item.revision item.locatorDigest = .ok item := by
  unfold EvidenceSnapshotReference.make
  split
  · next hproblem => rw [item.valid] at hproblem; cases hproblem
  · rfl

theorem receipt_make (receipt : EvidenceReadReceipt) :
    EvidenceReadReceipt.make receipt.toReceiptBody receipt.signature = .ok receipt := by
  unfold EvidenceReadReceipt.make
  split
  · next hproblem => rw [receipt.valid] at hproblem; cases hproblem
  · rfl

theorem make_eq_ok {body : ReceiptBody} {signature : String} {receipt : EvidenceReadReceipt}
    (h : EvidenceReadReceipt.make body signature = .ok receipt) :
    receipt.toReceiptBody = body ∧ receipt.signature = signature := by
  unfold EvidenceReadReceipt.make at h
  split at h
  · cases h
  · cases h
    exact ⟨rfl, rfl⟩

/-- A snapshot is read back from its own payload. -/
theorem snapshotFromPayload_sorted (item : EvidenceSnapshotReference) :
    snapshotFromPayload item.payload.sortKeys = .ok item := by
  have hget := Json.get_sorted (snapshot_keys item)
  simp only [EvidenceSnapshotReference.payload, Json.sortKeys, snapshotFromPayload]
  rw [requiredText_of_get (hget "evidence_id"), requiredText_of_get (hget "source_kind"),
    requiredText_of_get (hget "revision"), requiredText_of_get (hget "locator_digest")]
  exact snapshot_make item

theorem requiredTimestamp_of_get {fields : List (String × Json)} {field label : String} {time : UtcTime}
    (h : Json.get fields field = .str time.isoformat) : requiredTimestamp fields field label = .ok time := by
  obtain ⟨parsed, hparsed, hutc⟩ := inUtc_isoformat time
  have haware : ¬ parsed.utcoffset.isNone = true := by
    intro hnaive
    rw [PyDateTime.inUtc, if_neg (by simp_all)] at hutc
    cases hutc
  rw [requiredTimestamp, requiredText_of_get h]
  simp [bind, Except.bind, hparsed, haware, hutc]

theorem requiredBool_of_get {fields : List (String × Json)} {field label : String} {value : Bool}
    (h : Json.get fields field = .bool value) : requiredBool fields field label = .ok value := by
  rw [requiredBool, h]

/-- What the checks of a receipt say of its evidence, its times and its identifier. -/
theorem checked_receipt (receipt : EvidenceReadReceipt) :
    matchesIdentifier receipt.receiptId = true ∧
      sortedBy (·.evidenceId) receipt.evidence = receipt.evidence ∧
        receipt.issuedAt.instant < receipt.expiresAt.instant := by
  have hvalid := receipt.valid
  simp only [receiptProblem, Option.or_eq_none_iff, invalid, ite_eq_left_iff, reduceCtorEq, imp_false,
    Bool.not_eq_true, Bool.not_eq_false] at hvalid
  obtain ⟨hid, -, -, -, -, -, -, -, hrest⟩ := hvalid
  split_ifs at hrest with hsorted hunique hnonempty htimes hdigest
  exact ⟨hid, (not_not.mp hsorted).symm, not_le.mp htimes⟩

/-- A receipt is read back from its own payload. -/
theorem receiptFromPayload_loaded (receipt : EvidenceReadReceipt) {fields : List (String × Json)}
    (hget : ∀ key, Json.get fields key = Json.sortKeys (Json.get (("receipt_id", .str receipt.receiptId) ::
      receipt.baseEntries ++ [("signature", .str receipt.signature)]) key)) :
    receiptFromPayload fields = .ok receipt := by
  have hitems : (receipt.evidence.map fun item => item.payload.sortKeys).mapM snapshotFromPayload =
      .ok receipt.evidence := by
    apply mapM_eq_ok.mpr
    rw [List.forall₂_map_left_iff]
    exact List.forall₂_same.mpr fun item _ => snapshotFromPayload_sorted item
  have hevidence : evidenceFromPayload fields = .ok receipt.evidence := by
    have harray : Json.get fields "evidence" = .arr (receipt.evidence.map fun item => item.payload.sortKeys) := by
      have hentry : Json.get (("receipt_id", .str receipt.receiptId) :: receipt.baseEntries ++
          [("signature", .str receipt.signature)]) "evidence" = .arr (receipt.evidence.map (·.payload)) := rfl
      rw [hget "evidence", hentry, Json.sortKeys, Json.sortKeysItems_eq_map, List.map_map]
      rfl
    rw [evidenceFromPayload, harray]
    simp only [hitems, ok_bind, pure, Except.pure, (checked_receipt receipt).2.1]
  rw [receiptFromPayload, hevidence, requiredText_of_get (hget "receipt_id"), requiredText_of_get (hget "tenant_id"),
    requiredText_of_get (hget "product"), requiredText_of_get (hget "scope_id"),
    requiredText_of_get (hget "correlation_id"), requiredText_of_get (hget "principal_fingerprint"),
    requiredText_of_get (hget "context_version"), requiredText_of_get (hget "context_packet_digest"),
    requiredBool_of_get (hget "context_qualified"), requiredBool_of_get (hget "packet_complete"),
    requiredTimestamp_of_get (hget "issued_at"), requiredTimestamp_of_get (hget "expires_at"),
    requiredText_of_get (hget "signature")]
  exact receipt_make receipt

/-- The row of a receipt gives the receipt. -/
theorem row_decodes (receipt : EvidenceReadReceipt) :
    (payloadFromJson floatRepr receipt.row.payload >>= receiptFromPayload) = .ok receipt := by
  obtain ⟨fields, hloads, hget⟩ := Json.loads_obj floatRepr (readable_payload floatRepr receipt)
  have hpayload : payloadFromJson floatRepr receipt.row.payload = .ok fields := by
    rw [payloadFromJson]
    rw [show receipt.row.payload = receipt.payload.dumpsUnicode from rfl, EvidenceReadReceipt.payload, hloads]
  rw [hpayload, ok_bind, receiptFromPayload_loaded receipt hget]

theorem getReceipt_of_row {store : ReceiptStore} {receipt : EvidenceReadReceipt} {row : StoredReceipt}
    (hrow : store.get receipt.receiptId = some row) (hpayload : row.payload = receipt.payload.dumpsUnicode) :
    getReceipt floatRepr store receipt.receiptId = .ok (some receipt) := by
  have hid := (checked_receipt receipt).1
  have hdecodes := row_decodes floatRepr receipt
  rw [show receipt.row.payload = receipt.payload.dumpsUnicode from rfl, ← hpayload] at hdecodes
  obtain ⟨fields, hfields, hreceipt⟩ := bind_eq_ok_iff.mp hdecodes
  rw [getReceipt, resolveReceiptId, if_pos hid]
  simp only [ok_bind, hrow, hfields, hreceipt]
  rfl

/-- Bodies with the same text are the same body. -/
theorem unsignedPayload_injective {a b : ReceiptBody}
    (h : a.unsignedPayload.dumpsUnicode = b.unsignedPayload.dumpsUnicode) : a = b := by
  have hget := Json.get_eq_of_dumpsUnicode_eq id (readable_unsigned id a) (readable_unsigned id b) h
  have hitems : (a.evidence.map (·.payload)).map Json.sortKeys = (b.evidence.map (·.payload)).map Json.sortKeys := by
    have hevidence := hget "evidence"
    have ha : Json.get (("receipt_id", .str a.receiptId) :: a.baseEntries) "evidence" =
        .arr (a.evidence.map (·.payload)) := rfl
    have hb : Json.get (("receipt_id", .str b.receiptId) :: b.baseEntries) "evidence" =
        .arr (b.evidence.map (·.payload)) := rfl
    rw [ha, hb, Json.sortKeys, Json.sortKeys, Json.sortKeysItems_eq_map, Json.sortKeysItems_eq_map] at hevidence
    exact Json.arr.inj hevidence
  have hitem : Function.Injective fun item : EvidenceSnapshotReference => item.payload.sortKeys := by
    intro x y hxy
    have hx := snapshotFromPayload_sorted x
    rw [show x.payload.sortKeys = y.payload.sortKeys from hxy, snapshotFromPayload_sorted y] at hx
    exact (Except.ok.inj hx).symm
  have hevidence : a.evidence = b.evidence := by
    rw [List.map_map, List.map_map] at hitems
    exact hitem.list_map hitems
  cases a
  cases b
  simp only [ReceiptBody.mk.injEq]
  exact ⟨Json.str.inj (hget "receipt_id"), Json.str.inj (hget "tenant_id"), Json.str.inj (hget "product"),
    Json.str.inj (hget "scope_id"), Json.str.inj (hget "correlation_id"),
    Json.str.inj (hget "principal_fingerprint"), Json.str.inj (hget "context_version"),
    Json.str.inj (hget "context_packet_digest"), Json.bool.inj (hget "context_qualified"),
    Json.bool.inj (hget "packet_complete"), hevidence,
    UtcTime.isoformat_injective (Json.str.inj (hget "issued_at")),
    UtcTime.isoformat_injective (Json.str.inj (hget "expires_at"))⟩

end

/-! ### The store -/

/-- No call changes a row that is there. -/
theorem step_keeps_row (l : ReceiptLibrary) (store : ReceiptStore) (call : ReceiptCall) {receiptId : String}
    {row : StoredReceipt} (h : store.get receiptId = some row) :
    (ReceiptStore.step l store call).1.get receiptId = some row := by
  have hrecord : ∀ receipt, (recordReceipt store receipt).1.get receiptId = some row := by
    intro receipt
    unfold recordReceipt
    split
    · split_ifs <;> exact h
    · next hfree =>
      have hne : receiptId ≠ StoredReceipt.key receipt.row := by
        intro heq
        rw [heq] at h
        rw [show receipt.receiptId = StoredReceipt.key receipt.row from rfl, h] at hfree
        cases hfree
      rw [Table.get_put_of_ne _ hne]
      exact h
  cases hrequest : call.request with
  | issue authority request =>
    simp only [ReceiptStore.step, hrequest, ReceiptAuthority.issue]
    cases authority.prepare l request call.clock with
    | error x => exact h
    | ok receipt =>
      have hstored := hrecord receipt
      dsimp only
      rcases hanswer : recordReceipt store receipt with ⟨after, answer⟩
      rw [hanswer] at hstored
      cases answer <;> exact hstored
  | record receipt =>
    simp only [ReceiptStore.step, hrequest]
    exact hrecord receipt
  | get id =>
    simp only [ReceiptStore.step, hrequest]
    exact h
  | requireForProposal authority request =>
    simp only [ReceiptStore.step, hrequest]
    exact h

theorem run_keeps_row (l : ReceiptLibrary) {store : ReceiptStore} (calls : List ReceiptCall) {receiptId : String}
    {row : StoredReceipt} (h : store.get receiptId = some row) :
    (runState (ReceiptStore.step l) store calls).get receiptId = some row :=
  run_invariant _ (fun store call hrow => step_keeps_row l store call hrow) h calls

theorem recordReceipt_row {store after : ReceiptStore} {receipt : EvidenceReadReceipt} {new : Bool}
    (h : recordReceipt store receipt = (after, .ok new)) :
    ∃ row, after.get receipt.receiptId = some row ∧ row.payload = receipt.payload.dumpsUnicode := by
  unfold recordReceipt at h
  split at h
  · next row hrow =>
    split_ifs at h with hpayload
    · cases h
    · obtain ⟨rfl, -⟩ := Prod.mk.inj h
      exact ⟨row, hrow, not_not.mp hpayload⟩
  · obtain ⟨rfl, -⟩ := Prod.mk.inj h
    refine ⟨receipt.row, ?_, rfl⟩
    rw [Table.get_put]
    exact if_pos rfl

/-! ### The gate -/

section

variable {l : ReceiptLibrary} {authority : ReceiptAuthority}

/-- What the gate asks of the receipt that it has loaded. -/
structure Passes (l : ReceiptLibrary) (secret : String) (proposal : ProposalRequest) (clock : UtcTime)
    (receipt : EvidenceReadReceipt) : Prop where
  tenantId : receipt.tenantId = proposal.tenantId
  product : receipt.product = proposal.product
  scopeId : receipt.scopeId = proposal.scopeId
  correlationId : receipt.correlationId = proposal.correlationId
  principal : receipt.principalFingerprint = principalFingerprint l proposal.principal
  contextVersion : receipt.contextVersion = proposal.contextVersion
  packetDigest : receipt.contextPacketDigest = proposal.packetDigest
  signature : receipt.signature = receipt.sign l secret
  aware : (orNow proposal.now clock).aware = true
  issued : receipt.issuedAt.instant ≤ (orNow proposal.now clock).utc.instant
  current : (orNow proposal.now clock).utc.instant < receipt.expiresAt.instant
  qualified : receipt.contextQualified = true
  complete : receipt.packetComplete = true
  evidence : receipt.evidence ≠ []

theorem bindings_agree_iff {proposal : ProposalRequest} {body : ReceiptBody} :
    (ReceiptAuthority.bindings l proposal body).find? (fun binding => binding.2.1 ≠ binding.2.2) = none ↔
      body.tenantId = proposal.tenantId ∧ body.product = proposal.product ∧ body.scopeId = proposal.scopeId ∧
        body.correlationId = proposal.correlationId ∧
          body.principalFingerprint = principalFingerprint l proposal.principal ∧
            body.contextVersion = proposal.contextVersion ∧ body.contextPacketDigest = proposal.packetDigest := by
  rw [List.find?_eq_none]
  simp [ReceiptAuthority.bindings]

theorem checkReceipt_isOk_iff {proposal : ProposalRequest} {clock : UtcTime} {receipt : EvidenceReadReceipt} :
    (authority.checkReceipt l proposal clock receipt).isOk = true ↔
      Passes l authority.secret proposal clock receipt := by
  constructor
  · intro h
    unfold ReceiptAuthority.checkReceipt at h
    split at h
    · cases h
    · next hbindings =>
      obtain ⟨htenant, hproduct, hscope, hcorrelation, hprincipal, hversion, hdigest⟩ :=
        bindings_agree_iff.mp hbindings
      by_cases hsignature : receipt.signature ≠ receipt.sign l authority.secret
      · rw [if_pos hsignature] at h
        cases h
      · rw [if_neg hsignature] at h
        unfold receiptTime at h
        by_cases haware : (orNow proposal.now clock).aware = true
        · rw [if_pos haware, ok_bind] at h
          split_ifs at h with hwindow hqualified hcomplete hevidence
          all_goals cases h
          obtain ⟨hissued, hcurrent⟩ := not_or.mp hwindow
          exact ⟨htenant, hproduct, hscope, hcorrelation, hprincipal, hversion, hdigest, not_not.mp hsignature,
            haware, not_lt.mp hissued, not_le.mp hcurrent, by simpa using hqualified,
            by simpa using hcomplete, hevidence⟩
        · rw [if_neg haware] at h
          cases h
  · intro h
    have hbindings := (bindings_agree_iff (l := l)).mpr ⟨h.tenantId, h.product, h.scopeId, h.correlationId,
      h.principal, h.contextVersion, h.packetDigest⟩
    have hwindow : ¬ ((orNow proposal.now clock).utc.instant < receipt.issuedAt.instant ∨
        receipt.expiresAt.instant ≤ (orNow proposal.now clock).utc.instant) :=
      not_or.mpr ⟨not_lt.mpr h.issued, not_le.mpr h.current⟩
    have hqualified : ¬ receipt.contextQualified = false := by simp [h.qualified]
    have hcomplete : ¬ receipt.packetComplete = false := by simp [h.complete]
    unfold ReceiptAuthority.checkReceipt
    rw [hbindings]
    simp only
    rw [if_neg (not_not.mpr h.signature), receiptTime, if_pos h.aware, ok_bind, if_neg hwindow, if_neg hqualified,
      if_neg hcomplete, if_neg h.evidence]
    rfl

/-- Only the receipt that was loaded comes out of the gate. -/
theorem checkReceipt_eq_ok {proposal : ProposalRequest} {clock : UtcTime} {receipt taken : EvidenceReadReceipt}
    (h : authority.checkReceipt l proposal clock receipt = .ok taken) : taken = receipt := by
  unfold ReceiptAuthority.checkReceipt at h
  split at h
  · cases h
  · by_cases hsignature : receipt.signature ≠ receipt.sign l authority.secret
    · rw [if_pos hsignature] at h
      cases h
    · rw [if_neg hsignature] at h
      obtain ⟨current, -, hrest⟩ := bind_eq_ok_iff.mp h
      split_ifs at hrest
      exact (Except.ok.inj hrest).symm

theorem requireForProposal_isOk_iff {store : ReceiptStore} {proposal : ProposalRequest} {clock : UtcTime}
    {receipt : EvidenceReadReceipt}
    (hstored : getReceipt l.floatRepr store proposal.receiptId = .ok (some receipt)) :
    (authority.requireForProposal l store proposal clock).isOk = true ↔
      Passes l authority.secret proposal clock receipt := by
  rw [ReceiptAuthority.requireForProposal, hstored, ok_bind]
  exact checkReceipt_isOk_iff

end

/-! ### Issued receipts -/

theorem readable_principal (p : BrainPrincipal) : (Json.obj [("groups", .arr (p.groups.map .str)),
    ("users", .arr (p.users.map .str))]).Readable id := by
  have hlist : ∀ xs : List String, Json.ReadableItems id (xs.map .str) := by
    intro xs
    apply (Json.readableItems_iff id).mpr
    intro j hj
    obtain ⟨x, -, rfl⟩ := List.mem_map.mp hj
    trivial
  have hkeys : ["groups", "users"].Nodup := by decide
  exact ⟨hkeys, hlist _, hlist _, trivial⟩

/-- A principal is known by its fingerprint. -/
theorem principalFingerprint_injective {l : ReceiptLibrary} (hsha : Function.Injective l.sha256)
    {a b : BrainPrincipal} (h : principalFingerprint l a = principalFingerprint l b) : a = b := by
  have hlists : ∀ {xs ys : List String}, Json.sortKeys (.arr (xs.map .str)) = Json.sortKeys (.arr (ys.map .str)) →
      xs = ys := by
    intro xs ys hxy
    have hsame : ∀ zs : List String, Json.sortKeys (.arr (zs.map .str)) = .arr (zs.map .str) := by
      intro zs
      rw [Json.sortKeys, Json.sortKeysItems_eq_map, List.map_map]
      rfl
    have hinj : Function.Injective Json.str := fun x y h => Json.str.inj h
    rw [hsame, hsame] at hxy
    exact hinj.list_map (Json.arr.inj hxy)
  have htext := hsha ((String.append_right_inj _).mp h)
  have hget := Json.get_eq_of_dumpsUnicode_eq id (readable_principal a) (readable_principal b) htext
  have hgroups : a.groups = b.groups := hlists (hget "groups")
  have husers : a.users = b.users := hlists (hget "users")
  cases a
  cases b
  simp only [BrainPrincipal.mk.injEq]
  exact ⟨hgroups, husers⟩

/-- What `issue` has put into the receipt that it gives out. -/
structure IssuedFor (l : ReceiptLibrary) (secret : String) (request : IssueRequest)
    (receipt : EvidenceReadReceipt) : Prop where
  tenantId : receipt.tenantId = request.tenantId
  product : receipt.product = request.product
  scopeId : receipt.scopeId = request.scopeId
  correlationId : receipt.correlationId = request.correlationId
  principal : receipt.principalFingerprint = principalFingerprint l request.principal
  contextVersion : receipt.contextVersion = request.context.contextVersion
  packetDigest : receipt.contextPacketDigest = request.packet.digest
  qualified : receipt.contextQualified = request.context.qualified
  complete : receipt.packetComplete = request.packet.complete
  evidence : receipt.evidence = [] ↔ request.packet.evidence = []
  signature : receipt.signature = receipt.sign l secret

theorem prepare_spec {l : ReceiptLibrary} {authority : ReceiptAuthority} {request : IssueRequest}
    {clock : UtcTime} {receipt : EvidenceReadReceipt} (h : authority.prepare l request clock = .ok receipt) :
    IssuedFor l authority.secret request receipt := by
  rw [ReceiptAuthority.prepare, bind_eq_ok_iff] at h
  obtain ⟨-, -, h⟩ := h
  obtain ⟨issuedAt, -, h⟩ := bind_eq_ok_iff.mp h
  split_ifs at h with httl
  split at h
  · cases h
  · next expiresAt hexpires =>
    obtain ⟨evidence, hevidence, h⟩ := bind_eq_ok_iff.mp h
    obtain ⟨hbody, hsignature⟩ := make_eq_ok h
    have hlength := (mapM_eq_ok.mp hevidence).length_eq
    have hempty : sortedBy (·.evidenceId) evidence = [] ↔ request.packet.evidence = [] := by
      rw [← List.length_eq_zero_iff, ← List.length_eq_zero_iff, (perm_sortedBy _ _).length_eq, hlength]
    rw [← hbody] at hsignature
    have hfields : receipt.toReceiptBody =
      (request.draft l (sortedBy (·.evidenceId) evidence) issuedAt expiresAt).identified l := hbody
    refine ⟨?_, ?_, ?_, ?_, ?_, ?_, ?_, ?_, ?_, ?_, hsignature⟩
    all_goals rw [hfields]
    all_goals first
      | rfl
      | exact hempty

/-- An issued receipt is in the store. -/
theorem issue_spec {l : ReceiptLibrary} {authority : ReceiptAuthority} {store after : ReceiptStore}
    {request : IssueRequest} {clock : UtcTime} {receipt : EvidenceReadReceipt}
    (h : authority.issue l store request clock = (after, .ok receipt)) :
    IssuedFor l authority.secret request receipt ∧
      ∃ row, after.get receipt.receiptId = some row ∧ row.payload = receipt.payload.dumpsUnicode := by
  unfold ReceiptAuthority.issue at h
  split at h
  · cases h
  · next prepared hprepared =>
    rcases hrecord : recordReceipt store prepared with ⟨recorded, answer⟩
    rw [hrecord] at h
    cases answer with
    | error x => cases h
    | ok new =>
      cases h
      exact ⟨prepare_spec hprepared, recordReceipt_row hrecord⟩

/-- When an issued receipt supports a proposal. -/
structure SupportsProposal (request : IssueRequest) (receipt : EvidenceReadReceipt) (proposal : ProposalRequest)
    (clock : UtcTime) : Prop where
  aware : (orNow proposal.now clock).aware = true
  issued : receipt.issuedAt.instant ≤ (orNow proposal.now clock).utc.instant
  current : (orNow proposal.now clock).utc.instant < receipt.expiresAt.instant
  qualified : request.context.qualified = true
  complete : request.packet.complete = true
  evidence : request.packet.evidence ≠ []
  tenantId : proposal.tenantId = request.tenantId
  product : proposal.product = request.product
  scopeId : proposal.scopeId = request.scopeId
  correlationId : proposal.correlationId = request.correlationId
  principal : proposal.principal = request.principal
  contextVersion : proposal.contextVersion = request.context.contextVersion
  packetDigest : proposal.packetDigest = request.packet.digest

theorem passes_iff_supports {l : ReceiptLibrary} (hsha : Function.Injective l.sha256) {secret : String}
    {request : IssueRequest} {receipt : EvidenceReadReceipt} (h : IssuedFor l secret request receipt)
    {proposal : ProposalRequest} {clock : UtcTime} :
    Passes l secret proposal clock receipt ↔ SupportsProposal request receipt proposal clock := by
  constructor
  · intro hpass
    have hprincipal := principalFingerprint_injective hsha (h.principal.symm.trans hpass.principal)
    exact ⟨hpass.aware, hpass.issued, hpass.current, h.qualified.symm.trans hpass.qualified,
      h.complete.symm.trans hpass.complete, fun hempty => hpass.evidence (h.evidence.mpr hempty),
      hpass.tenantId.symm.trans h.tenantId, hpass.product.symm.trans h.product,
      hpass.scopeId.symm.trans h.scopeId, hpass.correlationId.symm.trans h.correlationId, hprincipal.symm,
      hpass.contextVersion.symm.trans h.contextVersion, hpass.packetDigest.symm.trans h.packetDigest⟩
  · intro hsupport
    exact ⟨h.tenantId.trans hsupport.tenantId.symm, h.product.trans hsupport.product.symm,
      h.scopeId.trans hsupport.scopeId.symm, h.correlationId.trans hsupport.correlationId.symm,
      by rw [h.principal, hsupport.principal], h.contextVersion.trans hsupport.contextVersion.symm,
      h.packetDigest.trans hsupport.packetDigest.symm, h.signature, hsupport.aware, hsupport.issued,
      hsupport.current, h.qualified.trans hsupport.qualified, h.complete.trans hsupport.complete,
      fun hempty => hsupport.evidence (h.evidence.mp hempty)⟩

/-- A signature is good for the body that it was made for, and for no other. -/
theorem sign_injective {l : ReceiptLibrary} {secret : String} (hhmac : Function.Injective (l.hmac secret))
    {a b : ReceiptBody} (h : a.sign l secret = b.sign l secret) : a = b :=
  unsignedPayload_injective (hhmac ((String.append_right_inj _).mp h))

/-- An issued receipt, however often it was stored and loaded since, is taken exactly for the proposals
it supports; and no stored receipt is taken whose body is not the one that its signature was issued
for. -/
theorem issued_receipt_gate (l : ReceiptLibrary) (hsha : Function.Injective l.sha256)
    (hhmac : ∀ secret, Function.Injective (l.hmac secret)) {authority : ReceiptAuthority}
    {store after : ReceiptStore} {request : IssueRequest} {issueClock : UtcTime} {receipt : EvidenceReadReceipt}
    (h : authority.issue l store request issueClock = (after, .ok receipt)) :
    (∀ (calls : List ReceiptCall) (proposal : ProposalRequest) (clock : UtcTime),
      proposal.receiptId = receipt.receiptId →
        ((authority.requireForProposal l (runState (ReceiptStore.step l) after calls) proposal clock).isOk = true ↔
          SupportsProposal request receipt proposal clock)) ∧
      ∀ (tampered : ReceiptStore) (proposal : ProposalRequest) (clock : UtcTime) (stored : EvidenceReadReceipt),
        getReceipt l.floatRepr tampered proposal.receiptId = .ok (some stored) →
          stored.toReceiptBody ≠ receipt.toReceiptBody ∧ stored.signature = receipt.signature ∨
            stored.signature ≠ stored.sign l authority.secret →
          ∃ x, authority.requireForProposal l tampered proposal clock = .error x := by
  obtain ⟨hissued, row, hrow, hpayload⟩ := issue_spec h
  constructor
  · intro calls proposal clock hid
    have hkept := run_keeps_row l calls hrow
    have hstored := getReceipt_of_row l.floatRepr hkept hpayload
    rw [← hid] at hstored
    rw [requireForProposal_isOk_iff hstored]
    exact passes_iff_supports hsha hissued
  · intro tampered proposal clock stored hstored hforged
    have hrefused : ¬ Passes l authority.secret proposal clock stored := by
      intro hpass
      rcases hforged with ⟨hbody, hsignature⟩ | hsignature
      · rw [hpass.signature, hissued.signature] at hsignature
        exact hbody (sign_injective (hhmac authority.secret) hsignature)
      · exact hsignature hpass.signature
    rw [← requireForProposal_isOk_iff hstored] at hrefused
    cases hanswer : authority.requireForProposal l tampered proposal clock with
    | error x => exact ⟨x, rfl⟩
    | ok taken =>
      rw [hanswer] at hrefused
      exact absurd rfl hrefused

/-! ### A read of one document -/

namespace DocumentRead

def principal : BrainPrincipal := ⟨["sre"], ["alice"], by decide +kernel⟩

def reference : EvidenceReference := ⟨"doc:pay", "document", "docs/pay.md", "1", true, by decide +kernel⟩

def context : DecisionContext :=
  ⟨"world:7", true, 1, [], ⟨.measured, [reference], [], by decide +kernel⟩, [], [], by decide +kernel⟩

def budget : ContextPacketBudget :=
  ⟨20, 40, 12, 12, 12000, by decide, by decide, by decide, by decide, by decide⟩

def packet : ContextPacket :=
  ⟨"world:7", true, 1, [], [reference], [], [], [], budget,
    "sha256:" ++ "2ded2f4c9f82586d5c308c5b7a70bdb49b7a08931c54caae973e6ca55b41d126"⟩

/-- The first of January 2024, `minute` minutes after midnight. -/
def minutesIn (minute : Fin 60) : UtcTime :=
  ⟨2024, 1, 1, 0, minute, 0, 0, by decide, by omega⟩

def snapshot : EvidenceSnapshotReference :=
  ⟨"doc:pay", "document", "1",
    "sha256:" ++ "a8253aca884769555d57d6d0f3d0fa8ec9087268ac3459676cf5d10b6f3251df", by decide +kernel⟩

/-- The body of the receipt, issued at midnight for ten minutes. -/
def body : ReceiptBody :=
  { receiptId := "evidence-read:" ++ "f6dcae501a7420f5c053dab88f377163a358fae792e5e7748fd14368ff1f1210"
    tenantId := "acme"
    product := "brief"
    scopeId := "pay"
    correlationId := "corr-1"
    principalFingerprint := "sha256:" ++ "c5bdd8341df0f585ac4231163db092f4e8aa7e61f39489a364aeff79f99afade"
    contextVersion := "world:7"
    contextPacketDigest := packet.digest
    contextQualified := true
    packetComplete := true
    evidence := [snapshot]
    issuedAt := minutesIn 0
    expiresAt := minutesIn 10 }

/-- SHA-256 on the texts that are hashed for the receipt. -/
def digests : List (String × String) :=
  [((Json.obj [("groups", .arr (principal.groups.map .str)), ("users", .arr (principal.users.map .str))]).dumpsUnicode,
      "c5bdd8341df0f585ac4231163db092f4e8aa7e61f39489a364aeff79f99afade"),
    ((Json.obj body.baseEntries).dumpsUnicode,
      "f6dcae501a7420f5c053dab88f377163a358fae792e5e7748fd14368ff1f1210"),
    ("docs/pay.md", "a8253aca884769555d57d6d0f3d0fa8ec9087268ac3459676cf5d10b6f3251df")]

def secret : String := "0123456789abcdef0123456789abcdef"

/-- HMAC-SHA-256 on the body of the receipt. -/
def signatures : List (String × String) :=
  [(body.unsignedPayload.dumpsUnicode, "edb3d6924cd5692bf2bf6d727ac2bc7ffc554c7b36321a526d8361e63575d156")]

/-- The two hashes with what they give here; `more` has the digests of further texts. -/
def library (more : List (String × String)) : ReceiptLibrary where
  sha256 := digestsAt (digests ++ more)
  hmac key := digestsAt (if key = secret then signatures else [])
  floatRepr := id
  project _ _ := .ok packet

theorem hmac_injective (key : String) : Function.Injective ((library []).hmac key) := by
  have hsignatures : (signatures.map (·.2)).Nodup := by decide
  have hsigned : ∀ p ∈ signatures, p.2.toList.head? ≠ some 'z' := by decide
  by_cases hkey : key = secret
  · simp only [library, if_pos hkey]
    exact digestsAt_injective hsignatures hsigned
  · simp only [library, if_neg hkey]
    exact digestsAt_injective List.nodup_nil (by simp)

theorem sha256_injective : Function.Injective (library []).sha256 := by
  have hdigests : (digests.map (·.2)).Nodup := by decide +kernel
  have hhead : ∀ p ∈ digests, p.2.toList.head? ≠ some 'z' := by decide +kernel
  rw [library, List.append_nil]
  exact digestsAt_injective hdigests hhead

variable (more : List (String × String))

theorem library_sha256 : (library more).sha256 = digestsAt (digests ++ more) := rfl

theorem library_hmac : (library more).hmac secret = digestsAt signatures := by
  simp only [library, if_true]

theorem fingerprint : principalFingerprint (library more) principal = body.principalFingerprint := by
  rw [principalFingerprint, library_sha256, digests, List.cons_append, digestsAt_cons_self]
  rfl

/-- An object's text is no plain name. -/
theorem object_ne (fields : List (String × Json)) : (Json.obj fields).dumpsUnicode ≠ "docs/pay.md" := by
  intro heq
  have hhead := congrArg (fun t : String => t.toList.head?) heq
  simp only [Json.dumpsUnicode_eq_write] at hhead
  cases hhead

theorem base_digest : (library more).sha256 (Json.obj body.baseEntries).dumpsUnicode =
    "f6dcae501a7420f5c053dab88f377163a358fae792e5e7748fd14368ff1f1210" := by
  have hprincipal : (Json.obj body.baseEntries).dumpsUnicode ≠ (Json.obj [("groups",
      .arr (principal.groups.map .str)), ("users", .arr (principal.users.map .str))]).dumpsUnicode := by
    intro heq
    have hget := Json.get_eq_of_dumpsUnicode_eq id ⟨base_keys body, readable_baseEntries id body⟩
      (readable_principal principal) heq "groups"
    cases hget
  rw [library_sha256, digests, List.cons_append, digestsAt_cons_ne _ hprincipal, List.cons_append, digestsAt_cons_self]

theorem locator_digest : (library more).sha256 "docs/pay.md" =
    "a8253aca884769555d57d6d0f3d0fa8ec9087268ac3459676cf5d10b6f3251df" := by
  rw [library_sha256, digests, List.cons_append, digestsAt_cons_ne _ (object_ne _).symm, List.cons_append,
    digestsAt_cons_ne _ (object_ne _).symm, List.cons_append, digestsAt_cons_self]

theorem signed : body.sign (library more) secret =
    "sha256:" ++ "edb3d6924cd5692bf2bf6d727ac2bc7ffc554c7b36321a526d8361e63575d156" := by
  rw [ReceiptBody.sign, library_hmac, signatures, digestsAt_cons_self]

def authority : ReceiptAuthority := ⟨secret, 900000000, by decide +kernel, by decide⟩

def request : IssueRequest :=
  { tenantId := "acme", product := "brief", scopeId := "pay", correlationId := "corr-1", principal, context
    packet, now := none, ttl := 600000000 }

def receipt : EvidenceReadReceipt :=
  ⟨body, "sha256:" ++ "edb3d6924cd5692bf2bf6d727ac2bc7ffc554c7b36321a526d8361e63575d156", by decide +kernel⟩

theorem checked : checkIssue (library more) request = .ok () := by
  have hfields : raiseFirst ((invalid (matchesIdentifier request.tenantId) "evidence read tenant_id").or
    ((invalid (isProduct request.product) "evidence read product").or
      ((invalid (matchesIdentifier request.scopeId) "evidence read scope_id").or
        (invalid (matchesIdentifier request.correlationId) "evidence read correlation_id")))) = .ok () := by
    have htenant : matchesIdentifier request.tenantId = true := by decide
    have hproduct : isProduct request.product = true := by decide
    have hscope : matchesIdentifier request.scopeId = true := by decide
    have hcorrelation : matchesIdentifier request.correlationId = true := by decide
    rw [htenant, hproduct, hscope, hcorrelation]
    rfl
  have hversion : request.packet.contextVersion = request.context.contextVersion := rfl
  have hqualified : request.packet.qualified = request.context.qualified := rfl
  have hproject : (library more).project request.context request.packet.budget = .ok packet := rfl
  have hpacket : request.packet = packet := rfl
  rw [checkIssue, hfields, ok_bind, if_neg (not_not.mpr hversion), if_neg (not_not.mpr hqualified), hproject]
  dsimp only
  rw [if_neg (not_not.mpr hpacket)]

theorem evidence_read : request.packet.evidence.mapM (EvidenceSnapshotReference.fromReference (library more)) =
    .ok [snapshot] := by
  have hone : EvidenceSnapshotReference.fromReference (library more) reference = .ok snapshot := by
    rw [EvidenceSnapshotReference.fromReference, show reference.locator = "docs/pay.md" from rfl, locator_digest]
    exact snapshot_make snapshot
  apply mapM_eq_ok.mpr
  exact .cons hone .nil

theorem prepared : authority.prepare (library more) request (minutesIn 0) = .ok receipt := by
  have htime : receiptTime (orNow request.now (minutesIn 0)) "evidence read issued_at" = .ok (minutesIn 0) := rfl
  have hadd : (minutesIn 0).add request.ttl.toNat = some (minutesIn 10) := by decide
  have httl : ¬ (request.ttl ≤ 0 ∨ authority.maximumTtl < request.ttl) := by decide
  have hsorted : sortedBy (·.evidenceId) [snapshot] = [snapshot] := rfl
  have hbase : (request.draft (library more) [snapshot] (minutesIn 0) (minutesIn 10)).baseEntries =
      body.baseEntries := by
    simp only [IssueRequest.draft, ReceiptBody.baseEntries]
    rw [show request.principal = principal from rfl, fingerprint]
    rfl
  have hdraft : (request.draft (library more) [snapshot] (minutesIn 0) (minutesIn 10)).identified (library more) =
      body := by
    unfold ReceiptBody.identified
    rw [hbase, base_digest, IssueRequest.draft]
    rw [show request.principal = principal from rfl, fingerprint]
    rfl
  rw [ReceiptAuthority.prepare, checked, ok_bind, htime, ok_bind, if_neg httl, hadd]
  dsimp only
  rw [evidence_read, ok_bind, hsorted, hdraft, show authority.secret = secret from rfl, signed]
  exact receipt_make receipt

/-- The receipt is issued into an empty store. -/
theorem issued : authority.issue (library more) Table.empty request (minutesIn 0) =
    (Table.empty.put receipt.row, .ok receipt) := by
  rw [ReceiptAuthority.issue, prepared]
  rfl

/-- A proposal under the receipt, by the same principal. -/
def proposal : ProposalRequest :=
  { receiptId := body.receiptId, tenantId := "acme", product := "brief", scopeId := "pay"
    correlationId := "corr-1", principal, contextVersion := "world:7", packetDigest := packet.digest
    now := none }

/-- What the gate says in some minute, when the receipt has been loaded and stored once more. -/
def answer (minute : Fin 60) : Except ReceiptError EvidenceReadReceipt :=
  authority.requireForProposal (library [])
    (runState (ReceiptStore.step (library [])) (Table.empty.put receipt.row)
      [⟨minutesIn 1, .get receipt.receiptId⟩, ⟨minutesIn 2, .record receipt⟩])
    proposal (minutesIn minute)

end DocumentRead

open DocumentRead in
/-- The receipt is taken up to its tenth minute. -/
theorem document_read_gate : (answer 9).isOk = true ∧ ¬ (answer 10).isOk = true := by
  constructor
  · rw [answer, (issued_receipt_gate (library []) sha256_injective hmac_injective (issued [])).1 _ _ _ rfl]
    have hissued : (minutesIn 0).instant ≤ (minutesIn 9).instant := by decide
    have hcurrent : (minutesIn 9).instant < (minutesIn 10).instant := by decide
    exact ⟨rfl, hissued, hcurrent, rfl, rfl, List.cons_ne_nil _ _, rfl, rfl, rfl, rfl, rfl, rfl, rfl⟩
  · rw [answer, (issued_receipt_gate (library []) sha256_injective hmac_injective (issued [])).1 _ _ _ rfl]
    intro hsupport
    exact lt_irrefl _ hsupport.current

end EngineeringIntelligence.CompanyBrain
