import EngineeringIntelligence.CompanyBrain.ArtifactOutbox
import EngineeringIntelligence.CompanyBrain.DecisionContext
import EngineeringIntelligence.Framework.JsonReader
import EngineeringIntelligence.Framework.UtcInstant

namespace EngineeringIntelligence.CompanyBrain

open EngineeringIntelligence.Framework EngineeringIntelligence.Ingestion

/-! Signed receipts of an authorized evidence read, the store that keeps them, and the gate a
proposal has to pass with one. -/

/-- What the receipts' code raises. -/
inductive ReceiptError where
  /-- `EvidenceReadReceiptError` -/
  | receipt (message : String)
  /-- `OverflowError` of a date -/
  | overflow
  /-- what `json.loads` raises beside `JSONDecodeError` -/
  | loads (x : Json.LoadsError)
  deriving DecidableEq, Repr

/-- The message of the first check that fails, raised. -/
def raiseFirst : Option String → Except ReceiptError Unit
  | some message => .error (.receipt message)
  | none => .ok ()

/-- `_DIGEST.fullmatch`. -/
def isDigest (value : String) : Bool :=
  "sha256:".toList.isPrefixOf value.toList && value.toList.length = 71 &&
    (value.toList.drop 7).all fun c => c.isDigit || (decide ('a' ≤ c) && decide (c ≤ 'f'))

def snapshotProblem (evidenceId sourceKind revision locatorDigest : String) : Option String :=
  (invalid (matchesIdentifier evidenceId) "evidence snapshot evidence_id").or
    ((invalid (required 100 sourceKind) "evidence snapshot source_kind").or
      ((invalid (required 200 revision) "evidence snapshot revision").or
        (invalid (isDigest locatorDigest) "evidence snapshot locator_digest")))

/-- One immutable evidence revision, its locator only as a digest. -/
structure EvidenceSnapshotReference where
  evidenceId : String
  sourceKind : String
  revision : String
  locatorDigest : String
  valid : snapshotProblem evidenceId sourceKind revision locatorDigest = none
  deriving DecidableEq

def EvidenceSnapshotReference.make (evidenceId sourceKind revision locatorDigest : String) :
    Except ReceiptError EvidenceSnapshotReference :=
  match h : snapshotProblem evidenceId sourceKind revision locatorDigest with
  | some message => .error (.receipt message)
  | none => .ok ⟨evidenceId, sourceKind, revision, locatorDigest, h⟩

/-- What a receipt's signature is computed over. -/
structure ReceiptBody where
  receiptId : String
  tenantId : String
  product : String
  scopeId : String
  correlationId : String
  principalFingerprint : String
  contextVersion : String
  contextPacketDigest : String
  contextQualified : Bool
  packetComplete : Bool
  evidence : List EvidenceSnapshotReference
  issuedAt : UtcTime
  expiresAt : UtcTime

def receiptProblem (body : ReceiptBody) (signature : String) : Option String :=
  (invalid (matchesIdentifier body.receiptId) "evidence read receipt_id").or
    ((invalid (matchesIdentifier body.tenantId) "evidence read tenant_id").or
      ((invalid (isProduct body.product) "evidence read product").or
        ((invalid (matchesIdentifier body.scopeId) "evidence read scope_id").or
          ((invalid (matchesIdentifier body.correlationId) "evidence read correlation_id").or
            ((invalid (isDigest body.principalFingerprint) "evidence read principal_fingerprint").or
              ((invalid (required 240 body.contextVersion) "evidence read context_version").or
                ((invalid (isDigest body.contextPacketDigest) "evidence read context_packet_digest").or
                  (if body.evidence ≠ sortedBy (·.evidenceId) body.evidence then
                    some "evidence read evidence must be sorted"
                  else if ¬ (body.evidence.map (·.evidenceId)).Nodup then
                    some "evidence read evidence must be unique"
                  else if body.contextQualified = true ∧ body.evidence = [] then
                    some "a qualified evidence receipt requires retained evidence"
                  else if body.expiresAt.instant ≤ body.issuedAt.instant then
                    some "evidence read receipt must expire after issuance"
                  else invalid (isDigest signature) "evidence read signature"))))))))

/-- A signed record of one authorized evidence read. -/
structure EvidenceReadReceipt extends ReceiptBody where
  signature : String
  valid : receiptProblem toReceiptBody signature = none

def EvidenceReadReceipt.make (body : ReceiptBody) (signature : String) :
    Except ReceiptError EvidenceReadReceipt :=
  match h : receiptProblem body signature with
  | some message => .error (.receipt message)
  | none => .ok ⟨body, signature, h⟩

def EvidenceSnapshotReference.payload (item : EvidenceSnapshotReference) : Json :=
  .obj [("evidence_id", .str item.evidenceId), ("source_kind", .str item.sourceKind),
    ("revision", .str item.revision), ("locator_digest", .str item.locatorDigest)]

/-- The entries of the payload that the receipt's identifier is the digest of. -/
def ReceiptBody.baseEntries (body : ReceiptBody) : List (String × Json) :=
  [("tenant_id", .str body.tenantId), ("product", .str body.product), ("scope_id", .str body.scopeId),
    ("correlation_id", .str body.correlationId),
    ("principal_fingerprint", .str body.principalFingerprint),
    ("context_version", .str body.contextVersion),
    ("context_packet_digest", .str body.contextPacketDigest),
    ("context_qualified", .bool body.contextQualified), ("packet_complete", .bool body.packetComplete),
    ("evidence", .arr (body.evidence.map (·.payload))), ("issued_at", .str body.issuedAt.isoformat),
    ("expires_at", .str body.expiresAt.isoformat)]

/-- `unsigned_payload`. -/
def ReceiptBody.unsignedPayload (body : ReceiptBody) : Json :=
  .obj (("receipt_id", .str body.receiptId) :: body.baseEntries)

def EvidenceReadReceipt.payload (receipt : EvidenceReadReceipt) : Json :=
  .obj (("receipt_id", .str receipt.receiptId) :: receipt.baseEntries ++ [("signature", .str receipt.signature)])

/-! ### Rows -/

structure StoredReceipt where
  receiptId : String
  tenantId : String
  product : String
  scopeId : String
  expiresAt : String
  payload : String

def StoredReceipt.key (row : StoredReceipt) : String := row.receiptId

/-- The table of `SqliteEvidenceReadReceiptStore`. -/
abbrev ReceiptStore := Table StoredReceipt.key

def EvidenceReadReceipt.row (receipt : EvidenceReadReceipt) : StoredReceipt :=
  ⟨receipt.receiptId, receipt.tenantId, receipt.product, receipt.scopeId, receipt.expiresAt.isoformat,
    receipt.payload.dumpsUnicode⟩

/-- `record`. -/
def recordReceipt (store : ReceiptStore) (receipt : EvidenceReadReceipt) :
    ReceiptStore × Except ReceiptError Bool :=
  match store.get receipt.receiptId with
  | some row =>
    if row.payload ≠ receipt.payload.dumpsUnicode then
      (store, .error (.receipt "evidence read receipt_id conflicts with retained history"))
    else (store, .ok false)
  | none => (store.put receipt.row, .ok true)

/-! ### Reading a row -/

/-- `_required_text`. -/
def requiredText (payload : Json) (field label : String) : Except ReceiptError String :=
  match payload with
  | .obj fields =>
    match Json.get fields field with
    | .str value => .ok value
    | _ => .error (.receipt (label ++ "." ++ field ++ " must be a string"))
  | _ => .error (.receipt (label ++ " must be an object"))

/-- `_required_bool`. -/
def requiredBool (fields : List (String × Json)) (field label : String) : Except ReceiptError Bool :=
  match Json.get fields field with
  | .bool value => .ok value
  | _ => .error (.receipt (label ++ "." ++ field ++ " must be a boolean"))

/-- `_required_timestamp`. -/
def requiredTimestamp (fields : List (String × Json)) (field label : String) :
    Except ReceiptError UtcTime := do
  let value ← requiredText (.obj fields) field label
  match fromisoformat value with
  | none => .error (.receipt (label ++ "." ++ field ++ " must be an ISO timestamp"))
  | some parsed =>
    if parsed.utcoffset.isNone then
      .error (.receipt (label ++ "." ++ field ++ " must include a timezone"))
    else
      match parsed.inUtc with
      | some time => .ok time
      | none => .error .overflow

def snapshotFromPayload (item : Json) : Except ReceiptError EvidenceSnapshotReference := do
  let evidenceId ← requiredText item "evidence_id" "stored evidence snapshot"
  let sourceKind ← requiredText item "source_kind" "stored evidence snapshot"
  let revision ← requiredText item "revision" "stored evidence snapshot"
  let locatorDigest ← requiredText item "locator_digest" "stored evidence snapshot"
  EvidenceSnapshotReference.make evidenceId sourceKind revision locatorDigest

def evidenceFromPayload (fields : List (String × Json)) :
    Except ReceiptError (List EvidenceSnapshotReference) :=
  match Json.get fields "evidence" with
  | .arr items => do
    let evidence ← items.mapM snapshotFromPayload
    return sortedBy (·.evidenceId) evidence
  | _ => .error (.receipt "stored evidence read receipt evidence is invalid")

/-- `_receipt_from_payload`. -/
def receiptFromPayload (fields : List (String × Json)) : Except ReceiptError EvidenceReadReceipt := do
  let label := "stored evidence read receipt"
  let evidence ← evidenceFromPayload fields
  let receiptId ← requiredText (.obj fields) "receipt_id" label
  let tenantId ← requiredText (.obj fields) "tenant_id" label
  let product ← requiredText (.obj fields) "product" label
  let scopeId ← requiredText (.obj fields) "scope_id" label
  let correlationId ← requiredText (.obj fields) "correlation_id" label
  let principalFingerprint ← requiredText (.obj fields) "principal_fingerprint" label
  let contextVersion ← requiredText (.obj fields) "context_version" label
  let contextPacketDigest ← requiredText (.obj fields) "context_packet_digest" label
  let contextQualified ← requiredBool fields "context_qualified" label
  let packetComplete ← requiredBool fields "packet_complete" label
  let issuedAt ← requiredTimestamp fields "issued_at" label
  let expiresAt ← requiredTimestamp fields "expires_at" label
  let signature ← requiredText (.obj fields) "signature" label
  EvidenceReadReceipt.make
    { receiptId, tenantId, product, scopeId, correlationId, principalFingerprint, contextVersion,
      contextPacketDigest, contextQualified, packetComplete, evidence, issuedAt, expiresAt } signature

section

variable (floatRepr : String → String)

/-- `_payload_from_json`. -/
def payloadFromJson (serialized : String) : Except ReceiptError (List (String × Json)) :=
  match Json.loads floatRepr serialized with
  | .ok (.obj fields) => .ok fields
  | .ok _ => .error (.receipt "stored evidence read receipt payload is invalid")
  | .error .decode => .error (.receipt "stored evidence read receipt payload is not JSON")
  | .error x => .error (.loads x)

/-- `resolve_evidence_read_receipt_id`. -/
def resolveReceiptId (value : String) : Except ReceiptError String :=
  if matchesIdentifier value then .ok value
  else .error (.receipt "evidence read receipt_id is invalid")

/-- `get`. -/
def getReceipt (store : ReceiptStore) (receiptId : String) :
    Except ReceiptError (Option EvidenceReadReceipt) := do
  let identifier ← resolveReceiptId receiptId
  match store.get identifier with
  | none => return none
  | some row =>
    let fields ← payloadFromJson floatRepr row.payload
    let receipt ← receiptFromPayload fields
    return some receipt

end

/-! ### The authority -/

/-- `EvidenceReadReceiptAuthority`, its store apart. A time to live counts microseconds. -/
structure ReceiptAuthority where
  secret : String
  maximumTtl : Int
  length : 32 ≤ secret.toList.length
  bounds : 0 < maximumTtl ∧ maximumTtl ≤ 900000000

structure IssueRequest where
  tenantId : String
  product : String
  scopeId : String
  correlationId : String
  principal : BrainPrincipal
  context : DecisionContext
  packet : ContextPacket
  now : Option SourceTime
  ttl : Int

structure ProposalRequest where
  receiptId : String
  tenantId : String
  product : String
  scopeId : String
  correlationId : String
  principal : BrainPrincipal
  contextVersion : String
  packetDigest : String
  now : Option SourceTime

/-- `_utc`. -/
def receiptTime (value : SourceTime) (label : String) : Except ReceiptError UtcTime :=
  if value.aware then .ok value.utc else .error (.receipt (label ++ " must include a timezone"))

/-- The functions that the receipts' code imports: the two hashes, the `repr` of the float that a
numeral denotes, and `context_packet_from_decision_context`, whose packets are only compared. -/
structure ReceiptLibrary where
  sha256 : String → String
  hmac : String → String → String
  floatRepr : String → String
  project : DecisionContext → ContextPacketBudget → Except ContextPacketError ContextPacket

section

variable (l : ReceiptLibrary)

/-- `principal_fingerprint`. -/
def principalFingerprint (principal : BrainPrincipal) : String :=
  "sha256:" ++ l.sha256 (Json.obj [("groups", .arr (principal.groups.map .str)),
    ("users", .arr (principal.users.map .str))]).dumpsUnicode

/-- `_signature` of a receipt's body. -/
def ReceiptBody.sign (secret : String) (body : ReceiptBody) : String :=
  "sha256:" ++ l.hmac secret body.unsignedPayload.dumpsUnicode

/-- `from_reference`. -/
def EvidenceSnapshotReference.fromReference (reference : EvidenceReference) :
    Except ReceiptError EvidenceSnapshotReference :=
  EvidenceSnapshotReference.make reference.evidenceId reference.sourceKind reference.revision
    ("sha256:" ++ l.sha256 reference.locator)

/-- The checks of `issue` before it reads the clock. -/
def checkIssue (request : IssueRequest) : Except ReceiptError Unit := do
  raiseFirst ((invalid (matchesIdentifier request.tenantId) "evidence read tenant_id").or
    ((invalid (isProduct request.product) "evidence read product").or
      ((invalid (matchesIdentifier request.scopeId) "evidence read scope_id").or
        (invalid (matchesIdentifier request.correlationId) "evidence read correlation_id"))))
  if request.packet.contextVersion ≠ request.context.contextVersion then
    .error (.receipt "evidence receipt packet context_version does not match the context")
  else if request.packet.qualified ≠ request.context.qualified then
    .error (.receipt "evidence receipt packet qualification does not match the context")
  else
    match l.project request.context request.packet.budget with
    | .error _ => .error (.receipt "evidence receipt packet budget is invalid")
    | .ok expected =>
      if request.packet ≠ expected then
        .error (.receipt ("evidence receipt packet must be the deterministic bounded projection of the " ++
          "source context"))
      else .ok ()

/-- The body that `issue` signs, but for its identifier. -/
def IssueRequest.draft (request : IssueRequest) (evidence : List EvidenceSnapshotReference)
    (issuedAt expiresAt : UtcTime) : ReceiptBody :=
  { receiptId := ""
    tenantId := request.tenantId
    product := request.product
    scopeId := request.scopeId
    correlationId := request.correlationId
    principalFingerprint := principalFingerprint l request.principal
    contextVersion := request.context.contextVersion
    contextPacketDigest := request.packet.digest
    contextQualified := request.context.qualified
    packetComplete := request.packet.complete
    evidence
    issuedAt
    expiresAt }

/-- The body under the identifier that its own digest gives. -/
def ReceiptBody.identified (draft : ReceiptBody) : ReceiptBody :=
  { draft with receiptId := "evidence-read:" ++ l.sha256 (Json.obj draft.baseEntries).dumpsUnicode }

namespace ReceiptAuthority

variable (authority : ReceiptAuthority)

/-- `issue` up to the write: the receipt that it records. -/
def prepare (request : IssueRequest) (clock : UtcTime) : Except ReceiptError EvidenceReadReceipt := do
  checkIssue l request
  let issuedAt ← receiptTime (orNow request.now clock) "evidence read issued_at"
  if request.ttl ≤ 0 ∨ authority.maximumTtl < request.ttl then
    .error (.receipt "evidence receipt ttl is invalid")
  else
    match issuedAt.add request.ttl.toNat with
    | none => .error .overflow
    | some expiresAt => do
      let evidence ← request.packet.evidence.mapM (EvidenceSnapshotReference.fromReference l)
      let body := (request.draft l (sortedBy (·.evidenceId) evidence) issuedAt expiresAt).identified l
      EvidenceReadReceipt.make body (body.sign l authority.secret)

/-- `issue`. -/
def issue (store : ReceiptStore) (request : IssueRequest) (clock : UtcTime) :
    ReceiptStore × Except ReceiptError EvidenceReadReceipt :=
  match authority.prepare l request clock with
  | .error x => (store, .error x)
  | .ok receipt =>
    match recordReceipt store receipt with
    | (store, .error x) => (store, .error x)
    | (store, .ok _) => (store, .ok receipt)

/-- What a proposal says of its receipt, under the names of the receipt's fields. -/
def bindings (request : ProposalRequest) (body : ReceiptBody) : List (String × String × String) :=
  [("tenant_id", body.tenantId, request.tenantId), ("product", body.product, request.product),
    ("scope_id", body.scopeId, request.scopeId), ("correlation_id", body.correlationId, request.correlationId),
    ("principal_fingerprint", body.principalFingerprint, principalFingerprint l request.principal),
    ("context_version", body.contextVersion, request.contextVersion),
    ("context_packet_digest", body.contextPacketDigest, request.packetDigest)]

/-- The checks of `require_for_proposal` on the receipt it has loaded. -/
def checkReceipt (request : ProposalRequest) (clock : UtcTime) (receipt : EvidenceReadReceipt) :
    Except ReceiptError EvidenceReadReceipt :=
  match (bindings l request receipt.toReceiptBody).find? fun binding => binding.2.1 ≠ binding.2.2 with
  | some binding => .error (.receipt ("evidence read receipt is bound to a different " ++ binding.1))
  | none =>
    if receipt.signature ≠ receipt.sign l authority.secret then
      .error (.receipt "evidence read receipt signature is invalid")
    else do
      let current ← receiptTime (orNow request.now clock) "evidence read verification time"
      if current.instant < receipt.issuedAt.instant ∨ receipt.expiresAt.instant ≤ current.instant then
        .error (.receipt "evidence read receipt is stale or not yet valid")
      else if receipt.contextQualified = false then
        .error (.receipt "an unqualified evidence context cannot support a proposal")
      else if receipt.packetComplete = false then
        .error (.receipt "a context packet with omissions cannot support a proposal")
      else if receipt.evidence = [] then
        .error (.receipt "a proposal requires at least one evidence snapshot")
      else .ok receipt

/-- `require_for_proposal`. -/
def requireForProposal (store : ReceiptStore) (request : ProposalRequest)
    (clock : UtcTime) : Except ReceiptError EvidenceReadReceipt := do
  let stored ← getReceipt l.floatRepr store request.receiptId
  match stored with
  | none => .error (.receipt "evidence read receipt was not found in durable storage")
  | some receipt => authority.checkReceipt l request clock receipt

end ReceiptAuthority

end

/-! ### Calls -/

inductive ReceiptRequest where
  | issue (authority : ReceiptAuthority) (request : IssueRequest)
  | record (receipt : EvidenceReadReceipt)
  | get (receiptId : String)
  | requireForProposal (authority : ReceiptAuthority) (request : ProposalRequest)

/-- A call of some process, with what its clock reads then. -/
structure ReceiptCall where
  clock : UtcTime
  request : ReceiptRequest

inductive ReceiptAnswer where
  | receipt (receipt : EvidenceReadReceipt)
  | recorded (new : Bool)
  | found (receipt : Option EvidenceReadReceipt)

def ReceiptStore.step (l : ReceiptLibrary) (store : ReceiptStore) (call : ReceiptCall) :
    ReceiptStore × Except ReceiptError ReceiptAnswer :=
  match call.request with
  | .issue authority request =>
    ((authority.issue l store request call.clock).1,
      (authority.issue l store request call.clock).2.map .receipt)
  | .record receipt => ((recordReceipt store receipt).1, (recordReceipt store receipt).2.map .recorded)
  | .get receiptId => (store, (getReceipt l.floatRepr store receiptId).map .found)
  | .requireForProposal authority request =>
    (store, (authority.requireForProposal l store request call.clock).map .receipt)

end EngineeringIntelligence.CompanyBrain
