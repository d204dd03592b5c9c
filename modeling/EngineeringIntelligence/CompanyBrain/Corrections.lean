import EngineeringIntelligence.CompanyBrain.EvidenceGate

namespace EngineeringIntelligence.CompanyBrain

open EngineeringIntelligence.Framework EngineeringIntelligence.Ingestion

/-! Corrections of claims: a proposal that an evidence receipt supports, and its reviews. -/

/-- What the corrections' code raises. -/
inductive CorrectionException where
  /-- `CorrectionError` -/
  | correction (message : String)
  /-- `DecisionBriefError` -/
  | brief (message : String)
  /-- `ValueError` of an enumeration -/
  | value (message : String)
  /-- what the receipts raise beside `EvidenceReadReceiptError` -/
  | receipts (x : ReceiptError)
  deriving DecidableEq, Repr

inductive DecisionScopeKind where
  | pullRequest | incident | deployment | release | architectureDecision | runbook
  deriving DecidableEq, Repr

def DecisionScopeKind.value : DecisionScopeKind → String
  | pullRequest => "pull_request"
  | incident => "incident"
  | deployment => "deployment"
  | release => "release"
  | architectureDecision => "architecture_decision"
  | runbook => "runbook"

def scopeProblem (tenantId product scopeId label correlationId : String) : Option String :=
  (invalid (matchesIdentifier tenantId) "decision scope tenant_id").or
    ((invalid (isProduct product) "decision scope product").or
      ((invalid (matchesIdentifier scopeId) "decision scope scope_id").or
        ((invalid (required 300 label) "decision scope label").or
          (invalid (matchesIdentifier correlationId) "decision scope correlation_id"))))

/-- A typed subject of a decision within one tenant. -/
structure DecisionScope where
  tenantId : String
  product : String
  kind : DecisionScopeKind
  scopeId : String
  label : String
  correlationId : String
  valid : scopeProblem tenantId product scopeId label correlationId = none

def DecisionScope.make (tenantId product : String) (kind : DecisionScopeKind)
    (scopeId label correlationId : String) : Except CorrectionException DecisionScope :=
  match h : scopeProblem tenantId product scopeId label correlationId with
  | some message => .error (.brief message)
  | none => .ok ⟨tenantId, product, kind, scopeId, label, correlationId, h⟩

/-- `_scope_payload`. -/
def DecisionScope.payload (scope : DecisionScope) : Json :=
  .obj [("tenant_id", .str scope.tenantId), ("product", .str scope.product), ("kind", .str scope.kind.value),
    ("scope_id", .str scope.scopeId), ("label", .str scope.label), ("correlation_id", .str scope.correlationId)]

inductive CorrectionKind where
  | replaceClaim | retractClaim | requestRevalidation
  deriving DecidableEq, Repr

def CorrectionKind.value : CorrectionKind → String
  | replaceClaim => "replace_claim"
  | retractClaim => "retract_claim"
  | requestRevalidation => "request_revalidation"

inductive CorrectionReviewDisposition where
  | acceptForRevalidation | reject
  deriving DecidableEq, Repr

def CorrectionReviewDisposition.value : CorrectionReviewDisposition → String
  | acceptForRevalidation => "accept_for_revalidation"
  | reject => "reject"

/-! ### Proposals -/

/-- What a correction asks, under one correction and one receipt. -/
structure ProposalFields where
  correctionId : String
  requestId : String
  scope : DecisionScope
  evidenceReadReceiptId : String
  contextVersion : String
  contextPacketDigest : String
  targetKey : String
  kind : CorrectionKind
  originalClaim : String
  replacementClaim : Option String
  rationale : String
  requestedBy : String

/-- The replacement that a correction of some kind may have. -/
def replacementProblem : CorrectionKind → Option String → Option String
  | .replaceClaim, replacement =>
    invalid (required 1000 (replacement.getD "")) "correction replacement_claim"
  | _, some _ => some "only a replacement correction may contain replacement_claim"
  | _, none => none

def ProposalFields.problem (p : ProposalFields) : Option String :=
  (invalid (matchesIdentifier p.correctionId) "correction_id").or
    ((invalid (matchesIdentifier p.requestId) "correction request_id").or
      ((invalid (matchesIdentifier p.evidenceReadReceiptId) "correction evidence_read_receipt_id").or
        ((invalid (required 240 p.contextVersion) "correction context_version").or
          ((invalid (isDigest p.contextPacketDigest) "correction context_packet_digest").or
            ((invalid (matchesIdentifier p.targetKey) "correction target_key").or
              ((invalid (required 1000 p.originalClaim) "correction original_claim").or
                ((replacementProblem p.kind p.replacementClaim).or
                  ((invalid (required 1000 p.rationale) "correction rationale").or
                    (invalid (matchesIdentifier p.requestedBy) "correction requested_by")))))))))

/-- The payload of a proposal that is requested at some time. -/
def ProposalFields.payloadAt (p : ProposalFields) (requestedAt : UtcTime) : Json :=
  .obj [("correction_id", .str p.correctionId), ("request_id", .str p.requestId), ("scope", p.scope.payload),
    ("evidence_read_receipt_id", .str p.evidenceReadReceiptId), ("context_version", .str p.contextVersion),
    ("context_packet_digest", .str p.contextPacketDigest), ("target_key", .str p.targetKey),
    ("kind", .str p.kind.value), ("original_claim", .str p.originalClaim),
    ("replacement_claim", .optStr p.replacementClaim), ("rationale", .str p.rationale),
    ("requested_by", .str p.requestedBy), ("requested_at", .str requestedAt.isoformat)]

/-- One immutable request to correct or revalidate a claim. -/
structure CorrectionProposal extends ProposalFields where
  requestedAt : UtcTime
  valid : toProposalFields.problem = none

def CorrectionProposal.make (fields : ProposalFields) (requestedAt : UtcTime) :
    Except CorrectionException CorrectionProposal :=
  match h : fields.problem with
  | some message => .error (.correction message)
  | none => .ok ⟨fields, requestedAt, h⟩

def CorrectionProposal.payload (p : CorrectionProposal) : Json := p.payloadAt p.requestedAt

def reviewProblem (correctionId reviewer rationale : String) : Option String :=
  (invalid (matchesIdentifier correctionId) "correction review correction_id").or
    ((invalid (matchesIdentifier reviewer) "correction review reviewer").or
      (invalid (required 1000 rationale) "correction review rationale"))

/-- One human review of a correction. -/
structure CorrectionReview where
  correctionId : String
  reviewer : String
  disposition : CorrectionReviewDisposition
  rationale : String
  reviewedAt : UtcTime
  valid : reviewProblem correctionId reviewer rationale = none

def CorrectionReview.make (correctionId reviewer : String) (disposition : CorrectionReviewDisposition)
    (rationale : String) (reviewedAt : UtcTime) : Except CorrectionException CorrectionReview :=
  match h : reviewProblem correctionId reviewer rationale with
  | some message => .error (.correction message)
  | none => .ok ⟨correctionId, reviewer, disposition, rationale, reviewedAt, h⟩

def CorrectionReview.payload (r : CorrectionReview) : Json :=
  .obj [("correction_id", .str r.correctionId), ("reviewer", .str r.reviewer),
    ("disposition", .str r.disposition.value), ("rationale", .str r.rationale),
    ("reviewed_at", .str r.reviewedAt.isoformat)]

/-! ### Rows -/

structure StoredProposal where
  correctionId : String
  tenantId : String
  product : String
  scopeId : String
  payload : String

def StoredProposal.key (row : StoredProposal) : String := row.correctionId

structure StoredReview where
  reviewKey : String
  correctionId : String
  payload : String

def StoredReview.key (row : StoredReview) : String := row.reviewKey

/-- The two tables of `SqliteCorrectionStore`. -/
structure CorrectionStore where
  proposals : Table StoredProposal.key
  reviews : Table StoredReview.key

def CorrectionStore.empty : CorrectionStore := ⟨Table.empty, Table.empty⟩

def CorrectionProposal.row (p : CorrectionProposal) : StoredProposal :=
  ⟨p.correctionId, p.scope.tenantId, p.scope.product, p.scope.scopeId, p.payload.dumpsUnicode⟩

/-- `record_proposal`. -/
def CorrectionStore.recordProposal (store : CorrectionStore) (proposal : CorrectionProposal) :
    CorrectionStore × Except CorrectionException Bool :=
  match store.proposals.get proposal.correctionId with
  | some row =>
    if row.payload ≠ proposal.payload.dumpsUnicode then
      (store, .error (.correction "correction_id conflicts with retained history"))
    else (store, .ok false)
  | none => ({ store with proposals := store.proposals.put proposal.row }, .ok true)

/-! ### Reading a row -/

/-- The readers of the receipts raise the same messages as those of the corrections. -/
def asCorrection : ReceiptError → CorrectionException
  | .receipt message => .correction message
  | x => .receipts x

/-- A member of an enumeration by its value. -/
def member {κ : Type} (members : List κ) (value : κ → String) (name text : String) :
    Except CorrectionException κ :=
  match members.find? fun k => value k = text with
  | some k => .ok k
  | none => .error (.value ("'" ++ text ++ "' is not a valid " ++ name))

def correctionText (fields : List (String × Json)) (field label : String) : Except CorrectionException String :=
  (requiredText (.obj fields) field label).mapError asCorrection

/-- `_scope_from_payload`. -/
def scopeFromPayload (fields : List (String × Json)) : Except CorrectionException DecisionScope := do
  let label := "stored correction scope"
  let tenantId ← correctionText fields "tenant_id" label
  let product ← correctionText fields "product" label
  let kindText ← correctionText fields "kind" label
  let kind ← member [.pullRequest, .incident, .deployment, .release, .architectureDecision, .runbook]
    DecisionScopeKind.value "DecisionScopeKind" kindText
  let scopeId ← correctionText fields "scope_id" label
  let name ← correctionText fields "label" label
  let correlationId ← correctionText fields "correlation_id" label
  DecisionScope.make tenantId product kind scopeId name correlationId

/-- `_proposal_from_payload`. -/
def proposalFromPayload (fields : List (String × Json)) : Except CorrectionException CorrectionProposal := do
  let label := "stored correction proposal"
  let scopeFields ← match Json.get fields "scope" with
    | .obj scopeFields => .ok scopeFields
    | _ => .error (.correction "stored correction proposal scope is invalid")
  let replacementClaim ← match Json.get fields "replacement_claim" with
    | .null => .ok none
    | .str text => .ok (some text)
    | _ => .error (.correction "stored correction proposal replacement_claim is invalid")
  let correctionId ← correctionText fields "correction_id" label
  let requestId ← correctionText fields "request_id" label
  let scope ← scopeFromPayload scopeFields
  let evidenceReadReceiptId ← correctionText fields "evidence_read_receipt_id" label
  let contextVersion ← correctionText fields "context_version" label
  let contextPacketDigest ← correctionText fields "context_packet_digest" label
  let targetKey ← correctionText fields "target_key" label
  let kindText ← correctionText fields "kind" label
  let kind ← member [.replaceClaim, .retractClaim, .requestRevalidation] CorrectionKind.value "CorrectionKind"
    kindText
  let originalClaim ← correctionText fields "original_claim" label
  let rationale ← correctionText fields "rationale" label
  let requestedBy ← correctionText fields "requested_by" label
  let requestedAt ← (requiredTimestamp fields "requested_at" label).mapError asCorrection
  CorrectionProposal.make
    { correctionId, requestId, scope, evidenceReadReceiptId, contextVersion, contextPacketDigest, targetKey,
      kind, originalClaim, replacementClaim, rationale, requestedBy } requestedAt

/-- `proposal`. -/
def CorrectionStore.proposal (floatRepr : String → String) (store : CorrectionStore) (correctionId : String) :
    Except CorrectionException (Option CorrectionProposal) :=
  if matchesIdentifier correctionId = false then .error (.correction "correction_id is invalid")
  else
    match store.proposals.get correctionId with
    | none => .ok none
    | some row =>
      match Json.loads floatRepr row.payload with
      | .ok (.obj fields) => (proposalFromPayload fields).map some
      | .ok _ => .error (.correction "stored correction payload is invalid")
      | .error .decode => .error (.correction "stored correction payload is not JSON")
      | .error x => .error (.receipts (.loads x))

/-! ### The service -/

/-- A correction request, the time it is made at apart. -/
structure CorrectionRequest where
  requestId : String
  scope : DecisionScope
  receiptId : String
  principal : BrainPrincipal
  contextVersion : String
  contextPacketDigest : String
  targetKey : String
  kind : CorrectionKind
  originalClaim : String
  replacementClaim : Option String
  rationale : String
  requestedBy : String

structure ReviewRequest where
  correctionId : String
  reviewer : String
  reviewerPrincipal : BrainPrincipal
  disposition : CorrectionReviewDisposition
  rationale : String

/-- The receipts and the corrections, each with its store. -/
structure CorrectionSystem where
  receipts : ReceiptStore
  corrections : CorrectionStore

/-- What `_correction_id` hashes: the request and its receipt. The time is no part of it. -/
def CorrectionRequest.idPayload (q : CorrectionRequest) (receiptId : String) : Json :=
  .obj [("request_id", .str q.requestId), ("scope", q.scope.payload), ("receipt_id", .str receiptId),
    ("target_key", .str q.targetKey), ("kind", .str q.kind.value), ("original_claim", .str q.originalClaim),
    ("replacement_claim", .optStr q.replacementClaim), ("rationale", .str q.rationale),
    ("requested_by", .str q.requestedBy)]

/-- `_correction_id`. -/
def CorrectionRequest.correctionId (l : ReceiptLibrary) (q : CorrectionRequest) (receiptId : String) : String :=
  "correction:" ++ l.sha256 (q.idPayload receiptId).dumpsUnicode

/-- The proposal of a request under the receipt that supports it. -/
def CorrectionRequest.fields (l : ReceiptLibrary) (q : CorrectionRequest) (receiptId : String) : ProposalFields :=
  { correctionId := q.correctionId l receiptId
    requestId := q.requestId
    scope := q.scope
    evidenceReadReceiptId := receiptId
    contextVersion := q.contextVersion
    contextPacketDigest := q.contextPacketDigest
    targetKey := q.targetKey
    kind := q.kind
    originalClaim := q.originalClaim
    replacementClaim := q.replacementClaim
    rationale := q.rationale
    requestedBy := q.requestedBy }

/-- What the request asks of its receipt. -/
def CorrectionRequest.proposal (q : CorrectionRequest) (now : Option SourceTime) : ProposalRequest :=
  { receiptId := q.receiptId
    tenantId := q.scope.tenantId
    product := q.scope.product
    scopeId := q.scope.scopeId
    correlationId := q.scope.correlationId
    principal := q.principal
    contextVersion := q.contextVersion
    packetDigest := q.contextPacketDigest
    now }

/-- An `EvidenceReadReceiptError` is reported as a `CorrectionError`. -/
def receiptRejected : ReceiptError → CorrectionException
  | .receipt message => .correction ("correction evidence receipt rejected: " ++ message)
  | x => .receipts x

/-- `_utc`. -/
def correctionTime (value : SourceTime) (label : String) : Except CorrectionException UtcTime :=
  if value.aware then .ok value.utc else .error (.correction (label ++ " must include a timezone"))

section

variable (l : ReceiptLibrary) (authority : ReceiptAuthority)

/-- `submit` up to the write. -/
def prepareSubmission (receipts : ReceiptStore) (q : CorrectionRequest) (now : Option SourceTime)
    (clock : UtcTime) : Except CorrectionException CorrectionProposal :=
  if q.requestedBy ∉ q.principal.users then
    .error (.correction "correction requested_by must be an authenticated principal user")
  else
    match authority.requireForProposal l receipts (q.proposal now) clock with
    | .error x => .error (receiptRejected x)
    | .ok receipt => do
      let requestedAt ← correctionTime (orNow now clock) "correction requested_at"
      CorrectionProposal.make (q.fields l receipt.receiptId) requestedAt

namespace CorrectionSystem

variable (s : CorrectionSystem)

/-- `submit`. -/
def submit (q : CorrectionRequest) (now : Option SourceTime) (clock : UtcTime) :
    CorrectionSystem × Except CorrectionException CorrectionProposal :=
  match prepareSubmission l authority s.receipts q now clock with
  | .error x => (s, .error x)
  | .ok proposal =>
    match s.corrections.recordProposal proposal with
    | (store, .error x) => ({ s with corrections := store }, .error x)
    | (store, .ok _) => ({ s with corrections := store }, .ok proposal)

/-- `record_review`. -/
def recordReview (review : CorrectionReview) : CorrectionSystem × Except CorrectionException Bool :=
  match s.corrections.proposal l.floatRepr review.correctionId with
  | .error x => (s, .error x)
  | .ok none => (s, .error (.correction "a correction review requires a retained proposal"))
  | .ok (some _) =>
    let row : StoredReview := ⟨"sha256:" ++ l.sha256 review.payload.dumpsUnicode, review.correctionId,
      review.payload.dumpsUnicode⟩
    let reviews := s.corrections.reviews.insertOrIgnore row
    (⟨s.receipts, ⟨s.corrections.proposals, reviews⟩⟩, .ok (s.corrections.reviews.get row.reviewKey).isNone)

/-- `review`. -/
def review (q : ReviewRequest) (reviewedAt : Option SourceTime) (clock : UtcTime) :
    CorrectionSystem × Except CorrectionException CorrectionReview :=
  if q.reviewer ∉ q.reviewerPrincipal.users then
    (s, .error (.correction "correction reviewer must be an authenticated principal user"))
  else
    match s.corrections.proposal l.floatRepr q.correctionId with
    | .error x => (s, .error x)
    | .ok none => (s, .error (.correction "a correction review requires a retained proposal"))
    | .ok (some _) =>
      match correctionTime (orNow reviewedAt clock) "correction review reviewed_at" with
      | .error x => (s, .error x)
      | .ok time =>
        match CorrectionReview.make q.correctionId q.reviewer q.disposition q.rationale time with
        | .error x => (s, .error x)
        | .ok review =>
          match s.recordReview l review with
          | (after, .error x) => (after, .error x)
          | (after, .ok _) => (after, .ok review)

end CorrectionSystem

end

/-! ### Calls -/

inductive CorrectionCall where
  | receipts (call : ReceiptCall)
  | submit (q : CorrectionRequest) (now : Option SourceTime) (clock : UtcTime)
  | review (q : ReviewRequest) (reviewedAt : Option SourceTime) (clock : UtcTime)

def CorrectionSystem.step (l : ReceiptLibrary) (authority : ReceiptAuthority) (s : CorrectionSystem)
    (call : CorrectionCall) : CorrectionSystem × Unit :=
  match call with
  | .receipts call => ({ s with receipts := (ReceiptStore.step l s.receipts call).1 }, ())
  | .submit q now clock => ((s.submit l authority q now clock).1, ())
  | .review q reviewedAt clock => ((s.review l q reviewedAt clock).1, ())

end EngineeringIntelligence.CompanyBrain
