import EngineeringIntelligence.Feedback.Promotion

namespace EngineeringIntelligence.Feedback

open EngineeringIntelligence.Framework EngineeringIntelligence.CompanyBrain
open EngineeringIntelligence.PrGuardian (exactKeys equalsSchemaVersion equalsText)

/-! What a promotion packet is sent as, and the parser that takes it back. -/

variable (casefold : String → String)

def EvidenceFields.toPayload (f : EvidenceFields) : Json :=
  .obj ([("evidence_id", .str f.evidenceId), ("purpose", .str f.purpose.value),
    ("basis", .str (basisValue f.basis)), ("source_system", .str f.sourceSystem),
    ("locator", .str f.locator), ("content_digest", .str f.contentDigest),
    ("retention_days", .int f.retentionDays), ("access_control_ref", .str f.accessControlRef),
    ("immutability_control_ref", .str f.immutabilityControlRef), ("produced_by", .str f.producedBy)] ++
    (f.independentlyVerifiedBy.map fun verifier => ("independently_verified_by", Json.str verifier)).toList)

def FeedbackFields.toPayload (f : FeedbackFields) : Json :=
  .obj [("report_evidence_id", .str f.reportEvidenceId),
    ("outcome_export_evidence_id", .str f.outcomeExportEvidenceId),
    ("report_digest", .str f.reportDigest), ("outcome_export_digest", .str f.outcomeExportDigest),
    ("joined_observations", .int f.joinedObservations),
    ("reviewer_classifications", .int f.reviewerClassifications),
    ("confirmed_risks", .int f.confirmedRisks),
    ("simulated_block_precision", f.simulatedBlockPrecision.asJson),
    ("simulated_block_recall", f.simulatedBlockRecall.asJson),
    ("report_decision", .str f.reportDecision), ("blocking_authorized", .bool f.blockingAuthorized)]

def PacketFields.toPayload (f : PacketFields casefold) : Json :=
  .obj [("schema_version", .int f.schemaVersion), ("kind", .str "pr-guardian-advisory-review-packet"),
    ("pilot_id", .str f.pilotId), ("repository", .str f.repository),
    ("policy_version", .str f.policyVersion), ("pilot_manifest_digest", .str f.pilotManifestDigest),
    ("runtime_configuration_digest", .str f.runtimeConfigurationDigest),
    ("prepared_on", .str f.preparedOn), ("review_expires_on", .str f.reviewExpiresOn),
    ("runtime_mode", .str f.runtimeMode), ("review_state", .str f.reviewState),
    ("feedback", f.feedback.toPayload),
    ("retained_evidence", .arr (f.retainedEvidence.map (·.toPayload))),
    ("required_review_roles", .arr (f.requiredReviewRoles.map fun role => .str role.value))]

def packetFields : List String := ["schema_version", "kind", "pilot_id", "repository", "policy_version",
  "pilot_manifest_digest", "runtime_configuration_digest", "prepared_on", "review_expires_on",
  "runtime_mode", "review_state", "feedback", "retained_evidence", "required_review_roles"]

def feedbackFields : List String := ["report_evidence_id", "outcome_export_evidence_id", "report_digest",
  "outcome_export_digest", "joined_observations", "reviewer_classifications", "confirmed_risks",
  "simulated_block_precision", "simulated_block_recall", "report_decision", "blocking_authorized"]

def evidenceOptionalFields : List String := ["independently_verified_by"]

/-- `_EVIDENCE_FIELDS - _EVIDENCE_OPTIONAL_FIELDS`. -/
def evidenceRequiredFields : List String := ["evidence_id", "purpose", "basis", "source_system", "locator",
  "content_digest", "retention_days", "access_control_ref", "immutability_control_ref", "produced_by"]

def evidenceFields : List String := evidenceRequiredFields ++ evidenceOptionalFields

/-- A field that has to be the one text, which it then is. -/
def constantText (expected : String) (value : Json) (message : String) : Except String String :=
  if equalsText expected value then .ok expected else .error message

/-- `_shadow_mode`. -/
def shadowMode (value : Json) : Except String String :=
  constantText "shadow" value "runtime_mode must be shadow"

/-- `_review_required`. -/
def reviewRequired (value : Json) : Except String String :=
  constantText "human-review-required" value "review_state must be human-review-required"

/-- `_advisory_candidate`. -/
def advisoryCandidate (value : Json) : Except String String :=
  constantText "advisory-candidate" value "feedback.report_decision must be advisory-candidate"

/-- `_false`. -/
def isFalse (value : Json) (label : String) : Except String Bool :=
  match value with
  | .bool false => .ok false
  | _ => .error (label ++ " must be false")

/-- An enumeration called on a value, its `ValueError` with another message. -/
def enumOf {α : Type} (member : Option α) (message : String) : Except String α :=
  match member with
  | some a => .ok a
  | none => .error message

/-- `_feedback_summary`. -/
def feedbackSummary (value : Json) : Except String (FeedbackLoopSummary casefold) := do
  let raw ← mapping value "feedback"
  exactKeys raw feedbackFields "feedback"
  let reportEvidenceId ← text (Json.get raw "report_evidence_id") "feedback.report_evidence_id" 240
  let outcomeExportEvidenceId ← text (Json.get raw "outcome_export_evidence_id")
    "feedback.outcome_export_evidence_id" 240
  let reportDigest ← digest (Json.get raw "report_digest") "feedback.report_digest"
  let outcomeExportDigest ← digest (Json.get raw "outcome_export_digest") "feedback.outcome_export_digest"
  let joinedObservations ← nonNegativeInt (Json.get raw "joined_observations") "feedback.joined_observations"
  let reviewerClassifications ← nonNegativeInt (Json.get raw "reviewer_classifications")
    "feedback.reviewer_classifications"
  let confirmedRisks ← nonNegativeInt (Json.get raw "confirmed_risks") "feedback.confirmed_risks"
  let simulatedBlockPrecision ← reportRatio (Json.get raw "simulated_block_precision")
    "feedback.simulated_block_precision"
  let simulatedBlockRecall ← reportRatio (Json.get raw "simulated_block_recall")
    "feedback.simulated_block_recall"
  let reportDecision ← advisoryCandidate (Json.get raw "report_decision")
  let blockingAuthorized ← isFalse (Json.get raw "blocking_authorized") "feedback.blocking_authorized"
  FeedbackLoopSummary.make casefold
    { reportEvidenceId, outcomeExportEvidenceId, reportDigest, outcomeExportDigest, joinedObservations,
      reviewerClassifications, confirmedRisks, simulatedBlockPrecision, simulatedBlockRecall,
      reportDecision, blockingAuthorized }

/-- The verifier, where one is named. -/
def verifiedBy (value : Json) : Except String (Option String) :=
  match value with
  | .null => .ok none
  | value => do
    let verifier ← text value "retained evidence independently_verified_by" 200
    .ok (some verifier)

/-- `_retained_evidence_reference`. -/
def retainedEvidenceReference (value : Json) : Except String (RetainedEvidenceReference casefold) := do
  let raw ← mapping value "retained evidence"
  ensure ((∀ f ∈ raw, f.1 ∈ evidenceFields) ∧ ∀ k ∈ evidenceRequiredFields, k ∈ raw.map Prod.fst)
    "retained evidence has unexpected or missing fields"
  let purposeText ← text (Json.get raw "purpose") "retained evidence purpose" 80
  let basisText ← text (Json.get raw "basis") "retained evidence basis" 40
  let purpose ← enumOf (RetainedEvidencePurpose.ofValue purposeText) "retained evidence purpose is invalid"
  let basis ← enumOf (basisOfValue basisText) "retained evidence basis is invalid"
  let evidenceId ← text (Json.get raw "evidence_id") "retained evidence evidence_id" 240
  let sourceSystem ← text (Json.get raw "source_system") "retained evidence source_system" 160
  let locator ← text (Json.get raw "locator") "retained evidence locator" 500
  let contentDigest ← digest (Json.get raw "content_digest") "retained evidence content_digest"
  let retentionDays ← nonNegativeInt (Json.get raw "retention_days") "retained evidence retention_days"
  let accessControlRef ← text (Json.get raw "access_control_ref") "retained evidence access_control_ref" 500
  let immutabilityControlRef ← text (Json.get raw "immutability_control_ref")
    "retained evidence immutability_control_ref" 500
  let producedBy ← text (Json.get raw "produced_by") "retained evidence produced_by" 200
  let independentlyVerifiedBy ← verifiedBy (Json.get raw "independently_verified_by")
  RetainedEvidenceReference.make casefold
    { evidenceId, purpose, basis, sourceSystem, locator, contentDigest, retentionDays, accessControlRef,
      immutabilityControlRef, producedBy, independentlyVerifiedBy }

/-- `_retained_evidence`. -/
def retainedEvidence (value : Json) : Except String (List (RetainedEvidenceReference casefold)) :=
  match value with
  | .arr (item :: items) => do
    let references ← (item :: items).mapM (retainedEvidenceReference casefold)
    retainedEvidenceByPurpose casefold references
    .ok references
  | _ => .error "retained_evidence must be a non-empty JSON array"

/-- An item of `required_review_roles`. -/
def reviewRole (item : Json) : Except String RequiredReviewRole := do
  let role ← text item "required_review_roles" 80
  enumOf (RequiredReviewRole.ofValue role) "required_review_roles is invalid"

/-- `_review_roles`. -/
def reviewRoles (value : Json) : Except String (List RequiredReviewRole) :=
  match value with
  | .arr items => items.mapM reviewRole
  | _ => .error "required_review_roles must be a JSON array"

/-- Parse an exact JSON review packet and fail closed after its expiry. -/
def parseAdvisoryPromotionReviewPacket (payload : Json) (today : Nat) :
    Except String (AdvisoryPromotionReviewPacket casefold) := do
  let raw ← mapping payload "advisory promotion review packet"
  exactKeys raw packetFields "advisory promotion review packet"
  ensure (equalsSchemaVersion (Json.get raw "schema_version")) "schema_version must be 1"
  ensure (equalsText "pr-guardian-advisory-review-packet" (Json.get raw "kind")) "kind is invalid"
  let pilotId ← text (Json.get raw "pilot_id") "pilot_id" 80
  let repository ← text (Json.get raw "repository") "repository" 200
  let policyVersion ← text (Json.get raw "policy_version") "policy_version" 120
  let pilotManifestDigest ← digest (Json.get raw "pilot_manifest_digest") "pilot_manifest_digest"
  let runtimeConfigurationDigest ← digest (Json.get raw "runtime_configuration_digest")
    "runtime_configuration_digest"
  let preparedOn ← text (Json.get raw "prepared_on") "prepared_on" 10
  let reviewExpiresOn ← text (Json.get raw "review_expires_on") "review_expires_on" 10
  let feedback ← feedbackSummary casefold (Json.get raw "feedback")
  let retainedEvidence ← retainedEvidence casefold (Json.get raw "retained_evidence")
  let requiredReviewRoles ← reviewRoles (Json.get raw "required_review_roles")
  let runtimeMode ← shadowMode (Json.get raw "runtime_mode")
  let reviewState ← reviewRequired (Json.get raw "review_state")
  let packet ← AdvisoryPromotionReviewPacket.make casefold
    { pilotId, repository, policyVersion, pilotManifestDigest, runtimeConfigurationDigest, preparedOn,
      reviewExpiresOn, feedback, retainedEvidence, requiredReviewRoles, schemaVersion := 1, runtimeMode,
      reviewState }
  ensure (packet.isCurrentOn casefold today) "review packet has expired and must be regenerated"
  .ok packet

end EngineeringIntelligence.Feedback
