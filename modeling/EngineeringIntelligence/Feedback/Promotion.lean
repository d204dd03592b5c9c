import EngineeringIntelligence.CompanyBrain.EvidenceReceipts
import EngineeringIntelligence.Framework.Fields
import EngineeringIntelligence.PrGuardian.Shadow

namespace EngineeringIntelligence.Feedback

open EngineeringIntelligence.Framework EngineeringIntelligence.CompanyBrain
open EngineeringIntelligence.PrGuardian (exactKeys equalsSchemaVersion equalsText isRepositoryName)

/-! The packet for the review of a PR Guardian promotion: its records, what it is sent as, and the
parser that takes it back. -/

inductive RetainedEvidencePurpose where
  | shadowOutcomeExport | shadowReport | citationQualityReview | performanceAndCostReport
  | independentPostMergeCorrelation
  deriving DecidableEq, Repr

namespace RetainedEvidencePurpose

def value : RetainedEvidencePurpose → String
  | shadowOutcomeExport => "shadow-outcome-export"
  | shadowReport => "shadow-report"
  | citationQualityReview => "citation-quality-review"
  | performanceAndCostReport => "performance-and-cost-report"
  | independentPostMergeCorrelation => "independent-post-merge-correlation"

def all : List RetainedEvidencePurpose :=
  [shadowOutcomeExport, shadowReport, citationQualityReview, performanceAndCostReport,
    independentPostMergeCorrelation]

/-- `RetainedEvidencePurpose(value)`. -/
def ofValue (s : String) : Option RetainedEvidencePurpose := all.find? (·.value = s)

end RetainedEvidencePurpose

inductive RequiredReviewRole where
  | developerExperience | securitySre | serviceOwner
  deriving DecidableEq, Repr

namespace RequiredReviewRole

def value : RequiredReviewRole → String
  | developerExperience => "developer-experience"
  | securitySre => "security-sre"
  | serviceOwner => "service-owner"

/-- `REQUIRED_REVIEW_ROLES`. -/
def required : List RequiredReviewRole := [developerExperience, securitySre, serviceOwner]

def ofValue (s : String) : Option RequiredReviewRole := required.find? (·.value = s)

end RequiredReviewRole

/-- The values of `EvidenceBasis`. -/
def basisValue : EvidenceBasis → String
  | .measured => "measured"
  | .derived => "derived"
  | .modeled => "modeled"

def basisOfValue (s : String) : Option EvidenceBasis :=
  [EvidenceBasis.measured, .derived, .modeled].find? (basisValue · = s)

/-- An `int` or a `float`, the latter by its `repr`. -/
inductive PyNumber where
  | int (n : Int)
  | float (repr : String)
  deriving DecidableEq, Repr

namespace PyNumber

/-- What `==` compares. -/
def value : PyNumber → PyFloat
  | int n => .finite n
  | float r => PyFloat.ofRepr r

def asJson : PyNumber → Json
  | int n => .int n
  | float r => .float r

/-- `float(value)`, by its `repr` where that has no exponent. -/
def toFloat : PyNumber → PyNumber
  | int n => float (toString n ++ ".0")
  | float r => float r

end PyNumber

/-! ### Field checks; the error is the text of what they raise -/

/-- `_PLACEHOLDER_PARTS`. -/
def placeholderParts : List String := ["example", "replace", "tbd", "todo", "undeclared"]

/-- `_PILOT_ID.fullmatch`. -/
def isPilotId (s : String) : Bool :=
  "pr-guardian-".toList.isPrefixOf s.toList &&
    match s.toList.drop 12 with
    | [] => false
    | c :: rest => (c.isLower || c.isDigit) && 2 ≤ rest.length && rest.length ≤ 79 &&
        rest.all fun d => d.isLower || d.isDigit || d = '-'

/-- `_text`. -/
def text (value : Json) (label : String) (maximum : Nat) : Except String String :=
  lineOf value label maximum

/-- `_digest`. -/
def digest (value : Json) (label : String) : Except String String := do
  let digest ← text value label 80
  if isDigest digest then .ok digest else .error (label ++ " must be a lowercase sha256 digest")

/-- `_non_negative_int`. -/
def nonNegativeInt (value : Json) (label : String) : Except String Int :=
  match value with
  | .int n => if 0 ≤ n then .ok n else .error (label ++ " must be a non-negative integer")
  | _ => .error (label ++ " must be a non-negative integer")

/-- The least int that rounds past the largest float. -/
def floatOverflow : Nat := 2 ^ 1024 - 2 ^ 970

/-- `_ratio`; `shown` is `minimum` with two decimals. Of the ints only 0 and 1 pass, which floats
hold exactly. -/
def ratio (value : Json) (label : String) (minimum : ℚ) (shown : String) : Except String PyNumber :=
  let between (number : PyNumber) : Except String PyNumber :=
    match number.value with
    | .finite q =>
      if 0 ≤ q ∧ q ≤ 1 ∧ minimum ≤ q then .ok number.toFloat
      else .error (label ++ " must be between " ++ shown ++ " and 1.00")
    | _ => .error (label ++ " must be between " ++ shown ++ " and 1.00")
  match value with
  | .int n =>
    if floatOverflow ≤ n.natAbs then .error "int too large to convert to float" else between (.int n)
  | .float r => between (.float r)
  | _ => .error (label ++ " must be a number")

/-- `_report_ratio`. -/
def reportRatio (value : Json) (label : String) : Except String PyNumber :=
  match value with
  | .null => .error (label ++ " must be present for an advisory candidate")
  | value => ratio value label 0 "0.00"

/-- `_iso_date`. -/
def isoDate (value : Json) (label : String) : Except String Nat := do
  let date ← text value label 10
  match isoDay date with
  | some day => .ok day
  | none => .error (label ++ " must be an ISO date (YYYY-MM-DD)")

/-- `_mapping`. -/
def mapping (value : Json) (label : String) : Except String (List (String × Json)) :=
  match value with
  | .obj fields => .ok fields
  | _ => .error (label ++ " must be a JSON object")

-- `str.casefold`
variable (casefold : String → String)

/-- `_non_placeholder_text`. -/
def nonPlaceholderText (value : Json) (label : String) (maximum : Nat) : Except String String := do
  let text ← text value label maximum
  if ∃ part ∈ placeholderParts, part.toList <:+: (casefold text).toList then
    .error (label ++ " must not contain a placeholder")
  else .ok text

/-- `_identifier`. -/
def identifier (value : Json) (label : String) : Except String String := do
  let text ← nonPlaceholderText casefold value label 240
  if matchesIdentifier text then .ok text else .error (label ++ " is invalid")

/-- `_named_identity`. -/
def namedIdentity (value : Json) (label : String) : Except String String := identifier casefold value label

/-! ### The records -/

/-- The arguments of `RetainedEvidenceReference(...)`. -/
structure EvidenceFields where
  evidenceId : String
  purpose : RetainedEvidencePurpose
  basis : EvidenceBasis
  sourceSystem : String
  locator : String
  contentDigest : String
  retentionDays : Int
  accessControlRef : String
  immutabilityControlRef : String
  producedBy : String
  independentlyVerifiedBy : Option String
  deriving DecidableEq

/-- What each purpose asks of the basis and of the verifier. -/
def EvidenceFields.checkPurpose (f : EvidenceFields) : Except String Unit :=
  match f.purpose with
  | .shadowOutcomeExport => ensure (f.basis = .measured) "shadow-outcome-export evidence must be measured"
  | .shadowReport => ensure (f.basis = .derived) "shadow-report evidence must be derived"
  | .independentPostMergeCorrelation => do
    ensure (f.basis = .measured) "independent-post-merge-correlation evidence must be measured"
    ensure (f.independentlyVerifiedBy ≠ none)
      "independent-post-merge-correlation requires an independent verifier"
    ensure (f.independentlyVerifiedBy ≠ some f.producedBy)
      "independent-post-merge-correlation verifier must differ from producer"
  | .citationQualityReview | .performanceAndCostReport =>
    ensure (f.basis ≠ .modeled)
      "citation and performance evidence cannot be modeled for an advisory review"

/-- The check of a verifier, where one is named. -/
def EvidenceFields.checkVerifier (f : EvidenceFields) : Except String Unit :=
  match f.independentlyVerifiedBy with
  | some verifier => do
    let _ ← namedIdentity casefold (.str verifier) "independently_verified_by"
    .ok ()
  | none => .ok ()

/-- `__post_init__`. -/
def EvidenceFields.postInit (f : EvidenceFields) : Except String Unit := do
  let _ ← identifier casefold (.str f.evidenceId) "evidence_id"
  let _ ← nonPlaceholderText casefold (.str f.sourceSystem) "source_system" 160
  let _ ← nonPlaceholderText casefold (.str f.locator) "locator" 500
  let _ ← digest (.str f.contentDigest) "content_digest"
  ensure (90 ≤ f.retentionDays) "retention_days must be an integer >= 90"
  let _ ← nonPlaceholderText casefold (.str f.accessControlRef) "access_control_ref" 500
  let _ ← nonPlaceholderText casefold (.str f.immutabilityControlRef) "immutability_control_ref" 500
  let _ ← namedIdentity casefold (.str f.producedBy) "produced_by"
  f.checkVerifier casefold
  let combined := casefold (f.sourceSystem ++ " " ++ f.locator)
  ensure (¬ ∃ part ∈ ["github actions", "github-actions", "/actions/runs/"],
      part.toList <:+: combined.toList)
    "retained evidence must reference an approved external system, not an Actions artifact"
  f.checkPurpose

/-- A pointer to externally retained evidence with its integrity controls. -/
structure RetainedEvidenceReference extends EvidenceFields where
  valid : toEvidenceFields.postInit casefold = .ok ()
  deriving DecidableEq

def RetainedEvidenceReference.make (f : EvidenceFields) : Except String (RetainedEvidenceReference casefold) :=
  construct (EvidenceFields.postInit casefold) RetainedEvidenceReference.mk f

/-- The arguments of `FeedbackLoopSummary(...)`. -/
structure FeedbackFields where
  reportEvidenceId : String
  outcomeExportEvidenceId : String
  reportDigest : String
  outcomeExportDigest : String
  joinedObservations : Int
  reviewerClassifications : Int
  confirmedRisks : Int
  simulatedBlockPrecision : PyNumber
  simulatedBlockRecall : PyNumber
  reportDecision : String
  blockingAuthorized : Bool
  deriving DecidableEq

def FeedbackFields.postInit (f : FeedbackFields) : Except String Unit := do
  let _ ← identifier casefold (.str f.reportEvidenceId) "feedback.report_evidence_id"
  let _ ← identifier casefold (.str f.outcomeExportEvidenceId) "feedback.outcome_export_evidence_id"
  let _ ← digest (.str f.reportDigest) "feedback.report_digest"
  let _ ← digest (.str f.outcomeExportDigest) "feedback.outcome_export_digest"
  ensure (30 ≤ f.joinedObservations) "feedback.joined_observations must be an integer >= 30"
  ensure (30 ≤ f.reviewerClassifications) "feedback.reviewer_classifications must be an integer >= 30"
  ensure (5 ≤ f.confirmedRisks) "feedback.confirmed_risks must be an integer >= 5"
  ensure (f.reviewerClassifications ≤ f.joinedObservations)
    "feedback.reviewer_classifications cannot exceed joined_observations"
  let _ ← ratio f.simulatedBlockPrecision.asJson "feedback.simulated_block_precision" (1 / 2) "0.50"
  let _ ← ratio f.simulatedBlockRecall.asJson "feedback.simulated_block_recall" (4 / 5) "0.80"
  ensure (f.reportDecision = "advisory-candidate") "feedback.report_decision must be advisory-candidate"
  ensure (f.blockingAuthorized = false) "feedback.blocking_authorized must be false"

/-- The feedback loop extracted from a shadow report. -/
structure FeedbackLoopSummary extends FeedbackFields where
  valid : toFeedbackFields.postInit casefold = .ok ()
  deriving DecidableEq

def FeedbackLoopSummary.make (f : FeedbackFields) : Except String (FeedbackLoopSummary casefold) :=
  construct (FeedbackFields.postInit casefold) FeedbackLoopSummary.mk f

/-- `_retained_evidence_by_purpose`, without the mapping that it returns. -/
def retainedEvidenceByPurpose (evidence : List (RetainedEvidenceReference casefold)) : Except String Unit := do
  ensure (evidence = sortedBy (·.evidenceId) evidence) "retained_evidence must be sorted by evidence_id"
  ensure ((evidence.map (·.purpose)).Nodup ∧ ∀ purpose ∈ RetainedEvidencePurpose.all,
      purpose ∈ evidence.map (·.purpose))
    "retained_evidence must contain each required evidence purpose exactly once"
  ensure (evidence.map (·.evidenceId)).Nodup "retained_evidence evidence_id values must be unique"

/-- The arguments of `AdvisoryPromotionReviewPacket(...)`. -/
structure PacketFields where
  pilotId : String
  repository : String
  policyVersion : String
  pilotManifestDigest : String
  runtimeConfigurationDigest : String
  preparedOn : String
  reviewExpiresOn : String
  feedback : FeedbackLoopSummary casefold
  retainedEvidence : List (RetainedEvidenceReference casefold)
  requiredReviewRoles : List RequiredReviewRole
  schemaVersion : Int
  runtimeMode : String
  reviewState : String
  deriving DecidableEq

/-- That the evidence with a purpose is the one the feedback names. -/
def PacketFields.checkNamed (f : PacketFields casefold) (purpose : RetainedEvidencePurpose)
    (key : RetainedEvidenceReference casefold → String) (named message : String) : Except String Unit :=
  ensure (∀ e ∈ f.retainedEvidence, e.purpose = purpose → key e = named) message

def PacketFields.postInit (f : PacketFields casefold) : Except String Unit := do
  let pilotId ← nonPlaceholderText casefold (.str f.pilotId) "pilot_id" 80
  ensure (isPilotId pilotId) "pilot_id must be pr-guardian- followed by lowercase words"
  let repository ← nonPlaceholderText casefold (.str f.repository) "repository" 200
  ensure (isRepositoryName repository) "repository is invalid"
  let _ ← nonPlaceholderText casefold (.str f.policyVersion) "policy_version" 120
  let _ ← digest (.str f.pilotManifestDigest) "pilot_manifest_digest"
  let _ ← digest (.str f.runtimeConfigurationDigest) "runtime_configuration_digest"
  let preparedOn ← isoDate (.str f.preparedOn) "prepared_on"
  let reviewExpiresOn ← isoDate (.str f.reviewExpiresOn) "review_expires_on"
  ensure (preparedOn ≤ reviewExpiresOn) "review_expires_on precedes prepared_on"
  retainedEvidenceByPurpose casefold f.retainedEvidence
  ensure (f.requiredReviewRoles = RequiredReviewRole.required)
    "required_review_roles must name the reviewed PR Guardian promotion roles"
  ensure (f.schemaVersion = 1) "schema_version must be 1"
  ensure (f.runtimeMode = "shadow") "runtime_mode must remain shadow during review"
  ensure (f.reviewState = "human-review-required") "review_state must be human-review-required"
  f.checkNamed casefold .shadowReport (·.evidenceId) f.feedback.reportEvidenceId
    "feedback.report_evidence_id must name shadow-report evidence"
  f.checkNamed casefold .shadowOutcomeExport (·.evidenceId) f.feedback.outcomeExportEvidenceId
    "feedback.outcome_export_evidence_id must name shadow-outcome-export evidence"
  f.checkNamed casefold .shadowReport (·.contentDigest) f.feedback.reportDigest
    "shadow-report evidence digest does not match feedback"
  f.checkNamed casefold .shadowOutcomeExport (·.contentDigest) f.feedback.outcomeExportDigest
    "shadow-outcome-export evidence digest does not match feedback"

/-- A complete, expiring input to human review. -/
structure AdvisoryPromotionReviewPacket extends PacketFields casefold where
  valid : toPacketFields.postInit casefold = .ok ()
  deriving DecidableEq

def AdvisoryPromotionReviewPacket.make (f : PacketFields casefold) :
    Except String (AdvisoryPromotionReviewPacket casefold) :=
  construct (PacketFields.postInit casefold) AdvisoryPromotionReviewPacket.mk f

/-- `is_current_on`. -/
def AdvisoryPromotionReviewPacket.isCurrentOn (p : AdvisoryPromotionReviewPacket casefold) (day : Nat) : Bool :=
  (isoDay p.reviewExpiresOn).any (day ≤ ·)

end EngineeringIntelligence.Feedback
