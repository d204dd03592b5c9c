import EngineeringIntelligence.Intelligence.RiskCalibration
import EngineeringIntelligence.PrGuardian.Outcomes
import Mathlib.Data.Prod.Lex

namespace EngineeringIntelligence.Feedback

open EngineeringIntelligence.Framework EngineeringIntelligence.Intelligence EngineeringIntelligence.PrGuardian

/-! The report over the outcomes of a shadow pilot, and the fingerprint of its input. -/

/-! ### The canonical export -/

def sourceJson (source : SourceObservation) : Json := .obj
  [("score", .int source.score), ("band", .str source.band), ("would_block", .bool source.wouldBlock),
    ("would_require_additional_approval", .bool source.wouldRequireAdditionalApproval)]

/-- The dictionary of a validated outcome. -/
def outcomeFields (record : ShadowOutcome) : List (String × Json) :=
  [("schema_version", .int 1), ("kind", .str outcomeKind), ("recorded_at", .str record.recordedAt),
    ("subject", .obj [("repository", .str record.subject.repository), ("pr_number", .int record.subject.prNumber),
      ("head_sha", .str record.subject.headSha)]),
    ("closure", .obj [("merged", .bool record.merged)]),
    ("reviewer_signal", .obj [("risk", .str record.reviewerSignal.risk),
      ("utility", .str record.reviewerSignal.utility)]),
    ("recognized_labels", .arr (record.recognizedLabels.map .str)),
    ("source_observation", (record.sourceObservation.map sourceJson).getD .null),
    ("limitations", .arr (record.limitations.map .str))]

def outcomeJson (record : ShadowOutcome) : Json := .obj (outcomeFields record)

/-- The key that the canonical export is sorted by. -/
def exportKey (record : ShadowOutcome) : String ×ₗ Int ×ₗ String ×ₗ String :=
  toLex (record.subject.repository, toLex (record.subject.prNumber,
    toLex (record.subject.headSha, record.recordedAt)))

section
variable (sha256 : String → String)

/-- `canonical_json_sha256`. -/
def canonicalJsonSha256 (payload : Json) : String := "sha256:" ++ sha256 payload.dumps

/-- `canonical_shadow_outcomes_sha256`. -/
def canonicalShadowOutcomesSha256 (records : List ShadowOutcome) : String :=
  canonicalJsonSha256 sha256 (.arr ((sortedBy exportKey records).map outcomeJson))

end

/-! ### The report -/

structure InputProvenance where
  canonicalOutcomeExportSha256 : String
  closureRecords : Nat
  canonicalization : String :=
    "validated closure records sorted by repository, PR, head SHA, and recorded_at"

structure ReportSample where
  closureRecords : Nat
  joinedObservations : Nat
  reviewerClassifications : Nat
  confirmedRisks : Nat
  utilityResponses : Nat

structure SimulatedBlockDecision where
  truePositive : Nat
  falsePositive : Nat
  trueNegative : Nat
  falseNegative : Nat
  precision : Option Rat
  «recall» : Option Rat

structure UtilityReport where
  useful : Nat
  notUseful : Nat
  usefulRate : Option Rat

structure CalibrationView where
  suggestedHighThreshold : Int
  sampleSize : Nat
  failedSamples : Nat
  changedFromDefault : Bool
  confidence : Rat
  evidence : List String

structure CalibrationSection where
  applied : Bool := false
  note : String := "Threshold changes are reviewed product decisions; this section is a recommendation only."
  serviceKey : String := "subject.repository"
  dispositionMapping : List (String × String) := [("confirmed-risk", "failed"), ("false-positive", "not-failed")]
  failureSamplesFrom : String := "confirmed-risk"
  defaultHighThreshold : Int := Intelligence.defaultHighThreshold
  overall : CalibrationView
  perService : List (String × CalibrationView)

structure PromotionReadiness where
  requirements : List (String × Bool)
  unmetRequirements : List String
  blockingAuthorized : Bool := false
  decision : String
  nextReview : String

structure ShadowReport where
  schemaVersion : Int := 1
  kind : String := "pr-guardian-shadow-report"
  scope : String := "offline pilot export only"
  inputProvenance : InputProvenance
  sample : ReportSample
  simulatedBlockDecision : SimulatedBlockDecision
  utility : UtilityReport
  calibration : CalibrationSection
  promotionReadiness : PromotionReadiness
  limitations : List String :=
    ["Closure and reviewer labels do not establish post-merge incident or rollback outcomes.",
      "This report is an input to an approved evidence record; it is not production evidence by itself.",
      "No report output can authorize PR Guardian merge blocking."]

/-- `_DISPOSITION_FAILED`. -/
def dispositionFailed : List (String × Bool) := [("confirmed-risk", true), ("false-positive", false)]

/-- One record of `_scored_outcomes`. -/
def scoredOutcome (record : ShadowOutcome) : Option ScoredOutcome := do
  let source ← record.sourceObservation
  let failed ← dispositionFailed.lookup record.reviewerSignal.risk
  return { score := source.score, failed, service := some record.subject.repository }

/-- `round(x, 4)`, before it is the float nearest to it. -/
def roundFour (x : Rat) : Rat := Binary64.nearest (x * 10000) / 10000

/-- The joined records with a reviewer's disposition. -/
def reviewedRecords (records : List ShadowOutcome) : List ShadowOutcome :=
  (records.filter (·.sourceObservation.isSome)).filter (·.reviewerSignal.risk ≠ "not-reviewed")

/-- How many of the reviewed records were to be blocked or not, and hold a confirmed risk or not. -/
def decisionCount (reviewed : List ShadowOutcome) (wouldBlock confirmed : Bool) : Nat :=
  reviewed.countP fun record => record.sourceObservation.any (·.wouldBlock = wouldBlock) &&
    decide (record.reviewerSignal.risk = "confirmed-risk") = confirmed

section
variable (rounded : Rat → Rat)

/-- `_ratio`. -/
def reportRatioOf (numerator denominator : Nat) : Option Rat :=
  (ratioOf rounded numerator denominator).map fun ratio => rounded (roundFour ratio)

/-- `_calibration_view`. -/
def calibrationView (calibration : RiskCalibration) : CalibrationView :=
  { suggestedHighThreshold := calibration.highThreshold
    sampleSize := calibration.sampleSize
    failedSamples := calibration.failedSamples
    changedFromDefault := calibration.changedFromDefault
    confidence := rounded (roundFour calibration.confidence)
    evidence := calibration.evidence }

/-- The view of the threshold for some of the outcomes. -/
def calibratedView (outcomes : List ScoredOutcome) : Except String CalibrationView :=
  (calibrateHighRiskThreshold rounded {} outcomes).map (calibrationView rounded)

/-- `_calibration`. -/
def calibrationSection (reviewed : List ShadowOutcome) : Except String CalibrationSection := do
  let outcomes := reviewed.filterMap scoredOutcome
  let overall ← calibratedView rounded outcomes
  let services := sortedSet ((outcomes.filterMap (·.service)).filter (· ≠ ""))
  let perService ← services.mapM fun service => do
    let view ← calibratedView rounded (outcomes.filter (·.service = some service))
    return (service, view)
  return { overall, perService }

/-- `_next_review`. -/
def nextReview (records : List ShadowOutcome) (failures : List String) : String :=
  if records = [] then "no closure records yet"
  else
    match failures with
    | failure :: _ => "awaiting " ++ failure
    | [] => "human evidence review of the promotion packet"

/-- The report over records that were validated. -/
def reportOf (sha256 : String → String) (records : List ShadowOutcome) : Except String ShadowReport := do
  let joined := records.filter (·.sourceObservation.isSome)
  let reviewed := reviewedRecords records
  let confirmed := reviewed.countP (·.reviewerSignal.risk = "confirmed-risk")
  let useful := joined.countP (·.reviewerSignal.utility = "useful")
  let notUseful := joined.countP (·.reviewerSignal.utility = "not-useful")
  let tp := decisionCount reviewed true true
  let fp := decisionCount reviewed true false
  let fn := decisionCount reviewed false true
  let tn := decisionCount reviewed false false
  let precision := reportRatioOf rounded tp (tp + fp)
  let recallRate := reportRatioOf rounded tp (tp + fn)
  let requirements := [("minimum_joined_observations", decide (30 ≤ joined.length)),
    ("minimum_reviewer_classifications", decide (30 ≤ reviewed.length)),
    ("minimum_confirmed_risks", decide (5 ≤ confirmed)),
    ("minimum_simulated_block_precision", precision.any (rounded (1 / 2) ≤ ·)),
    ("minimum_simulated_block_recall", recallRate.any (rounded (4 / 5) ≤ ·))]
  let failures := (requirements.filter (!·.2)).map (·.1)
  let calibration ← calibrationSection rounded reviewed
  return {
    inputProvenance := {
      canonicalOutcomeExportSha256 := canonicalShadowOutcomesSha256 sha256 records
      closureRecords := records.length }
    sample := {
      closureRecords := records.length
      joinedObservations := joined.length
      reviewerClassifications := reviewed.length
      confirmedRisks := confirmed
      utilityResponses := useful + notUseful }
    simulatedBlockDecision := {
      truePositive := tp
      falsePositive := fp
      trueNegative := tn
      falseNegative := fn
      precision
      «recall» := recallRate }
    utility := { useful, notUseful, usefulRate := reportRatioOf rounded useful (useful + notUseful) }
    calibration
    promotionReadiness := {
      requirements
      unmetRequirements := failures
      decision := if failures = [] then "advisory-candidate" else "shadow-only"
      nextReview := nextReview records failures } }

/-- `build_shadow_report`. -/
def buildShadowReport (sha256 : String → String) (outcomes : List (List (String × Json))) :
    Except String ShadowReport := do
  let records ← outcomes.mapM validateOutcome
  reportOf rounded sha256 records

end

end EngineeringIntelligence.Feedback
