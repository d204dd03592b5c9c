import Mathlib.Data.String.Basic
import EngineeringIntelligence.Framework.Fields
import EngineeringIntelligence.Framework.Sorted
import EngineeringIntelligence.PrGuardian.ShadowNormal

namespace EngineeringIntelligence.PrGuardian

open EngineeringIntelligence.Framework

/-! The record of a closed pull request that calibration reads. -/

structure OutcomeSubject where
  repository : String
  prNumber : Int
  headSha : String
  deriving DecidableEq, Repr

structure ReviewerSignal where
  risk : String
  utility : String
  deriving DecidableEq, Repr

structure SourceObservation where
  score : Int
  band : String
  wouldBlock : Bool
  wouldRequireAdditionalApproval : Bool
  deriving DecidableEq, Repr

structure ShadowOutcome where
  recordedAt : String
  subject : OutcomeSubject
  merged : Bool
  reviewerSignal : ReviewerSignal
  recognizedLabels : List String
  sourceObservation : Option SourceObservation
  limitations : List String
  deriving DecidableEq, Repr

theorem mapping_eq_ok {value : Json} {name : String} {fields : List (String × Json)} :
    mapping value name = .ok fields ↔ value = .obj fields := by
  cases value <;> simp [mapping]

def outcomeKind : String := "pr-guardian-shadow-outcome"

/-- `_RISK_LABELS`. -/
def riskLabels : List (String × String) :=
  [("eip-pr-guardian/confirmed-risk", "confirmed-risk"), ("eip-pr-guardian/false-positive", "false-positive")]

/-- `_UTILITY_LABELS`. -/
def utilityLabels : List (String × String) :=
  [("eip-pr-guardian/useful", "useful"), ("eip-pr-guardian/not-useful", "not-useful")]

def knownLabels : List String := (riskLabels ++ utilityLabels).map (·.1)

/-- The name of an item of `pull_request.labels`. -/
def labelName (item : Json) : Except String String := do
  let label ← mapping item "pull_request.labels item"
  let name ← string (Json.get label "name") "pull_request.labels item.name" 100
  .ok (lower name)

/-- `_recognized_labels`. -/
def recognizedLabels (rawLabels : Json) : Except String (List String) :=
  match rawLabels with
  | .arr items => do
    let names ← items.mapM labelName
    .ok (sortedSet (names.filter (· ∈ knownLabels)))
  | _ => .error "pull_request.labels is invalid"

/-- `_single_signal`. -/
def singleSignal (labels : List String) (choices : List (String × String)) (name : String) :
    Except String String :=
  match sortedSet (labels.filterMap fun label => choices.lookup label) with
  | [] => .ok "not-reviewed"
  | [selected] => .ok selected
  | _ => .error ("conflicting " ++ name ++ " reviewer labels")

def closureLimitations : List String :=
  ["PR closure is not evidence of a production incident or rollback outcome.",
    "Reviewer labels are calibration inputs, not authorization for merge enforcement."]

/-- The observation that a closed pull request had, if there is one; it has to be of this pull request. -/
def matchedObservation (observation : Option (List (String × Json))) (name : String) (number : Int)
    (headSha : String) : Except String (Option SourceObservation) :=
  match observation with
  | none => .ok none
  | some raw => do
    let normalized ← validateObservation raw
    if normalized.subject.repository = name ∧ normalized.subject.prNumber = number ∧
        normalized.subject.headSha = asciiLower headSha then
      .ok (some ⟨normalized.assessment.score, normalized.assessment.band, normalized.simulatedPolicy.wouldBlock,
        normalized.simulatedPolicy.wouldRequireAdditionalApproval⟩)
    else .error "shadow observation does not match the closed pull request"

/-- `closure_outcome`; `utcNow` is the time of the call. -/
def closureOutcome (utcNow : String) (payload : List (String × Json))
    (observation : Option (List (String × Json))) (recordedAt : Option String) : Except String ShadowOutcome := do
  ensure (equalsText "closed" (Json.get payload "action") = true)
    "only closed pull_request events can produce a shadow outcome"
  let repository ← mapping (Json.get payload "repository") "repository"
  let pullRequest ← mapping (Json.get payload "pull_request") "pull_request"
  let name ← string (Json.get repository "full_name") "repository.full_name" 200
  ensure (isRepositoryName name = true) "repository.full_name is invalid"
  let number ← integer (Json.get payload "number") "number" 1 1000000000
  let head ← mapping (Json.get pullRequest "head") "pull_request.head"
  let headSha ← string (Json.get head "sha") "pull_request.head.sha" 64
  ensure (isSha headSha = true) "pull_request.head.sha is invalid"
  let labels ← recognizedLabels (Json.get pullRequest "labels")
  let risk ← singleSignal labels riskLabels "risk"
  let utility ← singleSignal labels utilityLabels "utility"
  let source ← matchedObservation observation name number headSha
  let merged ← boolean (Json.get pullRequest "merged") "pull_request.merged"
  .ok
    { recordedAt := (recordedAt.filter (· ≠ "")).getD utcNow
      subject := ⟨name, number, asciiLower headSha⟩
      merged
      reviewerSignal := ⟨risk, utility⟩
      recognizedLabels := labels
      sourceObservation := source
      limitations := closureLimitations }

/-! ### Validation before calibration -/

/-- `_validate_outcome_subject`. -/
def validateOutcomeSubject (value : Json) : Except String OutcomeSubject := do
  let raw ← mapping value "subject"
  exactKeys raw ["repository", "pr_number", "head_sha"] "subject"
  let repository ← string (Json.get raw "repository") "subject.repository" 200
  ensure (isRepositoryName repository = true) "subject.repository is invalid"
  let headSha ← string (Json.get raw "head_sha") "subject.head_sha" 64
  ensure (isSha headSha = true) "subject.head_sha is invalid"
  let prNumber ← integer (Json.get raw "pr_number") "subject.pr_number" 1 1000000000
  .ok ⟨repository, prNumber, asciiLower headSha⟩

/-- `_validate_reviewer_signal`. -/
def validateReviewerSignal (value : Json) : Except String ReviewerSignal := do
  let raw ← mapping value "reviewer_signal"
  exactKeys raw ["risk", "utility"] "reviewer_signal"
  let risk ← string (Json.get raw "risk") "reviewer_signal.risk" 40
  let utility ← string (Json.get raw "utility") "reviewer_signal.utility" 40
  ensure (risk ∈ ["confirmed-risk", "false-positive", "not-reviewed"]) "reviewer_signal.risk is invalid"
  ensure (utility ∈ ["useful", "not-useful", "not-reviewed"]) "reviewer_signal.utility is invalid"
  .ok ⟨risk, utility⟩

/-- The texts of a list of texts. -/
def textItems : List Json → Option (List String)
  | [] => some []
  | .str s :: items => (textItems items).map (s :: ·)
  | _ :: _ => none

/-- `_validate_recognized_labels`. -/
def validateRecognizedLabels (value : Json) : Except String (List String) :=
  match value with
  | .arr items =>
    match textItems items with
    | some labels => if labels.Pairwise (· < ·) then .ok labels else .error "recognized_labels is invalid"
    | none => .error "recognized_labels is invalid"
  | _ => .error "recognized_labels is invalid"

/-- `_validate_source_observation`. -/
def validateSourceObservation (value : Json) : Except String (Option SourceObservation) :=
  match value with
  | .null => .ok none
  | value => do
    let raw ← mapping value "source_observation"
    exactKeys raw ["score", "band", "would_block", "would_require_additional_approval"] "source_observation"
    let band ← string (Json.get raw "band") "source_observation.band" 20
    ensure (band ∈ bands) "source_observation.band is invalid"
    let score ← integer (Json.get raw "score") "source_observation.score" 0 100
    let wouldBlock ← boolean (Json.get raw "would_block") "source_observation.would_block"
    let approval ← boolean (Json.get raw "would_require_additional_approval")
      "source_observation.would_require_additional_approval"
    .ok (some ⟨score, band, wouldBlock, approval⟩)

/-- `_validate_limitations`. -/
def validateLimitations (value : Json) : Except String (List String) :=
  match value with
  | .arr items =>
    match textItems items with
    | some limitations => if limitations = [] then .error "limitations is invalid" else .ok limitations
    | none => .error "limitations is invalid"
  | _ => .error "limitations is invalid"

/-- `validate_outcome`. -/
def validateOutcome (value : List (String × Json)) : Except String ShadowOutcome := do
  exactKeys value ["schema_version", "kind", "recorded_at", "subject", "closure", "reviewer_signal",
    "recognized_labels", "source_observation", "limitations"] "shadow outcome"
  ensure (equalsSchemaVersion (Json.get value "schema_version") = true ∧
    equalsText outcomeKind (Json.get value "kind") = true) "unsupported shadow outcome schema"
  let closure ← mapping (Json.get value "closure") "closure"
  exactKeys closure ["merged"] "closure"
  let recordedAt ← string (Json.get value "recorded_at") "recorded_at" 80
  let subject ← validateOutcomeSubject (Json.get value "subject")
  let merged ← boolean (Json.get closure "merged") "closure.merged"
  let reviewerSignal ← validateReviewerSignal (Json.get value "reviewer_signal")
  let recognizedLabels ← validateRecognizedLabels (Json.get value "recognized_labels")
  let sourceObservation ← validateSourceObservation (Json.get value "source_observation")
  let limitations ← validateLimitations (Json.get value "limitations")
  .ok ⟨recordedAt, subject, merged, reviewerSignal, recognizedLabels, sourceObservation, limitations⟩

end EngineeringIntelligence.PrGuardian
