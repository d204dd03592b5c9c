import EngineeringIntelligence.PrGuardian.Evaluation

namespace EngineeringIntelligence.PrGuardian

open EngineeringIntelligence.Framework

/-! The publisher's conclusion on whatever mapping it is handed, beside the decision of the evaluation. -/

section
variable (str : Json → String)

/-- `str(reason or default)`; `str` renders what is not text. -/
def reasonText (reason : Json) (default : EnforcementReason) : String :=
  match reason with
  | .str s => if s = "" then default.value else s
  | value => if value.truthy then str value else default.value

def isTrue : Json → Bool
  | .bool b => b
  | _ => false

/-- The score an observation reports, when it is an integer. -/
def reportedScore (observation : List (String × Json)) : Option Int :=
  match Json.get observation "assessment" with
  | .obj assessment =>
    match Json.get assessment "score" with
    | .int score => some score
    | _ => none
  | _ => none

/-- `publishable_conclusion`, on any mapping. -/
def publishableConclusionOf (observation : List (String × Json)) (config : RepositoryConfig)
    (environ : Option Environ) (today : Nat) : PublishDecision :=
  match Json.get observation "enforcement" with
  | .obj enforcement =>
    if !equalsText ProductMode.enforce.value (Json.get observation "mode") then
      ⟨.neutral, EnforcementReason.observationNotEnforcing.value⟩
    else if !isTrue (Json.get enforcement "would_block") then
      ⟨.neutral, reasonText str (Json.get enforcement "reason") .conditionNotMet⟩
    else if killSwitchEnabled environ then ⟨.neutral, EnforcementReason.killSwitch.value⟩
    else
      match config.mode, config.enforcement with
      | .enforce, some policy =>
        if !equalsText policy.rule.value (Json.get enforcement "rule") then
          ⟨.neutral, EnforcementReason.ruleMismatch.value⟩
        else
          match reportedScore observation with
          | none => ⟨.neutral, EnforcementReason.thresholdNotMet.value⟩
          | some score =>
            if score < policy.threshold then ⟨.neutral, EnforcementReason.thresholdNotMet.value⟩
            else if !policy.isActiveOn today then ⟨.neutral, EnforcementReason.approvalExpired.value⟩
            else ⟨.failure, EnforcementReason.enforced.value⟩
      | _, _ => ⟨.neutral, EnforcementReason.configNotEnforcing.value⟩
  | _ => ⟨.neutral, EnforcementReason.observationNotEnforcing.value⟩

end

/-- The publisher's own configuration stands behind a failing check: it enforces under an approval that has not
lapsed, the switch is off, and the observation names its rule and an integer score that reaches its threshold. -/
structure Authorized (observation : List (String × Json)) (config : RepositoryConfig) (environ : Option Environ)
    (today : Nat) : Prop where
  switch : killSwitchEnabled environ = false
  mode : config.mode = .enforce
  rule : ∃ policy enforcement score, config.enforcement = some policy ∧ today ≤ policy.expiresOn.day ∧
    Json.get observation "enforcement" = .obj enforcement ∧ Json.get enforcement "rule" = .str policy.rule.value ∧
      reportedScore observation = some score ∧ policy.threshold ≤ score

theorem equalsText_iff {text : String} {value : Json} : equalsText text value = true ↔ value = .str text := by
  cases value <;> simp [equalsText]

section
variable {str : Json → String} {observation : List (String × Json)} {config : RepositoryConfig}
  {environ : Option Environ} {today : Nat}

/-- Whatever it is handed, the publisher fails a check only on its own authority. -/
theorem authorized_of_failure
    (h : (publishableConclusionOf str observation config environ today).conclusion = .failure) :
    Authorized observation config environ today := by
  unfold publishableConclusionOf at h
  split at h
  case h_2 => cases h
  case h_1 enforcement henforcement =>
  split_ifs at h with hmode hblock hswitch
  split at h
  case h_2 => cases h
  case h_1 policy hconfigMode hpolicy =>
  by_cases hrule : Json.get enforcement "rule" = .str policy.rule.value
  · rw [equalsText_iff.mpr hrule, if_neg (by simp)] at h
    split at h
    case h_1 => cases h
    case h_2 score hscore =>
    split_ifs at h with hbelow hlapsed
    · have hactive : today ≤ policy.expiresOn.day := by
        simpa [EnforcementPolicy.isActiveOn] using hlapsed
      have hreached : policy.threshold ≤ score := by omega
      exact ⟨by simpa using hswitch, hconfigMode,
        ⟨policy, enforcement, score, hpolicy, hactive, henforcement, hrule, hscore, hreached⟩⟩
  · have hother : equalsText policy.rule.value (Json.get enforcement "rule") = false := by
      rw [← Bool.not_eq_true, equalsText_iff]
      exact hrule
    rw [hother, if_pos (by simp)] at h
    cases h

/-- On a normalized observation the two readings of `publishable_conclusion` are one. -/
theorem publishableConclusionOf_asDict {o : ShadowObservation} (hreason : o.enforcement.reason ≠ "") :
    publishableConclusionOf str o.asDict config environ today = publishableConclusion o config environ today := by
  have hmode : equalsText ProductMode.enforce.value (.str o.mode.value) = decide (o.mode = .enforce) := by
    cases o.mode <;> decide
  have hscore : reportedScore o.asDict = some o.assessment.score := rfl
  have hrule : ∀ text, equalsText text (Json.optStr o.enforcement.rule) =
      decide (o.enforcement.rule = some text) := by
    intro text
    cases o.enforcement.rule <;> simp [Json.optStr, equalsText]
  unfold publishableConclusionOf publishableConclusion
  simp only [hscore]
  simp only [Json.get, ShadowObservation.asDict, ShadowEnforcement.asDict, List.lookup, String.reduceBEq,
    Option.getD_some, hmode, hrule, isTrue, reasonText, if_neg hreason, Bool.not_eq_true', decide_eq_false_iff_not,
    Bool.not_eq_true, ne_eq] <;> cases config.mode <;> cases config.enforcement <;> rfl

end

theorem reason_of_valid {raw : List (String × Json)} {o : ShadowObservation}
    (h : validateObservation raw = .ok o) : o.enforcement.reason ≠ "" := by
  simp only [validateObservation, bind_eq_ok_iff] at h
  obtain ⟨envelope, -, mode, -, enforcement, henforcement, architecture, -, observedAt, -, subject, -, assessment, -,
    services, -, policy, -, workflow, -, h⟩ := h
  cases h
  simp only [validateEnforcement, bind_eq_ok_iff, ite_error_eq_ok_iff] at henforcement
  obtain ⟨fields, -, -, -, block, -, reason, hreason, rule, -, waived, -, -, -, henforcement⟩ := henforcement
  cases henforcement
  exact (string_eq_ok_iff.mp hreason).2.1

/-- A decision to block is the enforcing configuration's, and the context was not found wanting. -/
theorem serviceEnforcement_blocks {config : RepositoryConfig} {review : PreparedReview} {today : Nat}
    {environ : Option Environ} {qualified : Option Bool}
    (h : (serviceEnforcement config review today environ qualified).wouldBlock = true) :
    serviceEnforcement config review today environ qualified =
      enforcementDecision config review.assessment review.filenames today environ := by
  unfold serviceEnforcement at h ⊢
  by_cases hqualified : qualified = some false
  · rw [if_pos hqualified] at h
    cases h
  · rw [if_neg hqualified]

/-- On the record the evaluation builds, the publisher's conclusion is the evaluation's decision. -/
theorem failure_iff_blocks (str : Json → String) {event : PullRequestEvent} {config : RepositoryConfig}
    {review : PreparedReview} {today : Nat} {environ : Option Environ} {qualified : Option Bool}
    {o : ShadowObservation} (h : observationFromAssessment event review config.mode
      (serviceEnforcement config review today environ qualified) = .ok o) :
    (publishableConclusionOf str o.asDict config environ today).conclusion = .failure ↔
      (serviceEnforcement config review today environ qualified).wouldBlock = true := by
  have hreason : o.enforcement.reason ≠ "" := reason_of_valid h
  obtain ⟨hmode, hblock, hrule, -, -, hscore⟩ := observationFromAssessment_carries h
  rw [publishableConclusionOf_asDict hreason, publishableConclusion_failure_iff, ← hblock]
  constructor
  · intro hfailure
    exact hfailure.2.2.1
  · intro hblocks
    have hdecision := serviceEnforcement_blocks (hblock ▸ hblocks)
    have hown : (enforcementDecision config review.assessment review.filenames today environ).wouldBlock = true := by
      rw [← hdecision, ← hblock]
      exact hblocks
    obtain ⟨hswitch, policy, hconfigMode, hpolicy, hfires⟩ := enforcementDecision_blocks_iff.mp hown
    have hnamed : o.enforcement.rule = some policy.rule.value := by
      rw [hrule, hdecision, enforcementDecision_of_blocks hown, hpolicy]
      rfl
    have hreached : policy.threshold ≤ o.assessment.score := by
      rw [hscore]
      exact hfires.score
    exact ⟨hswitch, hmode.trans hconfigMode, hblocks, policy, hconfigMode, hpolicy, hnamed, hreached, hfires.approved⟩

/-- The conclusion is a failure exactly where the evaluation decided to block; and of any observation, forged or
not, a failure has the publisher's own configuration behind it. -/
theorem conclusion_follows_decision (str : Json → String) (config : RepositoryConfig) (environ : Option Environ)
    (today : Nat) :
    (∀ event review qualified o, observationFromAssessment event review config.mode
        (serviceEnforcement config review today environ qualified) = .ok o →
      ((publishableConclusionOf str o.asDict config environ today).conclusion = .failure ↔
        (serviceEnforcement config review today environ qualified).wouldBlock = true)) ∧
      ∀ observation, (publishableConclusionOf str observation config environ today).conclusion = .failure →
        Authorized observation config environ today :=
  ⟨fun _ _ _ _ h => failure_iff_blocks str h, fun _ h => authorized_of_failure h⟩

namespace TerraformChange

def config : RepositoryConfig where
  repository := "acme/payments"
  serviceIds := ["payments"]
  ownerIds := ["ana"]
  evidenceSources := ["github"]
  policyVersion := "2026-01"
  mode := .enforce
  enforcement := some {
    rule := .iacChangeWithoutTestEvidence
    threshold := 20
    approvedBy := "ana"
    approvedOn := ⟨"2026-01-01", ordinal 2026 1 1, by decide +kernel⟩
    expiresOn := ⟨"2026-12-31", ordinal 2026 12 31, by decide +kernel⟩
    waivers := []
    threshold_range := by decide
    ordered := by decide
    bounded := by decide }
  opted := by decide
  owned := by simp

def event : PullRequestEvent := ⟨"acme/payments", 7, "8f14e45f", "opened"⟩

def review : PreparedReview where
  filenames := ["services/payments/main.tf"]
  assessment := ⟨22, "low", [⟨"infrastructure-change", 12, "IaC or deployment infrastructure changed"⟩,
    ⟨"weak-test-evidence", 10, "test evidence is missing or weak"⟩]⟩
  changedServices := ["payments"]
  simulatedPolicy := ⟨false, false, false⟩
  workflowId := "pr-review-7"
  auditChainVerified := true
  architecture := ⟨[], 1, 1, [], "No architecture policy violations detected."⟩
  observedAt := "2026-06-01T09:00:00+00:00"

def observation : ShadowObservation where
  mode := .enforce
  enforcement := ⟨true, "rule-condition-met", some "iac-change-without-test-evidence-at-high-risk", none⟩
  architecture := review.architecture
  observedAt := review.observedAt
  subject := ⟨"acme/payments", 7, "8f14e45f", "opened"⟩
  assessment := ⟨22, "low", [⟨"infrastructure-change", 12, "IaC or deployment infrastructure changed"⟩,
    ⟨"weak-test-evidence", 10, "test evidence is missing or weak"⟩]⟩
  changedServices := ["payments"]
  simulatedPolicy := ⟨false, false, false⟩
  workflow := ⟨"pr-review-7", true⟩

end TerraformChange

open TerraformChange in
/-- An untested Terraform change is blocked, and the publisher stands behind it. -/
theorem terraform_change_fails :
    (publishableConclusionOf Json.dumps observation.asDict config none (ordinal 2026 6 1)).conclusion = .failure ∧
      Authorized observation.asDict config none (ordinal 2026 6 1) := by
  have hfollows := conclusion_follows_decision Json.dumps config none (ordinal 2026 6 1)
  have hbuilt : observationFromAssessment event review config.mode
      (serviceEnforcement config review (ordinal 2026 6 1) none none) = .ok observation := by
    decide +kernel
  have hblocks : (serviceEnforcement config review (ordinal 2026 6 1) none none).wouldBlock = true := by
    decide +kernel
  have hfailure := (hfollows.1 event review none observation hbuilt).mpr hblocks
  exact ⟨hfailure, hfollows.2 observation.asDict hfailure⟩

end EngineeringIntelligence.PrGuardian
