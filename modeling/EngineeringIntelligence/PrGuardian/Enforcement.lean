import EngineeringIntelligence.PrGuardian.Shadow

namespace EngineeringIntelligence.PrGuardian

open EngineeringIntelligence.Framework

/-- A process environment. -/
abbrev Environ := String → Option String

inductive PublishConclusion where
  | neutral
  | failure
  deriving DecidableEq, Repr

inductive EnforcementReason where
  | killSwitch
  | modeNotEnforcing
  | approvalExpired
  | conditionNotMet
  | waived
  | conditionMet
  | contextUnqualified
  | observationNotEnforcing
  | configNotEnforcing
  | ruleMismatch
  | thresholdNotMet
  | enforced
  deriving DecidableEq, Repr

namespace EnforcementReason

def all : List EnforcementReason := [killSwitch, modeNotEnforcing, approvalExpired,
  conditionNotMet, waived, conditionMet, contextUnqualified, observationNotEnforcing,
  configNotEnforcing, ruleMismatch, thresholdNotMet, enforced]

def value : EnforcementReason → String
  | killSwitch => "kill-switch"
  | modeNotEnforcing => "mode-not-enforcing"
  | approvalExpired => "enforcement-approval-expired"
  | conditionNotMet => "rule-condition-not-met"
  | waived => "waived-by-owner"
  | conditionMet => "rule-condition-met"
  | contextUnqualified => "company-brain-context-unqualified"
  | observationNotEnforcing => "observation-mode-not-enforcing"
  | configNotEnforcing => "repository-config-not-enforcing"
  | ruleMismatch => "rule-does-not-match-repository-config"
  | thresholdNotMet => "score-below-configured-threshold"
  | enforced => "enforced-by-repository-config"

def explanation : EnforcementReason → String
  | killSwitch => "the operator kill switch is engaged"
  | modeNotEnforcing => "this repository has not enabled enforcement"
  | approvalExpired => "the service-owner approval for enforcement has expired"
  | conditionNotMet => "the enforcement rule's condition was not met"
  | waived => "a service owner recorded a waiver covering every affected file"
  | conditionMet => "the enforcement rule's condition was met"
  | contextUnqualified => "the Company Brain context was insufficient, stale, or conflicted " ++
      "for a control decision"
  | observationNotEnforcing => "the evaluation was not enforcing"
  | configNotEnforcing =>
      "the trusted repository configuration is not enforcing this pull request"
  | ruleMismatch => "the evaluated rule does not match the rule in the trusted repository " ++
      "configuration"
  | thresholdNotMet => "the reported risk score does not reach the threshold in the trusted " ++
      "repository configuration"
  | enforced => "the repository configuration enforces this rule"

end EnforcementReason

/-- A reason nobody knows is shown as it stands. -/
def explain (reason : String) : String :=
  match EnforcementReason.all.find? (·.value = reason) with
  | some r => r.explanation
  | none => reason

def killSwitchEnv : String := "EIP_PR_GUARDIAN_KILL_SWITCH"

/-- `kill_switch_enabled`. Without a mapping it reads an empty one, never the process environment. -/
def killSwitchEnabled (environ : Option Environ) : Bool :=
  let source := environ.getD (fun _ => none)
  asciiLower (strip ((source killSwitchEnv).getD "")) = "true"

theorem killSwitchEnabled_none : killSwitchEnabled none = false := by decide

structure RiskFactor where
  name : String
  points : Int
  evidence : String
  deriving DecidableEq, Repr

structure RiskAssessment where
  score : Int
  band : String
  factors : List RiskFactor
  deriving DecidableEq, Repr

def RiskAssessment.hasFactor (a : RiskAssessment) (name : String) : Bool :=
  a.factors.any (·.name = name)

def weakTestEvidenceFactor : String := "weak-test-evidence"

def isIacPath (path : String) : Bool :=
  let lowered := lower path
  endsWithAny lowered [".tf", ".tfvars"] ||
    startsWithAny lowered ["infra/", "terraform/", "helm/", "k8s/"]

def isSecurityBoundaryPath (path : String) : Bool :=
  let lowered := lower path
  ["iam", "rbac", "identity", "auth", "security", "policy", "keyvault", "key_vault",
    "networkpolicy"].any (hasInfix lowered)

/-- `_RULE_TRIGGERS`: the factor a rule asks for and the files it is about. -/
def ruleTriggers : EnforcementRule → String × (String → Bool)
  | .iacChangeWithoutTestEvidence => ("infrastructure-change", isIacPath)
  | .securityChangeWithoutTestEvidence => ("security-boundary-change", isSecurityBoundaryPath)

structure EnforcementDecision where
  wouldBlock : Bool
  reason : EnforcementReason
  rule : Option String := none
  waivedBy : Option String := none
  deriving DecidableEq, Repr

def EnforcementDecision.asDict (d : EnforcementDecision) : Json :=
  .obj [("would_block", .bool d.wouldBlock), ("reason", .str d.reason.value),
    ("rule", Json.optStr d.rule), ("waived_by", Json.optStr d.waivedBy)]

/-- The files of a change one rule is about. -/
def triggeringFiles (rule : EnforcementRule) (changedFiles : List String) : List String :=
  changedFiles.filter (ruleTriggers rule).2

def conditionMet (policy : EnforcementPolicy) (assessment : RiskAssessment)
    (changedFiles : List String) : Bool :=
  policy.threshold ≤ assessment.score && assessment.hasFactor (ruleTriggers policy.rule).1 &&
    assessment.hasFactor weakTestEvidenceFactor &&
    !(triggeringFiles policy.rule changedFiles).isEmpty

/-- A waiver excuses a change only when it covers every file the rule fired on. -/
def EnforcementWaiver.covers (w : EnforcementWaiver) (triggering : List String) (today : Nat) :
    Bool :=
  w.isActiveOn today && triggering.all (fnmatch · w.pathGlob)

/-- Decide whether one change meets the repository's single blocking rule. -/
def enforcementDecision (config : RepositoryConfig) (assessment : RiskAssessment)
    (changedFiles : List String) (today : Nat) (environ : Option Environ) : EnforcementDecision :=
  let rule := config.enforcement.map (·.rule.value)
  if killSwitchEnabled environ then ⟨false, .killSwitch, rule, none⟩
  else
    match config.mode, config.enforcement with
    | .enforce, some policy =>
      if !policy.isActiveOn today then ⟨false, .approvalExpired, rule, none⟩
      else if !conditionMet policy assessment changedFiles then ⟨false, .conditionNotMet, rule, none⟩
      else
        match policy.waivers.find? (·.covers (triggeringFiles policy.rule changedFiles) today) with
        | some waiver => ⟨false, .waived, rule, some waiver.owner⟩
        | none => ⟨true, .conditionMet, rule, none⟩
    | _, _ => ⟨false, .modeNotEnforcing, none, none⟩

structure PublishDecision where
  conclusion : PublishConclusion
  reason : String
  deriving DecidableEq, Repr

/-- Re-derive the publishable conclusion from the trusted configuration. -/
def publishableConclusion (observation : ShadowObservation) (config : RepositoryConfig)
    (environ : Option Environ) (today : Nat) : PublishDecision :=
  if observation.mode ≠ .enforce then
    ⟨.neutral, EnforcementReason.observationNotEnforcing.value⟩
  else if observation.enforcement.wouldBlock ≠ true then
    ⟨.neutral, observation.enforcement.reason⟩
  else if killSwitchEnabled environ then ⟨.neutral, EnforcementReason.killSwitch.value⟩
  else
    match config.mode, config.enforcement with
    | .enforce, some policy =>
      if observation.enforcement.rule ≠ some policy.rule.value then
        ⟨.neutral, EnforcementReason.ruleMismatch.value⟩
      else if observation.assessment.score < policy.threshold then
        ⟨.neutral, EnforcementReason.thresholdNotMet.value⟩
      else if !policy.isActiveOn today then ⟨.neutral, EnforcementReason.approvalExpired.value⟩
      else ⟨.failure, EnforcementReason.enforced.value⟩
    | _, _ => ⟨.neutral, EnforcementReason.configNotEnforcing.value⟩

/-! What it takes to block. -/

/-- One rule's condition on a change, with no waiver that covers it. -/
structure RuleFires (policy : EnforcementPolicy) (assessment : RiskAssessment)
    (changedFiles : List String) (today : Nat) : Prop where
  approved : today ≤ policy.expiresOn.day
  score : policy.threshold ≤ assessment.score
  factor : ∃ f ∈ assessment.factors, f.name = (ruleTriggers policy.rule).1
  untested : ∃ f ∈ assessment.factors, f.name = weakTestEvidenceFactor
  touched : ∃ path ∈ changedFiles, (ruleTriggers policy.rule).2 path = true
  unwaived : ∀ w ∈ policy.waivers, today ≤ w.expiresOn.day →
    ∃ path ∈ changedFiles, (ruleTriggers policy.rule).2 path = true ∧
      fnmatch path w.pathGlob = false

theorem conditionMet_iff {policy : EnforcementPolicy} {assessment : RiskAssessment}
    {changedFiles : List String} :
    conditionMet policy assessment changedFiles = true ↔
      policy.threshold ≤ assessment.score ∧
      (∃ f ∈ assessment.factors, f.name = (ruleTriggers policy.rule).1) ∧
      (∃ f ∈ assessment.factors, f.name = weakTestEvidenceFactor) ∧
      ∃ path ∈ changedFiles, (ruleTriggers policy.rule).2 path = true := by
  simp [conditionMet, RiskAssessment.hasFactor, triggeringFiles, and_assoc]

theorem covers_eq_false_iff {w : EnforcementWaiver} {rule : EnforcementRule}
    {changedFiles : List String} {today : Nat} :
    w.covers (triggeringFiles rule changedFiles) today = false ↔
      (today ≤ w.expiresOn.day →
        ∃ path ∈ changedFiles, (ruleTriggers rule).2 path = true ∧
          fnmatch path w.pathGlob = false) := by
  simp only [EnforcementWaiver.covers, EnforcementWaiver.isActiveOn, triggeringFiles,
    Bool.and_eq_false_imp, decide_eq_true_eq, List.all_eq_false, List.mem_filter, and_assoc,
    Bool.not_eq_true]

theorem ruleFires_iff {policy : EnforcementPolicy} {assessment : RiskAssessment}
    {changedFiles : List String} {today : Nat} :
    RuleFires policy assessment changedFiles today ↔
      policy.isActiveOn today = true ∧ conditionMet policy assessment changedFiles = true ∧
        ∀ w ∈ policy.waivers, w.covers (triggeringFiles policy.rule changedFiles) today = false := by
  simp only [conditionMet_iff, covers_eq_false_iff, EnforcementPolicy.isActiveOn,
    decide_eq_true_eq]
  constructor
  · intro h
    exact ⟨h.approved, ⟨h.score, h.factor, h.untested, h.touched⟩, h.unwaived⟩
  · rintro ⟨happroved, ⟨hscore, hfactor, huntested, htouched⟩, hunwaived⟩
    exact ⟨happroved, hscore, hfactor, huntested, htouched, hunwaived⟩

/-- What the decision is once the switch is off and the repository enforces. -/
theorem enforcementDecision_of_enforcing {config : RepositoryConfig} {policy : EnforcementPolicy}
    {environ : Option Environ} (hswitch : killSwitchEnabled environ = false)
    (hmode : config.mode = .enforce) (hpolicy : config.enforcement = some policy)
    (assessment : RiskAssessment) (changedFiles : List String) (today : Nat) :
    enforcementDecision config assessment changedFiles today environ =
      if !policy.isActiveOn today then ⟨false, .approvalExpired, some policy.rule.value, none⟩
      else if !conditionMet policy assessment changedFiles then
        ⟨false, .conditionNotMet, some policy.rule.value, none⟩
      else
        match policy.waivers.find? (·.covers (triggeringFiles policy.rule changedFiles) today) with
        | some waiver => ⟨false, .waived, some policy.rule.value, some waiver.owner⟩
        | none => ⟨true, .conditionMet, some policy.rule.value, none⟩ := by
  rw [enforcementDecision, hswitch, hmode, hpolicy]
  rfl

/-- The evaluation blocks when the switch it was handed is off and the rule fires. -/
theorem enforcementDecision_blocks_iff {config : RepositoryConfig} {assessment : RiskAssessment}
    {changedFiles : List String} {today : Nat} {environ : Option Environ} :
    (enforcementDecision config assessment changedFiles today environ).wouldBlock = true ↔
      killSwitchEnabled environ = false ∧
        ∃ policy, config.mode = .enforce ∧ config.enforcement = some policy ∧
          RuleFires policy assessment changedFiles today := by
  cases hswitch : killSwitchEnabled environ with
  | true => simp [enforcementDecision, hswitch]
  | false =>
    by_cases hmode : config.mode = .enforce
    · obtain ⟨policy, hpolicy⟩ := Option.isSome_iff_exists.mp (config.opted.mpr hmode)
      rw [enforcementDecision_of_enforcing hswitch hmode hpolicy]
      simp only [hmode, hpolicy, Option.some.injEq, true_and, exists_eq_left', ruleFires_iff]
      cases hactive : policy.isActiveOn today with
      | false => simp
      | true =>
        cases hcond : conditionMet policy assessment changedFiles with
        | false => simp
        | true =>
          cases hfind : policy.waivers.find?
              (·.covers (triggeringFiles policy.rule changedFiles) today) with
          | some w =>
            have hmem := List.mem_of_find?_eq_some hfind
            have hcovers := List.find?_some hfind
            simp only [Bool.not_true, Bool.false_eq_true, if_false, true_and, false_iff]
            intro h
            rw [h w hmem] at hcovers
            exact Bool.false_ne_true hcovers
          | none => simpa using List.find?_eq_none.mp hfind
    · have hnone : (enforcementDecision config assessment changedFiles today environ).wouldBlock =
          false := by
        rw [enforcementDecision, hswitch]
        split
        · next h => exact absurd h Bool.false_ne_true
        · split
          · next h _ => exact absurd h hmode
          · rfl
      simp [hnone, hmode]

/-- A blocking decision names the rule and no waiver. -/
theorem enforcementDecision_of_blocks {config : RepositoryConfig} {assessment : RiskAssessment}
    {changedFiles : List String} {today : Nat} {environ : Option Environ}
    (h : (enforcementDecision config assessment changedFiles today environ).wouldBlock = true) :
    enforcementDecision config assessment changedFiles today environ =
      ⟨true, .conditionMet, config.enforcement.map (·.rule.value), none⟩ := by
  obtain ⟨hswitch, policy, hmode, hpolicy, hfires⟩ := enforcementDecision_blocks_iff.mp h
  obtain ⟨hactive, hcond, hwaivers⟩ := ruleFires_iff.mp hfires
  have hfind : policy.waivers.find?
      (·.covers (triggeringFiles policy.rule changedFiles) today) = none := by
    rw [List.find?_eq_none]
    intro w hw
    rw [hwaivers w hw]
    exact Bool.false_ne_true
  rw [enforcementDecision_of_enforcing hswitch hmode hpolicy, hactive, hcond, hfind, hpolicy]
  rfl

/-- The publisher fails a check when the switch it was handed is off and the trusted
configuration stands behind the observation. -/
theorem publishableConclusion_failure_iff {observation : ShadowObservation}
    {config : RepositoryConfig} {environ : Option Environ} {today : Nat} :
    (publishableConclusion observation config environ today).conclusion = .failure ↔
      killSwitchEnabled environ = false ∧ observation.mode = .enforce ∧
        observation.enforcement.wouldBlock = true ∧
        ∃ policy, config.mode = .enforce ∧ config.enforcement = some policy ∧
          observation.enforcement.rule = some policy.rule.value ∧
          policy.threshold ≤ observation.assessment.score ∧ today ≤ policy.expiresOn.day := by
  by_cases hobs : observation.mode = .enforce
  swap
  · simp [publishableConclusion, hobs]
  cases hblock : observation.enforcement.wouldBlock with
  | false => simp [publishableConclusion, hobs, hblock]
  | true =>
    cases hswitch : killSwitchEnabled environ with
    | true => simp [publishableConclusion, hobs, hblock, hswitch]
    | false =>
      by_cases hmode : config.mode = .enforce
      · obtain ⟨policy, hpolicy⟩ := Option.isSome_iff_exists.mp (config.opted.mpr hmode)
        simp only [publishableConclusion, hobs, hblock, hswitch, hmode, hpolicy, ne_eq,
          not_true_eq_false, if_false, Bool.false_eq_true, Option.some.injEq, true_and,
          exists_eq_left', EnforcementPolicy.isActiveOn, Bool.not_eq_true', decide_eq_false_iff_not]
        by_cases hrule : observation.enforcement.rule = some policy.rule.value
        · by_cases hscore : policy.threshold ≤ observation.assessment.score
          · by_cases hactive : today ≤ policy.expiresOn.day
            · simp [hrule, hscore, hactive, not_lt.mpr hscore]
            · simp [hrule, hactive, not_lt.mpr hscore]
          · simp [hrule, hscore, not_le.mp hscore]
        · simp [hrule]
      · have hnone : (publishableConclusion observation config environ today).conclusion =
            .neutral := by
          simp only [publishableConclusion, hobs, hblock, hswitch, ne_eq, not_true_eq_false,
            if_false, Bool.false_eq_true]
          split
          · next h _ => exact absurd h hmode
          · rfl
        simp [hnone, hmode]

end EngineeringIntelligence.PrGuardian
