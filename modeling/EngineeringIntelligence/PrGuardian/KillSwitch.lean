import EngineeringIntelligence.PrGuardian.Evaluation
import EngineeringIntelligence.PrGuardian.Publisher

namespace EngineeringIntelligence.PrGuardian

open EngineeringIntelligence.Framework

/-! From the two environments to the published check. -/

theorem trustedObservation_eq_ok_iff {file : ArtifactFile} {path repository headSha : String}
    {o : ShadowObservation} :
    trustedObservation file path repository headSha = .ok o ↔
      ∃ raw, file = .json (.obj raw) ∧ validateObservation raw = .ok o ∧
        o.subject.repository = repository ∧ o.subject.headSha = lower headSha := by
  constructor
  · intro h
    unfold trustedObservation at h
    split at h
    · cases h
    · cases h
    · cases h
    · cases h
    · next raw =>
      split at h
      · cases h
      · next observation hvalid =>
        split at h
        · cases h
        · next hrepo =>
          split at h
          · cases h
          · next hsha =>
            cases h
            exact ⟨raw, rfl, hvalid, not_not.mp hrepo, not_not.mp hsha⟩
    · cases h
  · rintro ⟨raw, rfl, hvalid, hrepo, hsha⟩
    simp [trustedObservation, hvalid, hrepo, hsha]

/-- What `publish_observation` publishes for an observation of the publisher's repository. -/
theorem publishObservation_of_valid {o : ShadowObservation} {raw : List (String × Json)}
    (hvalid : validateObservation raw = .ok o) {config : RepositoryConfig} {repository : String}
    (hrepo : o.subject.repository = repository) (hconfig : config.repository = repository)
    (environ : Option Environ) (today : Nat) (configError : Option String) :
    ∃ name text, publishObservation o.asDict config repository environ today configError =
      .ok [.check ⟨repository, o.subject.headSha, name,
            (publishConclusion o config environ today configError).1, text⟩,
          .stickyComment repository o.subject.prNumber] := by
  refine ⟨checkPrefixText ++ " (" ++ config.mode.value ++ ")",
    title config.mode o.assessment (publishConclusion o config environ today configError).1
      (publishConclusion o config environ today configError).2, ?_⟩
  rw [publishObservation, validateObservation_asDict hvalid, ok_bind,
    if_neg (not_not.mpr hrepo), if_neg (not_not.mpr hconfig)]

theorem publishConclusion_failure_iff {o : ShadowObservation} {config : RepositoryConfig}
    {environ : Option Environ} {today : Nat} {configError : Option String} :
    (publishConclusion o config environ today configError).1 = .failure ↔
      configError = none ∧ (publishableConclusion o config environ today).conclusion = .failure := by
  cases configError with
  | none => simp [publishConclusion]
  | some e => simp [publishConclusion]

theorem publishUntrustedEvaluation_neutral {repository headSha : String} {number : Option Int}
    {mode : ProductMode} {c : Check}
    (h : Publication.check c ∈ publishUntrustedEvaluation repository headSha number mode) :
    c.conclusion = .neutral := by
  cases number with
  | none =>
    simp only [publishUntrustedEvaluation, List.mem_singleton, Publication.check.injEq] at h
    rw [h]
  | some n =>
    simp only [publishUntrustedEvaluation, List.mem_cons, Publication.check.injEq, reduceCtorEq,
      List.not_mem_nil, or_false] at h
    rw [h]

/-- A publisher run fails a check exactly when it trusts the artifact and the configuration,
and the conclusion, derived without any environment, is a failure. -/
theorem publisherMain_failure_iff (environ : Environ) (job : PublisherJob) :
    (publisherMain environ job).PublishesFailure ↔
      ∃ repository headSha run config o,
        publisherTrigger environ job = .ok (repository, headSha, run) ∧
        loadEffectiveConfig job.configFile repository job.today = .ok (config, none) ∧
        trustedObservation job.artifact (resultPath environ) repository headSha = .ok o ∧
        (publishableConclusion o config none job.today).conclusion = .failure := by
  unfold publisherMain PublisherOutcome.PublishesFailure
  cases htrigger : publisherTrigger environ job with
  | error e => simp
  | ok trigger =>
    obtain ⟨repository, headSha, run⟩ := trigger
    cases hload : loadEffectiveConfig job.configFile repository job.today with
    | error e => simp [hload]
    | ok loaded =>
      obtain ⟨config, configError⟩ := loaded
      cases htrusted : trustedObservation job.artifact (resultPath environ) repository headSha with
      | error e =>
        cases e with
        | other m => simp [hload, htrusted]
        | untrusted m =>
          simp only [hload, htrusted, Except.ok.injEq, Prod.mk.injEq]
          constructor
          · rintro ⟨c, hc, hfailure⟩
            rw [publishUntrustedEvaluation_neutral hc] at hfailure
            cases hfailure
          · rintro ⟨_, _, _, _, _, ⟨rfl, rfl, rfl⟩, -, htr, -⟩
            rw [htrusted] at htr
            cases htr
      | ok o =>
        obtain ⟨raw, -, hvalid, hrepo, -⟩ := trustedObservation_eq_ok_iff.mp htrusted
        obtain ⟨name, text, hpublished⟩ := publishObservation_of_valid hvalid hrepo
          (loadEffectiveConfig_repository hload) none job.today configError
        simp only [hload, htrusted, hpublished, List.mem_cons, Publication.check.injEq,
          reduceCtorEq, List.not_mem_nil, or_false, exists_eq_left, publishConclusion_failure_iff,
          Except.ok.injEq, Prod.mk.injEq]
        constructor
        · rintro ⟨rfl, hfailure⟩
          exact ⟨repository, headSha, run, config, o, ⟨rfl, rfl, rfl⟩, hload, htrusted, hfailure⟩
        · rintro ⟨_, _, _, config', o', ⟨rfl, rfl, rfl⟩, hload', htrusted', hfailure⟩
          rw [hload] at hload'
          rw [htrusted] at htrusted'
          cases hload'
          cases htrusted'
          exact ⟨rfl, hfailure⟩

/-- One pull request from evaluation to publication. The publisher finds the artifact the
evaluation wrote, or, when `replaced`, another file in its place. -/
structure GuardianRun where
  evaluationEnviron : Environ
  evaluation : EvaluationJob
  publisherEnviron : Environ
  event : Except String Json
  configFile : ConfigFile
  replaced : Option ArtifactFile
  today : Nat

namespace GuardianRun

def artifact (run : GuardianRun) : ArtifactFile :=
  match run.replaced with
  | some file => file
  | none =>
    match evaluationMain run.evaluationEnviron run.evaluation with
    | some observation => .json (.obj observation.asDict)
    | none => .missing

def publisherJob (run : GuardianRun) : PublisherJob :=
  ⟨run.event, run.configFile, run.artifact, run.today⟩

def PublishesFailure (run : GuardianRun) : Prop :=
  (publisherMain run.publisherEnviron run.publisherJob).PublishesFailure

/-- The switch is on for one of the two entry points. -/
def SwitchEngaged (run : GuardianRun) : Prop :=
  killSwitchEnabled (some run.evaluationEnviron) = true ∨
    killSwitchEnabled (some run.publisherEnviron) = true

/-- What the operator is promised: with the switch on, no check fails. -/
def SwitchHonoured (run : GuardianRun) : Prop := run.SwitchEngaged → ¬ run.PublishesFailure

end GuardianRun

/-- An artifact that asks for a failing check under `policy`. -/
def ArtifactAsks (file : ArtifactFile) (repository headSha : String) (policy : EnforcementPolicy) :
    Prop :=
  ∃ raw o, file = .json (.obj raw) ∧ validateObservation raw = .ok o ∧
    o.subject.repository = repository ∧ o.subject.headSha = lower headSha ∧ o.mode = .enforce ∧
    o.enforcement.wouldBlock = true ∧ o.enforcement.rule = some policy.rule.value ∧
    policy.threshold ≤ o.assessment.score

/-- The evaluation job has everything it takes to write a blocking observation: its event and
its own configuration load, that configuration enforces, and its rule fires on the change. -/
structure EvaluationBlocks (environ : Environ) (job : EvaluationJob) (event : PullRequestEvent)
    (policy : EnforcementPolicy) (review : PreparedReview) : Prop where
  path : (environ "GITHUB_EVENT_PATH").getD "" ≠ ""
  token : (environ "GITHUB_TOKEN").getD "" ≠ ""
  triggered : ∃ payload, job.event = .ok payload ∧ normalizePullRequestEvent payload = .ok event
  action : event.action ∈ evaluatedActions
  configured : ∃ config configError,
    loadEffectiveConfig job.configFile event.repository job.today = .ok (config, configError) ∧
      config.mode = .enforce ∧ config.enforcement = some policy
  reviewed : job.review = .ok review
  fires : RuleFires policy review.assessment review.filenames job.today
  valid : ∃ o, observationFromAssessment event review .enforce
    ⟨true, .conditionMet, some policy.rule.value, none⟩ = .ok o

/-- The evaluation of `run` asks for a failing check under `policy`. -/
def EvaluationAsks (run : GuardianRun) (repository headSha : String) (policy : EnforcementPolicy) :
    Prop :=
  ∃ event own review,
    EvaluationBlocks run.evaluationEnviron run.evaluation event own review ∧
      event.repository = repository ∧ asciiLower event.headSha = lower headSha ∧
      own.rule = policy.rule ∧ policy.threshold ≤ review.assessment.score

/-- The repository enforces this change: the publisher is set up, its trusted configuration
enforces under an unexpired approval, and the evaluation, or the file found in its place,
asks for a failing check under that approval. No environment switch enters here. -/
def GuardianRun.Enforced (run : GuardianRun) : Prop :=
  ∃ repository headSha trigger config policy,
    publisherTrigger run.publisherEnviron run.publisherJob = .ok (repository, headSha, trigger) ∧
    loadEffectiveConfig run.configFile repository run.today = .ok (config, none) ∧
    config.mode = .enforce ∧ config.enforcement = some policy ∧
    run.today ≤ policy.expiresOn.day ∧
    match run.replaced with
    | some file => ArtifactAsks file repository headSha policy
    | none => EvaluationAsks run repository headSha policy

theorem evaluationMain_asks_iff {run : GuardianRun} {repository headSha : String}
    {policy : EnforcementPolicy} :
    (∃ o, evaluationMain run.evaluationEnviron run.evaluation = some o ∧
      o.subject.repository = repository ∧ o.subject.headSha = lower headSha ∧ o.mode = .enforce ∧
      o.enforcement.wouldBlock = true ∧ o.enforcement.rule = some policy.rule.value ∧
      policy.threshold ≤ o.assessment.score) ↔ EvaluationAsks run repository headSha policy := by
  constructor
  · rintro ⟨o, hmain, hrepo, hsha, hmode, hblock, hrule, hscore⟩
    obtain ⟨hpath, htoken, payload, event, config, configError, review, hpayload, hevent, haction,
      hload, hreview, hobservation⟩ := evaluationMain_eq_some_iff.mp hmain
    obtain ⟨homode, hoblock, horule, horepo, hosha, hoscore⟩ :=
      observationFromAssessment_carries hobservation
    have hblocks := hoblock.symm.trans hblock
    have hdecision := enforcementDecision_of_blocks hblocks
    obtain ⟨-, own, hown, hpolicy, hfires⟩ := enforcementDecision_blocks_iff.mp hblocks
    rw [hdecision, hpolicy] at horule hobservation
    rw [hown] at hobservation
    refine ⟨event, own, review, ⟨hpath, htoken, ⟨payload, hpayload, hevent⟩, haction,
      ⟨config, configError, hload, hown, hpolicy⟩, hreview, hfires, ⟨o, hobservation⟩⟩, ?_, ?_, ?_, ?_⟩
    · exact horepo.symm.trans hrepo
    · exact hosha.symm.trans hsha
    · apply EnforcementRule.value_inj
      rw [horule] at hrule
      exact Option.some.inj hrule
    · rwa [hoscore] at hscore
  · rintro ⟨event, own, review, hblocks, hrepo, hsha, hrule, hscore⟩
    obtain ⟨payload, hpayload, hevent⟩ := hblocks.triggered
    obtain ⟨config, configError, hload, hmode, hpolicy⟩ := hblocks.configured
    obtain ⟨o, hobservation⟩ := hblocks.valid
    -- the service hands no environment down, so nothing but the rule decides
    have hdecision : enforcementDecision config review.assessment review.filenames
        run.evaluation.today none = ⟨true, .conditionMet, some own.rule.value, none⟩ := by
      rw [enforcementDecision_of_blocks
        (enforcementDecision_blocks_iff.mpr ⟨killSwitchEnabled_none, own, hmode, hpolicy, hblocks.fires⟩),
        hpolicy]
      rfl
    have hmain : evaluationMain run.evaluationEnviron run.evaluation = some o := by
      refine evaluationMain_eq_some_iff.mpr ⟨hblocks.path, hblocks.token, payload, event, config,
        configError, review, hpayload, hevent, hblocks.action, hload, hblocks.reviewed, ?_⟩
      rw [hdecision, hmode]
      exact hobservation
    obtain ⟨homode, hoblock, horule, horepo, hosha, hoscore⟩ :=
      observationFromAssessment_carries hobservation
    refine ⟨o, hmain, horepo.trans hrepo, hosha.trans hsha, homode, hoblock, ?_, ?_⟩
    · rw [horule, hrule]
    · rwa [hoscore]

/-- What the publisher finds asks for a failing check exactly when its source does. -/
theorem artifactAsks_artifact_iff {run : GuardianRun} {repository headSha : String}
    {policy : EnforcementPolicy} :
    ArtifactAsks run.artifact repository headSha policy ↔
      match run.replaced with
      | some file => ArtifactAsks file repository headSha policy
      | none => EvaluationAsks run repository headSha policy := by
  unfold GuardianRun.artifact
  cases run.replaced with
  | some file => exact Iff.rfl
  | none =>
    simp only [← evaluationMain_asks_iff]
    cases hmain : evaluationMain run.evaluationEnviron run.evaluation with
    | none => simp [ArtifactAsks]
    | some o =>
      obtain ⟨-, -, _, _, _, _, _, -, -, -, -, -, hobservation⟩ :=
        evaluationMain_eq_some_iff.mp hmain
      have hvalid := validateObservation_asDict hobservation
      constructor
      · rintro ⟨raw, o', hraw, hvalid', h⟩
        cases hraw
        rw [hvalid] at hvalid'
        cases hvalid'
        exact ⟨o, rfl, h⟩
      · rintro ⟨o', ho, h⟩
        cases ho
        exact ⟨o.asDict, o, rfl, hvalid, h⟩

/-- Whatever the two environments say about the switch, a check fails exactly when the
repository enforces the change. -/
theorem publishesFailure_iff (run : GuardianRun) : run.PublishesFailure ↔ run.Enforced := by
  rw [GuardianRun.PublishesFailure, publisherMain_failure_iff]
  constructor
  · rintro ⟨repository, headSha, trigger, config, o, htrigger, hload, htrusted, hfailure⟩
    obtain ⟨-, hmode, hblock, policy, hcmode, hpolicy, hrule, hscore, hactive⟩ :=
      publishableConclusion_failure_iff.mp hfailure
    obtain ⟨raw, hfile, hvalid, hrepo, hsha⟩ := trustedObservation_eq_ok_iff.mp htrusted
    refine ⟨repository, headSha, trigger, config, policy, htrigger, hload, hcmode, hpolicy, hactive,
      artifactAsks_artifact_iff.mp ?_⟩
    exact ⟨raw, o, hfile, hvalid, hrepo, hsha, hmode, hblock, hrule, hscore⟩
  · rintro ⟨repository, headSha, trigger, config, policy, htrigger, hload, hcmode, hpolicy, hactive,
      hasks⟩
    obtain ⟨raw, o, hfile, hvalid, hrepo, hsha, hmode, hblock, hrule, hscore⟩ :=
      artifactAsks_artifact_iff.mpr hasks
    refine ⟨repository, headSha, trigger, config, o, htrigger, hload,
      trustedObservation_eq_ok_iff.mpr ⟨raw, hfile, hvalid, hrepo, hsha⟩, ?_⟩
    exact publishableConclusion_failure_iff.mpr
      ⟨killSwitchEnabled_none, hmode, hblock, policy, hcmode, hpolicy, hrule, hscore, hactive⟩

/-- The switch keeps its promise only where there was nothing to switch off. -/
theorem switch_honoured_iff (run : GuardianRun) :
    run.SwitchHonoured ↔ ¬ (run.SwitchEngaged ∧ run.Enforced) := by
  rw [GuardianRun.SwitchHonoured, publishesFailure_iff, not_and]

/-- Both jobs of `acme/payments` run with the switch on, for a pull request that changes
Terraform without a test under an approved blocking rule. -/
def switchedRun : GuardianRun where
  evaluationEnviron := ([("GITHUB_EVENT_PATH", "event.json"), ("GITHUB_TOKEN", "read"),
    ("EIP_PR_GUARDIAN_KILL_SWITCH", "true")].lookup ·)
  evaluation := {
    event := .ok (.obj [("action", .str "opened"), ("number", .int 7),
      ("repository", .obj [("full_name", .str "acme/payments")]),
      ("pull_request", .obj [("head", .obj [("sha", .str "8f14e45f")])])])
    configFile := enforcingConfig
    review := .ok {
      filenames := ["services/payments/main.tf"]
      assessment := ⟨22, "low",
        [⟨"infrastructure-change", 12, "IaC or deployment infrastructure changed"⟩,
          ⟨"weak-test-evidence", 10, "test evidence is missing or weak"⟩]⟩
      changedServices := ["payments"]
      simulatedPolicy := ⟨false, false, false⟩
      workflowId := "pr-review-7"
      auditChainVerified := true
      architecture := ⟨[], 1, 1, [],
        "No architecture policy violations detected. Reviewed 1 of 1 in-scope file(s)."⟩
      observedAt := "2026-06-01T09:00:00+00:00" }
    today := ordinal 2026 6 1 }
  publisherEnviron := ([("GITHUB_EVENT_PATH", "event.json"), ("GITHUB_TOKEN", "write"),
    ("GITHUB_REPOSITORY", "acme/payments"), ("EIP_PR_GUARDIAN_KILL_SWITCH", "true")].lookup ·)
  event := .ok (.obj [("workflow_run", .obj [("event", .str "pull_request"),
    ("head_sha", .str "8f14e45f"),
    ("pull_requests", .arr [.obj [("number", .int 7)]])])])
  configFile := enforcingConfig
  replaced := none
  today := ordinal 2026 6 1
where
  enforcingConfig : ConfigFile := .json (.obj [("mode", .str "enforce"),
    ("service_ids", .arr [.str "payments"]), ("service_owners", .arr [.str "ana"]),
    ("policy_version", .str "2026-01"),
    ("enforcement", .obj [("rule", .str "iac-change-without-test-evidence-at-high-risk"),
      ("threshold", .int 20), ("approved_by", .str "ana"), ("approved_on", .str "2026-01-01"),
      ("expires_on", .str "2026-12-31")])])

/-- A check that failed. -/
def failedCheck : Publication → Bool
  | .check c => decide (c.conclusion = .failure)
  | .stickyComment _ _ => false

theorem kill_switch_ignored : ¬ switchedRun.SwitchHonoured := by
  have hfailure : (publisherMain switchedRun.publisherEnviron switchedRun.publisherJob).published.any
      failedCheck = true := by
    decide +kernel
  obtain ⟨p, hp, hconclusion⟩ := List.any_eq_true.mp hfailure
  intro h
  apply h (Or.inr (by decide))
  cases p with
  | check c => exact ⟨c, hp, of_decide_eq_true hconclusion⟩
  | stickyComment repository number => cases hconclusion

end EngineeringIntelligence.PrGuardian
