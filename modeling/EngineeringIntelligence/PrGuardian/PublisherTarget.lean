import EngineeringIntelligence.PrGuardian.Conclusion
import EngineeringIntelligence.PrGuardian.KillSwitch

namespace EngineeringIntelligence.PrGuardian

open EngineeringIntelligence.Framework

/-! Where a publisher run writes, beside the run that triggered it. -/

/-- Repository and head commit of the workflow run that triggered a job. -/
def TriggeredBy (environ : Environ) (job : PublisherJob) (repository headSha : String) : Prop :=
  environ "GITHUB_REPOSITORY" = some repository ∧
    ∃ run, workflowRun job.event = .ok run ∧ lower (textOf run "head_sha") = headSha

/-- A write on this repository, at this commit or on this pull request. -/
def Publication.On (repository headSha : String) (pullRequest : Int) : Publication → Prop
  | .check c => c.repository = repository ∧ c.headSha = headSha
  | .stickyComment target number => target = repository ∧ number = pullRequest

/-- Everything the publisher writes goes to the repository and the head commit of its run, and to the
pull request whose evaluation triggered the run. -/
def KeepsToRun (environ : Environ) (job : PublisherJob) (pullRequest : Int) : Prop :=
  ∀ p ∈ (publisherMain environ job).published, ∃ repository headSha,
    TriggeredBy environ job repository headSha ∧ p.On repository headSha pullRequest

/-- The number the publisher takes is that of the pull request: an artifact it accepts names it, and
where it refuses the artifact the event lists no other number first. -/
def NamesPullRequest (environ : Environ) (job : PublisherJob) (pullRequest : Int) : Prop :=
  ∀ repository headSha run config,
    publisherTrigger environ job = .ok (repository, headSha, run) →
    loadEffectiveConfig job.configFile repository job.today = .ok config →
      (∀ o, trustedObservation job.artifact (resultPath environ) repository headSha = .ok o →
        o.subject.prNumber = pullRequest) ∧
      (∀ reason, trustedObservation job.artifact (resultPath environ) repository headSha =
          .error (.untrusted reason) →
        ∀ n, pullRequestNumber run = some n → n = pullRequest)

theorem triggeredBy_of_trigger {environ : Environ} {job : PublisherJob} {repository headSha : String}
    {run : List (String × Json)} (h : publisherTrigger environ job = .ok (repository, headSha, run)) :
    TriggeredBy environ job repository headSha ∧ lower headSha = headSha := by
  simp only [publisherTrigger, ite_error_eq_ok_iff, bind_eq_ok_iff, Except.ok.injEq, Prod.mk.injEq] at h
  obtain ⟨hgiven, run', hrun, -, -, hrepository, rfl, rfl⟩ := h
  have hset : environ "GITHUB_REPOSITORY" = some repository := by
    cases hget : environ "GITHUB_REPOSITORY" with
    | none =>
      rw [hget] at hgiven
      simp at hgiven
    | some given =>
      rw [hget] at hrepository
      exact congrArg some hrepository
  exact ⟨⟨hset, run', hrun, rfl⟩, lower_lower _⟩

/-- What a run that gets as far as reading the artifact writes. -/
theorem published_of_trigger {environ : Environ} {job : PublisherJob} {repository headSha : String}
    {run : List (String × Json)} {config : RepositoryConfig} {configError : Option String}
    (htrigger : publisherTrigger environ job = .ok (repository, headSha, run))
    (hload : loadEffectiveConfig job.configFile repository job.today = .ok (config, configError)) :
    match trustedObservation job.artifact (resultPath environ) repository headSha with
    | .ok o => ∃ check, check.repository = repository ∧ check.headSha = headSha ∧
        (publisherMain environ job).published = [.check check, .stickyComment repository o.subject.prNumber]
    | .error (.untrusted _) => (publisherMain environ job).published =
        publishUntrustedEvaluation repository headSha (pullRequestNumber run) config.mode
    | .error (.other _) => (publisherMain environ job).published = [] := by
  unfold publisherMain
  cases htrusted : trustedObservation job.artifact (resultPath environ) repository headSha with
  | error e =>
    cases e with
    | untrusted reason => simp [htrigger, hload, htrusted]
    | other message => simp [htrigger, hload, htrusted]
  | ok o =>
    obtain ⟨raw, -, hvalid, hrepository, hsha⟩ := trustedObservation_eq_ok_iff.mp htrusted
    obtain ⟨name, text, hpublished⟩ := publishObservation_of_valid hvalid hrepository
      (loadEffectiveConfig_repository hload) none job.today configError
    have hcommit : o.subject.headSha = headSha := hsha.trans (triggeredBy_of_trigger htrigger).2
    refine ⟨⟨repository, o.subject.headSha, name, (publishConclusion o config none job.today configError).1, text⟩,
      rfl, hcommit, ?_⟩
    simp only [htrigger, hload, htrusted, hpublished]

/-- Where no configuration is loaded, or the event is no trigger, nothing is written. -/
theorem published_of_no_config {environ : Environ} {job : PublisherJob}
    (h : ∀ repository headSha run config, publisherTrigger environ job = .ok (repository, headSha, run) →
      loadEffectiveConfig job.configFile repository job.today ≠ .ok config) :
    (publisherMain environ job).published = [] := by
  unfold publisherMain
  cases htrigger : publisherTrigger environ job with
  | error e => rfl
  | ok trigger =>
    obtain ⟨repository, headSha, run⟩ := trigger
    cases hload : loadEffectiveConfig job.configFile repository job.today with
    | error e => simp [hload]
    | ok config => exact absurd hload (h repository headSha run config htrigger)

theorem untrusted_on {repository headSha : String} {number : Option Int} {mode : ProductMode} {pullRequest : Int}
    (h : ∀ n, number = some n → n = pullRequest) :
    ∀ p ∈ publishUntrustedEvaluation repository headSha number mode, p.On repository headSha pullRequest := by
  intro p hp
  cases number with
  | none =>
    rw [publishUntrustedEvaluation, List.mem_singleton] at hp
    rw [hp]
    exact ⟨rfl, rfl⟩
  | some n =>
    rw [publishUntrustedEvaluation, List.mem_cons, List.mem_singleton] at hp
    rcases hp with hp | hp
    · rw [hp]
      exact ⟨rfl, rfl⟩
    · rw [hp]
      exact ⟨rfl, h n rfl⟩

/-- The repository and the commit are bound to the run on every path; the pull request is the one whose
number the publisher takes. -/
theorem publisher_keeps_to_run_iff (environ : Environ) (job : PublisherJob) (pullRequest : Int) :
    KeepsToRun environ job pullRequest ↔ NamesPullRequest environ job pullRequest := by
  constructor
  · intro h repository headSha run config htrigger hload
    have hpublished := published_of_trigger htrigger hload
    constructor
    · intro o htrusted
      rw [htrusted] at hpublished
      obtain ⟨check, -, -, hpublished⟩ := hpublished
      obtain ⟨_, _, -, hon⟩ := h (.stickyComment repository o.subject.prNumber) (by simp [hpublished])
      exact hon.2
    · intro reason htrusted n hnumber
      rw [htrusted, hnumber] at hpublished
      obtain ⟨_, _, -, hon⟩ := h (.stickyComment repository n) (by simp [hpublished, publishUntrustedEvaluation])
      exact hon.2
  · intro h p hp
    by_cases hconfig : ∃ repository headSha run config,
        publisherTrigger environ job = .ok (repository, headSha, run) ∧
        loadEffectiveConfig job.configFile repository job.today = .ok config
    · obtain ⟨repository, headSha, run, ⟨config, configError⟩, htrigger, hload⟩ := hconfig
      obtain ⟨haccepted, hrefused⟩ := h repository headSha run _ htrigger hload
      refine ⟨repository, headSha, (triggeredBy_of_trigger htrigger).1, ?_⟩
      have hpublished := published_of_trigger htrigger hload
      cases htrusted : trustedObservation job.artifact (resultPath environ) repository headSha with
      | ok o =>
        rw [htrusted] at hpublished
        obtain ⟨check, hrepository, hsha, hpublished⟩ := hpublished
        rw [hpublished, List.mem_cons, List.mem_singleton] at hp
        rcases hp with hp | hp
        · rw [hp]
          exact ⟨hrepository, hsha⟩
        · rw [hp]
          exact ⟨rfl, haccepted o htrusted⟩
      | error e =>
        cases e with
        | untrusted reason =>
          rw [htrusted] at hpublished
          rw [hpublished] at hp
          exact untrusted_on (hrefused reason htrusted) p hp
        | other message =>
          rw [htrusted] at hpublished
          rw [hpublished] at hp
          cases hp
    · have hnone : (publisherMain environ job).published = [] := by
        apply published_of_no_config
        intro repository headSha run config htrigger hload
        exact hconfig ⟨repository, headSha, run, config, htrigger, hload⟩
      rw [hnone] at hp
      cases hp

namespace ForgedNumber

/-- The evaluation of pull request 7 hands over an artifact that says it is about pull request 8. -/
def job : PublisherJob where
  event := .ok (.obj [("workflow_run", .obj [("event", .str "pull_request"), ("head_sha", .str "8f14e45f"),
    ("pull_requests", .arr [.obj [("number", .int 7)]])])])
  configFile := .absent
  artifact := .json (.obj
    { TerraformChange.observation with subject := ⟨"acme/payments", 8, "8f14e45f", "opened"⟩ }.asDict)
  today := ordinal 2026 6 1

def environ : Environ :=
  ([("GITHUB_EVENT_PATH", "event.json"), ("GITHUB_TOKEN", "write"), ("GITHUB_REPOSITORY", "acme/payments")].lookup ·)

end ForgedNumber

open ForgedNumber in
/-- The sticky comment of pull request 8 is overwritten. -/
theorem forged_number_is_followed : ¬ KeepsToRun environ job 7 := by
  have hpublished : .stickyComment "acme/payments" 8 ∈ (publisherMain environ job).published := by
    decide +kernel
  intro h
  obtain ⟨_, _, -, -, hnumber⟩ := h _ hpublished
  exact absurd hnumber (by decide)

end EngineeringIntelligence.PrGuardian
