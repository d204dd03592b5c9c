import EngineeringIntelligence.PrGuardian.Config
import EngineeringIntelligence.PrGuardian.Enforcement
import EngineeringIntelligence.PrGuardian.ShadowNormal

namespace EngineeringIntelligence.PrGuardian

open EngineeringIntelligence.Framework

/-! The read-only evaluation job: it writes an observation and publishes nothing. -/

structure PullRequestEvent where
  repository : String
  number : Int
  headSha : String
  action : String
  deriving DecidableEq, Repr

/-- `_object`. -/
def eventObject (value : Json) (label : String) : Except String (List (String × Json)) :=
  match value with
  | .obj fields => .ok fields
  | _ => .error ("GitHub pull_request " ++ label ++ " must be an object")

/-- `_text`. -/
def eventText (value : Json) (label : String) : Except String String :=
  match value with
  | .str s =>
    if strip s = "" then .error ("GitHub pull_request " ++ label ++ " must be a non-blank string")
    else .ok (strip s)
  | _ => .error ("GitHub pull_request " ++ label ++ " must be a non-blank string")

/-- `_positive_int`. -/
def positiveInt (value : Json) (label : String) : Except String Int :=
  match value with
  | .int n =>
    if n < 1 then .error ("GitHub pull_request " ++ label ++ " must be a positive integer")
    else .ok n
  | _ => .error ("GitHub pull_request " ++ label ++ " must be a positive integer")

def normalizePullRequestEvent (payload : Json) : Except String PullRequestEvent :=
  match payload with
  | .obj fields => do
    let repository ← eventObject (Json.get fields "repository") "repository"
    let pullRequest ← eventObject (Json.get fields "pull_request") "pull_request"
    let head ← eventObject (Json.get pullRequest "head") "pull_request.head"
    let name ← eventText (Json.get repository "full_name") "repository.full_name"
    let number ← positiveInt (Json.get fields "number") "number"
    let headSha ← eventText (Json.get head "sha") "pull_request.head.sha"
    let action ← eventText (Json.get fields "action") "action"
    .ok ⟨name, number, headSha, action⟩
  | _ => .error "payload has no attribute 'get'"

/-- What the read-only stages deliver for one event: the changed files and their risk, the
recorded workflow, and the architecture review. -/
structure PreparedReview where
  filenames : List String
  assessment : RiskAssessment
  changedServices : List String
  simulatedPolicy : SimulatedPolicy
  workflowId : String
  auditChainVerified : Bool
  architecture : ArchitectureReview
  observedAt : String

/-- What an evaluation run finds; `review` is an exception when any of the stages raised. -/
structure EvaluationJob where
  event : Except String Json
  configFile : ConfigFile
  review : Except String PreparedReview
  today : Nat

/-- The decision of `PRGuardianService.evaluate`, given whether a company context is
configured and qualified. -/
def serviceEnforcement (config : RepositoryConfig) (review : PreparedReview) (today : Nat)
    (environ : Option Environ) (contextQualified : Option Bool) : EnforcementDecision :=
  let decision := enforcementDecision config review.assessment review.filenames today environ
  if contextQualified = some false then ⟨false, .contextUnqualified, decision.rule, none⟩
  else decision

/-- The record `observation_from_assessment` assembles. -/
def observationRecord (event : PullRequestEvent) (review : PreparedReview) (mode : ProductMode)
    (enforcement : Json) : List (String × Json) :=
  [("schema_version", .int schemaVersion), ("kind", .str observationKind),
    ("mode", .str mode.value), ("enforcement", enforcement),
    ("architecture", review.architecture.asDict), ("observed_at", .str review.observedAt),
    ("subject", .obj [("repository", .str event.repository), ("pr_number", .int event.number),
      ("head_sha", .str event.headSha), ("action", .str event.action)]),
    ("assessment", .obj [("score", .int review.assessment.score),
      ("band", .str review.assessment.band),
      ("factors", .arr (review.assessment.factors.map fun f => .obj [("name", .str f.name),
        ("points", .int f.points), ("evidence", .str f.evidence)]))]),
    ("changed_services", .arr (review.changedServices.map .str)),
    ("simulated_policy", review.simulatedPolicy.asDict),
    ("workflow", .obj [("id", .str review.workflowId),
      ("audit_chain_verified", .bool review.auditChainVerified)])]

def observationFromAssessment (event : PullRequestEvent) (review : PreparedReview)
    (mode : ProductMode) (decision : EnforcementDecision) : Except String ShadowObservation :=
  validateObservation (observationRecord event review mode decision.asDict)

def evaluatedActions : List String := ["opened", "reopened", "synchronize", "ready_for_review"]

/-- `_evaluate_and_write`; `none` when the event's action is ignored. The service it builds
gets no `environ` and no company context. -/
def evaluateAndWrite (environ : Environ) (job : EvaluationJob) :
    Except String (Option ShadowObservation) := do
  if (environ "GITHUB_EVENT_PATH").getD "" = "" ∨ (environ "GITHUB_TOKEN").getD "" = "" then
    .error "GITHUB_EVENT_PATH and GITHUB_TOKEN are required"
  else
    let payload ← job.event
    let event ← normalizePullRequestEvent payload
    if event.action ∈ evaluatedActions then
      let (config, _) ← loadEffectiveConfig job.configFile event.repository job.today
      if config.repository ≠ event.repository then
        .error ("the loaded repository configuration names a different repository (" ++
          config.repository ++ ") than the pull request (" ++ event.repository ++ ")")
      else
        let review ← job.review
        let decision := serviceEnforcement config review job.today none none
        let observation ← observationFromAssessment event review config.mode decision
        .ok (some observation)
    else .ok none

/-- `main` of the evaluation script: whatever goes wrong, it exits 0 without an artifact. -/
def evaluationMain (environ : Environ) (job : EvaluationJob) : Option ShadowObservation :=
  match evaluateAndWrite environ job with
  | .ok observation => observation
  | .error _ => none

/-! What the written observation says, in terms of what the job found. -/

theorem observationEnvelope_eq {value envelope : List (String × Json)}
    (h : observationEnvelope value = .ok envelope) :
    envelope = withDefaults envelopeDefaults value := by
  simp only [observationEnvelope, bind_eq_ok_iff, ite_else_error_eq_ok_iff] at h
  obtain ⟨-, -, -, h⟩ := h
  cases h
  rfl

theorem optionalString_eq {s r : Option String} {name : String} {maximum : Nat}
    (h : optionalString (Json.optStr s) name maximum = .ok r) : r = s := by
  cases s with
  | none =>
    cases h
    rfl
  | some text =>
    change (string (.str text) name maximum).map some = .ok r at h
    cases htext : string (.str text) name maximum with
    | error e =>
      rw [htext] at h
      cases h
    | ok t =>
      rw [htext] at h
      cases h
      obtain ⟨heq, -⟩ := string_eq_ok_iff.mp htext
      cases heq
      rfl

theorem validateEnforcement_decision {d : EnforcementDecision} {mode : ProductMode}
    {e : ShadowEnforcement} (h : validateEnforcement d.asDict mode = .ok e) :
    e.wouldBlock = d.wouldBlock ∧ e.rule = d.rule := by
  simp only [validateEnforcement, EnforcementDecision.asDict, mapping_obj, ok_bind,
    exactKeys_of_keys, List.map_cons, List.map_nil, Json.get, List.lookup, String.reduceBEq,
    Option.getD_some, boolean_bool, bind_eq_ok_iff, ite_error_eq_ok_iff] at h
  obtain ⟨reason, -, rule, hrule, waived, -, -, -, h⟩ := h
  cases h
  exact ⟨rfl, optionalString_eq hrule⟩

theorem validateObservationSubject_of {event : PullRequestEvent} {s : ShadowSubject}
    (h : validateObservationSubject (.obj [("repository", .str event.repository),
      ("pr_number", .int event.number), ("head_sha", .str event.headSha),
      ("action", .str event.action)]) = .ok s) :
    s.repository = event.repository ∧ s.headSha = asciiLower event.headSha := by
  simp only [validateObservationSubject, mapping_obj, ok_bind, exactKeys_of_keys, List.map_cons,
    List.map_nil, Json.get, List.lookup, String.reduceBEq, Option.getD_some, bind_eq_ok_iff,
    ite_else_error_eq_ok_iff] at h
  obtain ⟨repository, hrepository, -, sha, hsha, -, number, -, action, -, h⟩ := h
  cases h
  obtain ⟨hr, -⟩ := string_eq_ok_iff.mp hrepository
  obtain ⟨hs, -⟩ := string_eq_ok_iff.mp hsha
  cases hr
  cases hs
  exact ⟨rfl, rfl⟩

theorem validateAssessment_score {score : Int} {band factors : Json} {a : ShadowAssessment}
    (h : validateAssessment (.obj [("score", .int score), ("band", band), ("factors", factors)]) =
      .ok a) : a.score = score := by
  simp only [validateAssessment, mapping_obj, ok_bind, exactKeys_of_keys, List.map_cons,
    List.map_nil, Json.get, List.lookup, String.reduceBEq, Option.getD_some, bind_eq_ok_iff,
    ite_else_error_eq_ok_iff] at h
  obtain ⟨text, -, -, n, hn, fs, -, h⟩ := h
  cases h
  obtain ⟨heq, -⟩ := integer_eq_ok_iff.mp hn
  cases heq
  rfl

/-- An observation the job writes carries the mode, decision, pull request and score it is about. -/
theorem observationFromAssessment_carries {event : PullRequestEvent} {review : PreparedReview}
    {mode : ProductMode} {d : EnforcementDecision} {o : ShadowObservation}
    (h : observationFromAssessment event review mode d = .ok o) :
    o.mode = mode ∧ o.enforcement.wouldBlock = d.wouldBlock ∧ o.enforcement.rule = d.rule ∧
      o.subject.repository = event.repository ∧ o.subject.headSha = asciiLower event.headSha ∧
      o.assessment.score = review.assessment.score := by
  simp only [observationFromAssessment, validateObservation, bind_eq_ok_iff] at h
  obtain ⟨envelope, henvelope, m, hm, enforcement, henforcement, architecture, -, at', -, subject,
    hsubject, assessment, hassessment, services, -, policy, -, workflow, -, h⟩ := h
  cases h
  rw [observationEnvelope_eq henvelope] at hm henforcement hsubject hassessment
  simp only [get_withDefaults, observationRecord, List.map_cons, List.map_nil, List.mem_cons,
    String.reduceEq, true_or, false_or] at hm henforcement hsubject hassessment
  simp only [Json.get, List.lookup, String.reduceBEq, Option.getD_some, shadowMode_value]
    at hm henforcement hsubject hassessment
  cases hm
  obtain ⟨hblock, hrule⟩ := validateEnforcement_decision henforcement
  obtain ⟨hrepo, hsha⟩ := validateObservationSubject_of hsubject
  exact ⟨rfl, hblock, hrule, hrepo, hsha, validateAssessment_score hassessment⟩

theorem evaluationMain_eq_some_iff {environ : Environ} {job : EvaluationJob}
    {o : ShadowObservation} :
    evaluationMain environ job = some o ↔
      (environ "GITHUB_EVENT_PATH").getD "" ≠ "" ∧ (environ "GITHUB_TOKEN").getD "" ≠ "" ∧
      ∃ payload event config configError review, job.event = .ok payload ∧
        normalizePullRequestEvent payload = .ok event ∧ event.action ∈ evaluatedActions ∧
        loadEffectiveConfig job.configFile event.repository job.today =
          .ok (config, configError) ∧
        job.review = .ok review ∧
        observationFromAssessment event review config.mode
          (enforcementDecision config review.assessment review.filenames job.today none) = .ok o := by
  have hmain : evaluationMain environ job = some o ↔ evaluateAndWrite environ job = .ok (some o) := by
    unfold evaluationMain
    cases evaluateAndWrite environ job with
    | error e => simp
    | ok r => simp
  rw [hmain]
  constructor
  · intro h
    simp only [evaluateAndWrite, ite_error_eq_ok_iff, not_or, bind_eq_ok_iff] at h
    obtain ⟨⟨hpath, htoken⟩, payload, hpayload, event, hevent, h⟩ := h
    split at h
    · next haction =>
      obtain ⟨⟨config, configError⟩, hload, h⟩ := bind_eq_ok_iff.mp h
      obtain ⟨-, h⟩ := ite_error_eq_ok_iff.mp h
      obtain ⟨review, hreview, h⟩ := bind_eq_ok_iff.mp h
      obtain ⟨observation, hobservation, h⟩ := bind_eq_ok_iff.mp h
      cases h
      exact ⟨hpath, htoken, payload, event, config, configError, review, hpayload, hevent, haction,
        hload, hreview, hobservation⟩
    · cases h
  · rintro ⟨hpath, htoken, payload, event, config, configError, review, hpayload, hevent, haction,
      hload, hreview, hobservation⟩
    rw [evaluateAndWrite, if_neg (not_or.mpr ⟨hpath, htoken⟩), hpayload, ok_bind, hevent, ok_bind,
      if_pos haction, hload, ok_bind]
    simp only [loadEffectiveConfig_repository hload, ne_eq, not_true_eq_false, if_false, hreview,
      ok_bind, serviceEnforcement, reduceCtorEq, hobservation]

end EngineeringIntelligence.PrGuardian
