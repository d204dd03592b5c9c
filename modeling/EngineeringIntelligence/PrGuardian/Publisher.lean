import EngineeringIntelligence.PrGuardian.Config
import EngineeringIntelligence.PrGuardian.Enforcement
import EngineeringIntelligence.PrGuardian.ShadowNormal

namespace EngineeringIntelligence.PrGuardian

open EngineeringIntelligence.Framework

/-! The trusted publisher, the only writer of checks. The texts of comments and of check
summaries are left out: rendering a validated observation cannot fail. -/

structure Check where
  repository : String
  headSha : String
  name : String
  conclusion : PublishConclusion
  title : String
  deriving DecidableEq, Repr

inductive Publication where
  | check (c : Check)
  | stickyComment (repository : String) (prNumber : Int)
  deriving DecidableEq, Repr

/-- What a publisher run asked GitHub for, and its exit code or the exception that ended it. -/
structure PublisherOutcome where
  published : List Publication
  exit : Except String Nat

/-- What the publisher finds where the evaluation artifact should be. -/
inductive ArtifactFile where
  | missing
  | unreadable (error : String)
  | invalidJson (error : String)
  /-- bytes whose reading raises neither an `OSError` nor a `JSONDecodeError` -/
  | undecodable (error : String)
  | json (value : Json)

/-- `UntrustedEvaluation`, or an exception of another class. -/
inductive ArtifactError where
  | untrusted (reason : String)
  | other (message : String)
  deriving DecidableEq, Repr

def checkPrefixText : String := "Engineering Intelligence / PR Guardian"

/-- Load the artifact, or refuse it with a reason. -/
def trustedObservation (file : ArtifactFile) (resultPath repository headSha : String) :
    Except ArtifactError ShadowObservation :=
  match file with
  | .missing => .error (.untrusted ("no evaluation artifact was found at " ++ resultPath))
  | .unreadable e => .error (.untrusted ("the evaluation artifact could not be read: " ++ e))
  | .undecodable e => .error (.other e)
  | .invalidJson e => .error (.untrusted ("the evaluation artifact could not be parsed: " ++ e))
  | .json (.obj raw) =>
    match validateObservation raw with
    | .error e => .error (.untrusted ("the evaluation artifact did not validate: " ++ e))
    | .ok observation =>
      if observation.subject.repository ≠ repository then
        .error (.untrusted ("the evaluation artifact names a different repository (" ++
          observation.subject.repository ++ ") than this workflow (" ++ repository ++ ")"))
      else if observation.subject.headSha ≠ lower headSha then
        .error (.untrusted
          "the evaluation artifact's head SHA does not match the triggering workflow run")
      else .ok observation
  | .json _ => .error (.untrusted "the evaluation artifact is not a JSON object")

def publishUntrustedEvaluation (repository headSha : String) (prNumber : Option Int)
    (mode : ProductMode) : List Publication :=
  .check ⟨repository, headSha, checkPrefixText ++ " (" ++ mode.value ++ ")", .neutral,
      "PR Guardian could not verify this evaluation"⟩ ::
    match prNumber with
    | some n => [.stickyComment repository n]
    | none => []

/-- `_title`. -/
def title (mode : ProductMode) (assessment : ShadowAssessment) (conclusion : PublishConclusion)
    (reason : String) : String :=
  let risk := toString assessment.score ++ "/100 (" ++ assessment.band ++ ")"
  match conclusion, mode with
  | .failure, _ => "Blocked: risk " ++ risk
  | .neutral, .advisory => "Advisory risk: " ++ risk ++ " — this check does not block merges"
  | .neutral, .enforce => "Enforcing risk: " ++ risk ++ " — not blocked (" ++ reason ++ ")"
  | .neutral, .shadow => "Shadow risk: " ++ risk

/-- The conclusion and the reason shown with it; a configuration that could not be read
cannot authorize a failing check. -/
def publishConclusion (observation : ShadowObservation) (config : RepositoryConfig)
    (environ : Option Environ) (today : Nat) (configError : Option String) :
    PublishConclusion × String :=
  match configError with
  | none =>
    let decision := publishableConclusion observation config environ today
    (decision.conclusion, explain decision.reason)
  | some e => (.neutral, "the repository configuration could not be read: " ++ e)

/-- Publish the check and the sticky comment. -/
def publishObservation (observation : List (String × Json)) (config : RepositoryConfig)
    (repository : String) (environ : Option Environ) (today : Nat) (configError : Option String) :
    Except String (List Publication) := do
  let observation ← validateObservation observation
  if observation.subject.repository ≠ repository then
    .error "observation repository does not match the publisher repository"
  else if config.repository ≠ repository then
    .error "repository configuration does not match the publisher repository"
  else
    let (conclusion, reason) := publishConclusion observation config environ today configError
    .ok [.check ⟨repository, observation.subject.headSha,
          checkPrefixText ++ " (" ++ config.mode.value ++ ")", conclusion,
          title config.mode observation.assessment conclusion reason⟩,
        .stickyComment repository observation.subject.prNumber]

/-- `str(value)`. A container is shown by its JSON text; neither text is a commit id. -/
def pyStr : Json → String
  | .null => "None"
  | .bool b => if b then "True" else "False"
  | .int n => toString n
  | .float r => r
  | .str s => s
  | value => value.dumps

/-- `mapping.get(key, "")` as a text. -/
def textOf (fields : List (String × Json)) (key : String) : String :=
  ((fields.lookup key).map pyStr).getD ""

/-- `_workflow_run`; the event file is its parsed content, or the exception of reading it. -/
def workflowRun (event : Except String Json) : Except String (List (String × Json)) := do
  let payload ← event
  match payload with
  | .obj fields =>
    match Json.get fields "workflow_run" with
    | .obj run => .ok run
    | _ => .error "GitHub workflow_run event is missing workflow_run"
  | _ => .error "GitHub workflow_run event must be an object"

/-- `_pull_request_number`; a bool is an `int` here. -/
def pullRequestNumber (run : List (String × Json)) : Option Int :=
  match Json.get run "pull_requests" with
  | .arr entries => entries.findSome? fun entry =>
      match entry with
      | .obj fields =>
        match Json.get fields "number" with
        | .int n => some n
        | .bool b => some (if b then 1 else 0)
        | _ => none
      | _ => none
  | _ => none

/-- What a publisher run finds in its checkout and workspace. -/
structure PublisherJob where
  event : Except String Json
  configFile : ConfigFile
  artifact : ArtifactFile
  today : Nat

/-- The trigger of a publisher run: repository and head commit. -/
def publisherTrigger (environ : Environ) (job : PublisherJob) :
    Except String (String × String × List (String × Json)) := do
  let token := (environ "GITHUB_TOKEN").getD ""
  let eventPath := (environ "GITHUB_EVENT_PATH").getD ""
  let repository := (environ "GITHUB_REPOSITORY").getD ""
  if token = "" ∨ eventPath = "" ∨ repository = "" then
    .error "GITHUB_TOKEN, GITHUB_EVENT_PATH, and GITHUB_REPOSITORY are required"
  else
    let run ← workflowRun job.event
    if textOf run "event" ≠ "pull_request" then
      .error "PR Guardian publisher accepts only pull_request evaluation workflows"
    else
      let headSha := lower (textOf run "head_sha")
      if headSha = "" then .error "the triggering workflow run did not report a head SHA"
      else .ok (repository, headSha, run)

/-- The path the artifact is read from. -/
def resultPath (environ : Environ) : String :=
  (environ "EIP_PR_GUARDIAN_RESULT_PATH").getD "shadow-input/pr-guardian-shadow-result.json"

/-- `main` of the publisher script. Its call of `publish_observation` passes no `environ`. -/
def publisherMain (environ : Environ) (job : PublisherJob) : PublisherOutcome :=
  match publisherTrigger environ job with
  | .error e => ⟨[], .error e⟩
  | .ok (repository, headSha, run) =>
    match loadEffectiveConfig job.configFile repository job.today with
    | .error e => ⟨[], .error e⟩
    | .ok (config, configError) =>
      match trustedObservation job.artifact (resultPath environ) repository headSha with
      | .error (.untrusted _) =>
        ⟨publishUntrustedEvaluation repository headSha (pullRequestNumber run) config.mode, .ok 1⟩
      | .error (.other e) => ⟨[], .error e⟩
      | .ok observation =>
        match publishObservation observation.asDict config repository none job.today
            configError with
        | .error e => ⟨[], .error e⟩
        | .ok published => ⟨published, .ok 0⟩

def PublisherOutcome.PublishesFailure (o : PublisherOutcome) : Prop :=
  ∃ c, Publication.check c ∈ o.published ∧ c.conclusion = .failure

end EngineeringIntelligence.PrGuardian
