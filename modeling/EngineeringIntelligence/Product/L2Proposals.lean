import EngineeringIntelligence.Intelligence.Incidents

namespace EngineeringIntelligence.Product

open EngineeringIntelligence.Framework EngineeringIntelligence.Intelligence

/-! What a human is proposed to do about an incident, or about a deployment that failed. -/

structure DeploymentFailureAnalysis where
  deploymentId : String
  service : String
  facts : List String
  hypotheses : List Hypothesis
  evidenceIds : List String

inductive L1Analysis where
  | incident (analysis : IncidentAnalysis)
  | deploymentFailure (analysis : DeploymentFailureAnalysis)

inductive ProposalKind where
  | runbook
  | correctivePr
  | ticket
  deriving DecidableEq, Repr

/-- A proposed action; `requires_human` is the constant `True`. -/
structure L2Proposal where
  kind : ProposalKind
  title : String
  exactAction : String
  rollbackPath : String
  evidenceRefs : List String
  deriving DecidableEq, Repr

structure AllowListedRunbook where
  runbookId : String
  description : String
  rollbackRunbookId : Option String

inductive FailureClass where
  | crashloop
  | readinessRegression
  | oomkilled
  | deploymentRegression
  deriving DecidableEq, Repr

/-- `ALLOW_LISTED_RUNBOOKS`. -/
def allowListedRunbook : FailureClass → AllowListedRunbook
  | .crashloop =>
    ⟨"aks.restart.crashloop", "Restart a bounded deployment after CrashLoopBackOff evidence", none⟩
  | .readinessRegression =>
    ⟨"aks.rollback.readiness", "Rollback a deployment when readiness regressed after a release",
      some "aks.rollout.redo"⟩
  | .oomkilled =>
    ⟨"aks.restart.oom",
      "Restart a bounded deployment after OOMKilled evidence while preserving resource policy", none⟩
  | .deploymentRegression =>
    ⟨"aks.rollout.undo", "Undo the current Kubernetes deployment rollout", some "aks.rollout.redo"⟩

namespace L1Analysis

def hypotheses : L1Analysis → List Hypothesis
  | incident analysis => analysis.hypotheses
  | deploymentFailure analysis => analysis.hypotheses

/-- `_analysis_timeline`. -/
def timeline : L1Analysis → List EvidenceEvent
  | incident analysis => analysis.timeline
  | deploymentFailure _ => []

/-- `_anchor_deployment_id`. -/
def anchorDeploymentId : L1Analysis → Option String
  | incident _ => none
  | deploymentFailure analysis => if analysis.deploymentId = "" then none else some analysis.deploymentId

/-- `_subject`. -/
def subject (analysis : L1Analysis) : String :=
  match analysis.anchorDeploymentId with
  | some deploymentId => "deployment " ++ deploymentId
  | none => "the incident"

end L1Analysis

/-! ### The corrective pull request -/

/-- `_COMMIT_KEYS`. -/
def commitKeys : List String := ["commit", "commit_sha", "sourceVersion", "source_version"]

/-- `_LAST_GOOD_KEYS`. -/
def lastGoodKeys : List String := ["last_good_commit", "previous_commit", "previousCommit"]

/-- `_attribute`: of a repeated key the last value counts, and an empty value is none. -/
def attributeOf (event : EvidenceEvent) (keys : List String) : Option String :=
  keys.findSome? fun key => (event.attributes.reverse.lookup key).filter (· ≠ "")

def deploymentsOf (timeline : List EvidenceEvent) (service : String) : List EvidenceEvent :=
  sortedBy (·.timestamp) (timeline.filter fun e => e.kind = .deployment && e.service = service)

/-- The place of the deployment that the analysis is about: the anchor's, else the newest one's. -/
def anchorIndex (deployments : List EvidenceEvent) (anchorId : Option String) : Option Nat :=
  match anchorId with
  | some id => deployments.findIdx? (·.id = id)
  | none => if deployments = [] then none else some (deployments.length - 1)

/-- The commits that a revert is about, and the deployments that name them. -/
structure RevertRange where
  current : EvidenceEvent
  currentCommit : String
  lastGoodCommit : String
  lastGoodEvent : Option EvidenceEvent
  deriving DecidableEq

/-- The newest of some deployments with another commit. -/
def precedingCommit (earlier : List EvidenceEvent) (currentCommit : String) : Option (String × EvidenceEvent) :=
  earlier.reverse.findSome? fun candidate =>
    ((attributeOf candidate commitKeys).filter (· ≠ currentCommit)).map fun commit => (commit, candidate)

/-- The range that the evidence names. -/
def revertRange (timeline : List EvidenceEvent) (service : String) (anchorId : Option String) :
    Option RevertRange := do
  let deployments := deploymentsOf timeline service
  let index ← anchorIndex deployments anchorId
  let current ← deployments[index]?
  let currentCommit ← attributeOf current commitKeys
  match attributeOf current lastGoodKeys with
  | some lastGood => some ⟨current, currentCommit, lastGood, none⟩
  | none =>
    let preceding ← precedingCommit (deployments.take index) currentCommit
    some ⟨current, currentCommit, preceding.1, some preceding.2⟩

def RevertRange.evidenceRefs (range : RevertRange) : List String :=
  range.current.id :: range.lastGoodEvent.toList.map (·.id)

def RevertRange.proposal (range : RevertRange) (service environment subject : String) : L2Proposal where
  kind := .correctivePr
  title := "Revert " ++ service ++ " in " ++ environment ++ " to last known-good commit " ++ range.lastGoodCommit
  exactAction :=
    "On the " ++ service ++ " repository default branch run `git revert --no-commit " ++ range.lastGoodCommit ++
      ".." ++ range.currentCommit ++ "`, commit the result on a branch named `revert/" ++ service ++ "-" ++
      String.ofList (range.currentCommit.toList.take 7) ++ "`, and open a pull request that cites " ++ subject ++
      ". Do not merge without service-owner review."
  rollbackPath :=
    "Close the revert pull request without merging. If it was already merged, revert the revert commit and " ++
      "redeploy " ++ range.currentCommit ++ ", which is the release the pipeline already produced."
  evidenceRefs := range.evidenceRefs

/-- `_corrective_pr`. -/
def correctivePr (timeline : List EvidenceEvent) (service environment subject : String)
    (anchorId : Option String) : Option L2Proposal :=
  (revertRange timeline service anchorId).map fun range => range.proposal service environment subject

/-! ### The runbook -/

/-- The specific failure class of a title in lower case. -/
def specificClass (title : String) : Option FailureClass :=
  if hasInfix title "crashloopbackoff" then some .crashloop
  else if hasInfix title "readiness regression" then some .readinessRegression
  else if hasInfix title "oomkilled" || hasInfix title "memory pressure" then some .oomkilled
  else none

def regressionClass (title : String) : Option FailureClass :=
  if hasInfix title "deployment" && (hasInfix title "incident" || hasInfix title "failure") then
    some .deploymentRegression
  else none

/-- `_failure_class`. -/
def failureClass (hypotheses : List Hypothesis) : Option FailureClass :=
  (hypotheses.findSome? fun h => specificClass (lower h.title)).or
    (hypotheses.findSome? fun h => regressionClass (lower h.title))

def AllowListedRunbook.proposal (entry : AllowListedRunbook) (service environment subject : String)
    (evidenceRefs : List String) : L2Proposal where
  kind := .runbook
  title := "Allow-listed runbook `" ++ entry.runbookId ++ "` for " ++ service ++ " in " ++ environment
  exactAction :=
    "A human operator runs allow-listed runbook `" ++ entry.runbookId ++ "` (" ++ entry.description ++
      ") against " ++ service ++ " in " ++ environment ++ ", citing " ++ subject ++
      ". This platform does not run it: the runbook's live preconditions must be confirmed by the operator " ++
      "before execution."
  rollbackPath :=
    match entry.rollbackRunbookId with
    | some rollback => "Run allow-listed runbook `" ++ rollback ++ "` for " ++ service ++ " in " ++ environment ++ "."
    | none =>
      "The runbook is reversible by re-deploying the current revision of " ++ service ++ " in " ++ environment ++
        "; capture `kubectl rollout history` before running it so the prior revision is recoverable."
  evidenceRefs := evidenceRefs

/-- `_runbook`. -/
def runbook (hypotheses : List Hypothesis) (service environment subject : String) : Option L2Proposal :=
  (failureClass hypotheses).map fun selected =>
    let matched := hypotheses.find? fun h => failureClass [h] = some selected
    (allowListedRunbook selected).proposal service environment subject
      ((matched.map (·.evidenceIds)).getD [])

/-! ### All proposals -/

/-- `_ticket`. -/
def ticket (hypotheses : List Hypothesis) (timeline : List EvidenceEvent) (service environment subject : String) :
    L2Proposal where
  kind := .ticket
  title := "Investigate " ++ service ++ " in " ++ environment ++ ": " ++
    ((hypotheses.head?.map (·.title)).getD "no evidence-backed hypothesis was reached")
  exactAction :=
    "Open an investigation ticket for " ++ service ++ " (" ++ environment ++ ") covering " ++ subject ++
      ", attaching the evidence timeline and hypotheses from this analysis. No corrective change and no " ++
      "allow-listed runbook matched the evidence, so none is proposed."
  rollbackPath :=
    "Not applicable: no change is proposed. Close the ticket if the evidence turns out to be a false signal."
  evidenceRefs := (timeline.map (·.id)).reverse.dedup.reverse

/-- `tuple(evidence) or _analysis_timeline(analysis)`. -/
def proposalTimeline (analysis : L1Analysis) (evidence : List EvidenceEvent) : List EvidenceEvent :=
  if evidence = [] then analysis.timeline else evidence

section
variable (analysis : L1Analysis) (service environment : String) (evidence : List EvidenceEvent)

/-- `build_proposals`. -/
def buildProposals : List L2Proposal :=
  let timeline := proposalTimeline analysis evidence
  let proposals :=
    (correctivePr timeline service environment analysis.subject analysis.anchorDeploymentId).toList ++
      (runbook analysis.hypotheses service environment analysis.subject).toList
  if proposals = [] then [ticket analysis.hypotheses timeline service environment analysis.subject] else proposals

variable {analysis service environment evidence} {p : L2Proposal}

theorem kind_correctivePr {timeline : List EvidenceEvent} {subject : String} {anchorId : Option String}
    (h : correctivePr timeline service environment subject anchorId = some p) : p.kind = .correctivePr := by
  obtain ⟨range, -, rfl⟩ := Option.map_eq_some_iff.mp h
  rfl

theorem kind_runbook {hypotheses : List Hypothesis} {subject : String}
    (h : runbook hypotheses service environment subject = some p) : p.kind = .runbook := by
  obtain ⟨c, -, rfl⟩ := Option.map_eq_some_iff.mp h
  rfl

/-- A proposal is the corrective pull request, the runbook, or a ticket in their place. -/
theorem mem_buildProposals : p ∈ buildProposals analysis service environment evidence ↔
    correctivePr (proposalTimeline analysis evidence) service environment analysis.subject
        analysis.anchorDeploymentId = some p ∨
      runbook analysis.hypotheses service environment analysis.subject = some p ∨
      (correctivePr (proposalTimeline analysis evidence) service environment analysis.subject
          analysis.anchorDeploymentId = none ∧
        runbook analysis.hypotheses service environment analysis.subject = none ∧
        p = ticket analysis.hypotheses (proposalTimeline analysis evidence) service environment
          analysis.subject) := by
  rw [buildProposals]
  cases correctivePr (proposalTimeline analysis evidence) service environment analysis.subject
      analysis.anchorDeploymentId with
  | none =>
    cases runbook analysis.hypotheses service environment analysis.subject with
    | none => simp
    | some second => simp [eq_comm (a := p)]
  | some first =>
    cases runbook analysis.hypotheses service environment analysis.subject with
    | none => simp [eq_comm (a := p)]
    | some second => simp [eq_comm (a := p)]

theorem mem_proposals_correctivePr :
    p ∈ buildProposals analysis service environment evidence ∧ p.kind = .correctivePr ↔
      correctivePr (proposalTimeline analysis evidence) service environment analysis.subject
        analysis.anchorDeploymentId = some p := by
  rw [mem_buildProposals]
  constructor
  · rintro ⟨h | h | ⟨-, -, rfl⟩, hkind⟩
    · exact h
    · rw [kind_runbook h] at hkind
      cases hkind
    · cases hkind
  · intro h
    exact ⟨Or.inl h, kind_correctivePr h⟩

theorem mem_proposals_runbook : p ∈ buildProposals analysis service environment evidence ∧ p.kind = .runbook ↔
    runbook analysis.hypotheses service environment analysis.subject = some p := by
  rw [mem_buildProposals]
  constructor
  · rintro ⟨h | h | ⟨-, -, rfl⟩, hkind⟩
    · rw [kind_correctivePr h] at hkind
      cases hkind
    · exact h
    · cases hkind
  · intro h
    exact ⟨Or.inr (Or.inl h), kind_runbook h⟩

end

end EngineeringIntelligence.Product
