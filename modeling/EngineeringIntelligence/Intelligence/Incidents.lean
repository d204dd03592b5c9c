import EngineeringIntelligence.Framework.Sorted
import EngineeringIntelligence.Framework.Text
import Mathlib.Data.Rat.Floor

namespace EngineeringIntelligence.Intelligence

open EngineeringIntelligence.Framework

/-! The analysis of an incident from the evidence about a service. -/

inductive EvidenceKind where
  | alert
  | metric
  | log
  | trace
  | k8sEvent
  | deployment
  | incident
  deriving DecidableEq, Repr

/-- An event; its time is counted in microseconds. -/
structure EvidenceEvent where
  id : String
  kind : EvidenceKind
  service : String
  timestamp : Int
  summary : String
  source : String
  severity : Int := 1
  attributes : List (String × String) := []
  deriving DecidableEq, Repr

/-- A hypothesis; its confidence is a float, known by its exact value. -/
structure Hypothesis where
  title : String
  confidence : Rat
  facts : List String
  inferences : List String
  evidenceIds : List String
  deriving DecidableEq

structure IncidentAnalysis where
  timeline : List EvidenceEvent
  hypotheses : List Hypothesis

/-- A severe event that tells of a failure. -/
def isFailure (e : EvidenceEvent) : Bool :=
  [EvidenceKind.alert, .k8sEvent, .log].contains e.kind && 3 ≤ e.severity

def mentions (e : EvidenceEvent) (markers : List String) : Bool := markers.any (hasInfix (lower e.summary))

def deploymentTitle : String := "Recent deployment is correlated with incident onset"

def crashloopTitle : String := "CrashLoopBackOff is preventing workload recovery"

def readinessTitle : String := "Readiness regression followed the latest deployment"

def oomTitle : String := "OOMKilled or memory pressure is a likely contributing factor"

section
variable (rounded : Rat → Rat)

/-- `min(top, base + step * count)`, by the float that each result is rounded to. -/
def confidenceOf (top base step : Rat) (count : Nat) : Rat :=
  min (rounded top) (rounded (rounded base + rounded (rounded step * count)))

/-- The latest deployment and the first failure since, no more than half an hour later. -/
def deploymentHypothesis (latestDeploy : Option EvidenceEvent) (failures : List EvidenceEvent) : List Hypothesis :=
  match latestDeploy with
  | none => []
  | some deploy =>
    match failures.find? (deploy.timestamp ≤ ·.timestamp) with
    | none => []
    | some failure =>
      let delta := rounded (mkRat (failure.timestamp - deploy.timestamp) 1000000)
      if 0 ≤ delta ∧ delta ≤ 1800 then
        [{ title := deploymentTitle
           confidence := if delta ≤ 600 then rounded (85 / 100) else rounded (70 / 100)
           facts := ["deployment " ++ deploy.id ++ " occurred before failure " ++ failure.id,
             "failure began " ++ toString ⌊delta⌋ ++ " seconds after deployment"]
           inferences := ["the deployment may have introduced the failing condition"]
           evidenceIds := [deploy.id, failure.id] }]
      else []

def crashloopHypothesis (crashloop : List EvidenceEvent) : List Hypothesis :=
  if crashloop = [] then []
  else
    [{ title := crashloopTitle
       confidence := confidenceOf rounded (97 / 100) (82 / 100) (4 / 100) crashloop.length
       facts := (crashloop.take 4).map (·.summary)
       inferences := ["a bounded restart is allowed only if live preflight confirms CrashLoopBackOff"]
       evidenceIds := (crashloop.take 4).map (·.id) }]

def readinessHypothesis (latestDeploy : Option EvidenceEvent) (readiness : List EvidenceEvent) : List Hypothesis :=
  match latestDeploy with
  | none => []
  | some deploy =>
    if readiness.any (deploy.timestamp ≤ ·.timestamp) then
      [{ title := readinessTitle
         confidence := confidenceOf rounded (95 / 100) (80 / 100) (3 / 100) readiness.length
         facts := ("latest deployment=" ++ deploy.id) :: (readiness.take 3).map (·.summary)
         inferences := ["rollback is preferable to blind restart when readiness regressed after release"]
         evidenceIds := deploy.id :: (readiness.take 3).map (·.id) }]
    else []

def oomHypothesis (oom : List EvidenceEvent) : List Hypothesis :=
  if 2 ≤ oom.length then
    [{ title := oomTitle
       confidence := confidenceOf rounded (95 / 100) (55 / 100) (1 / 10) oom.length
       facts := (oom.take 4).map (·.summary)
       inferences := ["memory limits, leaks, or workload growth should be investigated"]
       evidenceIds := (oom.take 4).map (·.id) }]
  else []

/-- `analyze_incident`; `rounded` is the float that a result is rounded to. -/
def analyzeIncident (events : List EvidenceEvent) (service : String) : IncidentAnalysis :=
  let relevant := sortedBy (·.timestamp) (events.filter (·.service = service))
  let latestDeploy := (relevant.filter (·.kind = .deployment)).getLast?
  let hypotheses :=
    deploymentHypothesis rounded latestDeploy (relevant.filter isFailure) ++
      crashloopHypothesis rounded (relevant.filter (mentions · ["crashloop", "back-off restarting"])) ++
      readinessHypothesis rounded latestDeploy
        (relevant.filter (mentions · ["readiness", "unready", "probe failed"])) ++
      oomHypothesis rounded (relevant.filter (mentions · ["oom", "memory"]))
  { timeline := relevant, hypotheses := sortedBy (fun h => -h.confidence) hypotheses }

/-- Every hypothesis has one of four titles. -/
theorem title_of_mem_analyzeIncident {events : List EvidenceEvent} {service : String} {h : Hypothesis}
    (hmem : h ∈ (analyzeIncident rounded events service).hypotheses) :
    h.title ∈ [deploymentTitle, crashloopTitle, readinessTitle, oomTitle] := by
  simp only [analyzeIncident, mem_sortedBy, List.mem_append] at hmem
  simp only [List.mem_cons, List.not_mem_nil, or_false]
  rcases hmem with ((hmem | hmem) | hmem) | hmem
  · left
    unfold deploymentHypothesis at hmem
    split at hmem
    · cases hmem
    · split at hmem
      · cases hmem
      · dsimp only at hmem
        split at hmem
        · rw [List.mem_singleton.mp hmem]
        · cases hmem
  · right; left
    unfold crashloopHypothesis at hmem
    split at hmem
    · cases hmem
    · rw [List.mem_singleton.mp hmem]
  · right; right; left
    unfold readinessHypothesis at hmem
    split at hmem
    · cases hmem
    · split at hmem
      · rw [List.mem_singleton.mp hmem]
      · cases hmem
  · right; right; right
    unfold oomHypothesis at hmem
    split at hmem
    · rw [List.mem_singleton.mp hmem]
    · cases hmem

end

end EngineeringIntelligence.Intelligence
