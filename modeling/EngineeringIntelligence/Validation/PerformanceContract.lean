import EngineeringIntelligence.Framework.Fields
import EngineeringIntelligence.Framework.PyJson
import EngineeringIntelligence.Validation.EvidenceRecords

namespace EngineeringIntelligence.Validation.Performance

open EngineeringIntelligence.Framework

/-! The performance targets of a workflow, and the baseline that holds them. -/

inductive PerformanceError where
  /-- `PerformanceContractError` -/
  | contract (message : String)
  /-- `KeyError` -/
  | key (name : String)
  /-- `ValueError` and `OverflowError` of a number's conversion -/
  | value
  | overflow
  deriving DecidableEq, Repr

def implementationStates : List String := ["reference", "target"]

def autonomyTiers : List String := ["L0", "L1", "L2", "L3", "L4"]

def executionModels : List String := ["asynchronous", "durable", "synchronous"]

def latencyMetrics : List String := ["max_latency_ms", "p50_latency_ms", "p95_latency_ms", "p99_latency_ms"]

def rateMetrics : List String := ["audit_write_success_rate", "success_rate", "verification_success_rate"]

def countMetrics : List String := ["peak_in_flight", "peak_queue_depth", "rejected_count"]

def nonnegativeMetrics : List String := ["peak_queue_age_seconds", "unit_cost_usd"]

def knownMetrics : List String := latencyMetrics ++ rateMetrics ++ countMetrics ++ nonnegativeMetrics

def baseRequiredMetrics : List String :=
  ["max_latency_ms", "p50_latency_ms", "p95_latency_ms", "p99_latency_ms", "peak_in_flight", "rejected_count",
    "success_rate", "unit_cost_usd"]

structure StepBudget where
  name : String
  p95Ms : Int
  p99Ms : Int
  timeoutMs : Int

structure Targets where
  p95LatencyMs : Int
  p99LatencyMs : Int
  timeoutMs : Int
  minimumRates : List (String × PyFloat)
  maximumRejectedRate : PyFloat
  maximumUnitCostUsd : PyFloat

structure LoadBudget where
  sustainedPerMinute : Int
  maxInFlight : Int
  maxQueueDepth : Int
  maxQueueAgeSeconds : Int
  loadShed : String

structure LeaseBudget where
  leaseSeconds : Int
  heartbeatIntervalSeconds : Int
  approvalWaitOutsideLease : Bool

structure EvidenceRequirements where
  minimumSamples : Int
  minimumWindowMinutes : Int
  requiredMetrics : List String

structure WorkflowPerformanceContract where
  contractId : String
  workflow : String
  surface : String
  autonomyTier : String
  implementationState : String
  promotionDecision : String
  executionModel : String
  targets : Targets
  steps : List StepBudget
  load : LoadBudget
  lease : Option LeaseBudget
  evidence : EvidenceRequirements

structure PerformanceBaseline where
  status : String
  contracts : List WorkflowPerformanceContract

def PerformanceBaseline.contract (baseline : PerformanceBaseline) (contractId : String) :
    Except PerformanceError WorkflowPerformanceContract :=
  match baseline.contracts.find? (·.contractId = contractId) with
  | some contract => .ok contract
  | none => .error (.contract ("unknown performance contract: " ++ contractId))

/-! ### Field checks -/

/-- What a field raises. -/
def fieldError {α : Type} (context field message : String) : Except PerformanceError α :=
  .error (.contract (context ++ "." ++ field ++ ": " ++ message))

/-- `_mapping`. -/
def mapping (value : Json) (context : String) : Except PerformanceError (List (String × Json)) :=
  match value with
  | .obj fields => .ok fields
  | _ => .error (.contract (context ++ ": must be a JSON object"))

/-- The keys that are missing and those that are unknown, as one message. -/
def keyProblems (missing unknown : List String) : String :=
  "; ".intercalate ((if missing = [] then [] else ["missing " ++ ", ".intercalate missing]) ++
    if unknown = [] then [] else ["unknown " ++ ", ".intercalate unknown])

/-- `_check_keys`. -/
def checkKeys (fields : List (String × Json)) (required allowed : List String) (context : String) :
    Except PerformanceError Unit :=
  let keys := fields.map (·.1)
  let missing := sortedSet (required.filter (· ∉ keys))
  let unknown := sortedSet (keys.filter (· ∉ allowed))
  ensure (missing = [] ∧ unknown = []) (.contract (context ++ ": " ++ keyProblems missing unknown))

/-- `_text`. -/
def text (fields : List (String × Json)) (field context : String) : Except PerformanceError String :=
  match Json.get fields field with
  | .str s => if strip s = "" then fieldError context field "must be a non-blank string" else .ok (strip s)
  | _ => fieldError context field "must be a non-blank string"

/-- A text that is one of some. -/
def textAmong (fields : List (String × Json)) (field context : String) (allowed : List String) :
    Except PerformanceError String := do
  let value ← text fields field context
  if value ∈ allowed then .ok value
  else fieldError context field ("expected one of " ++ ", ".intercalate allowed)

/-- `_integer`. -/
def integer (fields : List (String × Json)) (field context : String) (minimum : Int) :
    Except PerformanceError Int :=
  match Json.get fields field with
  | .int n =>
    if n < minimum then fieldError context field ("must be an integer >= " ++ toString minimum) else .ok n
  | _ => fieldError context field ("must be an integer >= " ++ toString minimum)

/-- `float(value)` of a number. -/
def floatOf (value : Json) (context field message : String) : Except PerformanceError PyFloat :=
  match value with
  | .int n =>
    match PyFloat.ofInt n with
    | some x => .ok x
    | none => .error .overflow
  | .float r => .ok (PyFloat.ofRepr r)
  | _ => fieldError context field message

/-- A number that is not below zero. -/
def nonnegative (value : Json) (context field message : String) : Except PerformanceError PyFloat := do
  let x ← floatOf value context field message
  if x.lt (.finite 0) then fieldError context field message else .ok x

/-- A number from zero to one. -/
def rateBetween (value : Json) (context field message : String) : Except PerformanceError PyFloat := do
  let x ← floatOf value context field message
  if !((PyFloat.finite 0).le x && x.le (.finite 1)) then fieldError context field message else .ok x

/-- `_number`, whose minimum is always zero. -/
def number (fields : List (String × Json)) (field context : String) : Except PerformanceError PyFloat :=
  nonnegative (Json.get fields field) context field "must be a number >= 0"

/-- `_rate`. -/
def rate (fields : List (String × Json)) (field context : String) : Except PerformanceError PyFloat := do
  let value ← number fields field context
  if (PyFloat.finite 1).lt value then fieldError context field "must be between 0 and 1" else .ok value

/-! ### The baseline; `repr` is Python's of a text -/

section
variable (repr : String → String)

/-- The loop of `_string_list`. -/
def stringItems (context field : String) (allowed : Option (List String)) :
    List Json → List String → Except PerformanceError (List String)
  | [], items => .ok items
  | .str item :: rest, items =>
    let normalized := strip item
    if normalized = "" then fieldError context field "entries must be non-blank strings"
    else if normalized ∈ items then fieldError context field "entries must be unique"
    else if allowed.any (normalized ∉ ·) then
      fieldError context field ("unknown value " ++ repr normalized ++ "; expected one of " ++
        ", ".intercalate (sortedBy id (allowed.getD [])))
    else stringItems context field allowed rest (items ++ [normalized])
  | _ :: _, _ => fieldError context field "entries must be non-blank strings"

/-- `_string_list`. -/
def stringList (fields : List (String × Json)) (field context : String) (allowed : Option (List String)) :
    Except PerformanceError (List String) :=
  match Json.get fields field with
  | .arr (item :: rest) => stringItems repr context field allowed (item :: rest) []
  | _ => fieldError context field "must be a non-empty list"

def stepKeys : List String := ["name", "p95_ms", "p99_ms", "timeout_ms"]

/-- One round of `_parse_steps`, after the steps before it. -/
def parseStep (value : Json) (context : String) (steps : List StepBudget) : Except PerformanceError StepBudget := do
  let fields ← mapping value context
  checkKeys fields stepKeys stepKeys context
  let name ← text fields "name" context
  if name ∈ steps.map (·.name) then fieldError context "name" ("duplicate step " ++ repr name)
  let p95Ms ← integer fields "p95_ms" context 1
  let p99Ms ← integer fields "p99_ms" context 1
  let timeoutMs ← integer fields "timeout_ms" context 1
  ensure (p95Ms ≤ p99Ms ∧ p99Ms < timeoutMs)
    (.contract (context ++ ": require p95_ms <= p99_ms < timeout_ms"))
  return { name, p95Ms, p99Ms, timeoutMs }

/-- `_parse_steps`. -/
def parseSteps (value : Json) (context : String) : Except PerformanceError (List StepBudget) :=
  match value with
  | .arr (item :: rest) => (item :: rest).zipIdx.foldlM (fun steps (raw, index) => do
      let step ← parseStep repr raw (context ++ ".steps[" ++ toString index ++ "]") steps
      return steps ++ [step]) []
  | _ => .error (.contract (context ++ ".steps: must be a non-empty list"))

def targetKeys : List String :=
  ["p95_latency_ms", "p99_latency_ms", "timeout_ms", "minimum_rates", "maximum_rejected_rate",
    "maximum_unit_cost_usd"]

def parseRate (context : String) (entry : String × Json) : Except PerformanceError (String × PyFloat) := do
  if entry.1 ∉ rateMetrics then .error (.contract (context ++ ": unknown rate " ++ repr entry.1))
  let minimum ← rateBetween entry.2 context entry.1 "must be between 0 and 1"
  return (entry.1, minimum)

/-- `_parse_targets`. -/
def parseTargets (value : Json) (context : String) : Except PerformanceError Targets := do
  let context := context ++ ".targets"
  let fields ← mapping value context
  checkKeys fields targetKeys targetKeys context
  let p95LatencyMs ← integer fields "p95_latency_ms" context 1
  let p99LatencyMs ← integer fields "p99_latency_ms" context 1
  let timeoutMs ← integer fields "timeout_ms" context 1
  ensure (p95LatencyMs ≤ p99LatencyMs ∧ p99LatencyMs < timeoutMs)
    (.contract (context ++ ": require p95_latency_ms <= p99_latency_ms < timeout_ms"))
  let rawRates ← mapping (Json.get fields "minimum_rates") (context ++ ".minimum_rates")
  ensure (rawRates ≠ []) (.contract (context ++ ".minimum_rates: must not be empty"))
  let rates ← rawRates.mapM (parseRate repr (context ++ ".minimum_rates"))
  ensure ("success_rate" ∈ rates.map (·.1)) (.contract (context ++ ".minimum_rates: success_rate is required"))
  let maximumRejectedRate ← rate fields "maximum_rejected_rate" context
  let maximumUnitCostUsd ← number fields "maximum_unit_cost_usd" context
  return {
    p95LatencyMs, p99LatencyMs, timeoutMs, maximumRejectedRate, maximumUnitCostUsd
    minimumRates := sortedBy (·.1) rates }

def loadKeys : List String :=
  ["sustained_per_minute", "max_in_flight", "max_queue_depth", "max_queue_age_seconds", "load_shed"]

/-- `_parse_load`. -/
def parseLoad (value : Json) (context : String) : Except PerformanceError LoadBudget := do
  let context := context ++ ".load"
  let fields ← mapping value context
  checkKeys fields loadKeys loadKeys context
  let maxQueueDepth ← integer fields "max_queue_depth" context 0
  let maxQueueAgeSeconds ← integer fields "max_queue_age_seconds" context 0
  ensure (maxQueueDepth = 0 → maxQueueAgeSeconds = 0)
    (.contract (context ++ ": max_queue_age_seconds must be 0 when max_queue_depth is 0"))
  let sustainedPerMinute ← integer fields "sustained_per_minute" context 1
  let maxInFlight ← integer fields "max_in_flight" context 1
  let loadShed ← text fields "load_shed" context
  return { sustainedPerMinute, maxInFlight, maxQueueDepth, maxQueueAgeSeconds, loadShed }

def leaseKeys : List String := ["lease_seconds", "heartbeat_interval_seconds", "approval_wait_outside_lease"]

/-- `_parse_lease`. -/
def parseLease (value : Json) (context : String) (targets : Targets) :
    Except PerformanceError (Option LeaseBudget) :=
  match value with
  | .null => .ok none
  | value => do
    let context := context ++ ".lease"
    let fields ← mapping value context
    checkKeys fields leaseKeys leaseKeys context
    let leaseSeconds ← integer fields "lease_seconds" context 1
    let heartbeatIntervalSeconds ← integer fields "heartbeat_interval_seconds" context 1
    let approvalWaitOutsideLease ← match Json.get fields "approval_wait_outside_lease" with
      | .bool b => .ok b
      | _ => fieldError context "approval_wait_outside_lease" "must be a boolean"
    let activeTimeoutSeconds := (targets.timeoutMs + 999) / 1000
    ensure (heartbeatIntervalSeconds < leaseSeconds)
      (.contract (context ++ ": heartbeat_interval_seconds must be shorter than lease_seconds"))
    ensure (activeTimeoutSeconds + heartbeatIntervalSeconds ≤ leaseSeconds)
      (.contract (context ++ ": lease_seconds must cover timeout_ms plus one heartbeat interval"))
    return some { leaseSeconds, heartbeatIntervalSeconds, approvalWaitOutsideLease }

def evidenceKeys : List String := ["minimum_samples", "minimum_window_minutes", "required_metrics"]

/-- Some metrics are among the required ones. -/
def checkRequired (metrics required : List String) (context message : String) : Except PerformanceError Unit :=
  let missing := sortedSet (metrics.filter (· ∉ required))
  ensure (missing = []) (.contract (context ++ ".required_metrics: " ++ message ++ " " ++ ", ".intercalate missing))

/-- `_parse_evidence`. -/
def parseEvidence (value : Json) (context : String) (load : LoadBudget) (targets : Targets) :
    Except PerformanceError EvidenceRequirements := do
  let context := context ++ ".evidence"
  let fields ← mapping value context
  checkKeys fields evidenceKeys evidenceKeys context
  let requiredMetrics ← stringList repr fields "required_metrics" context (some knownMetrics)
  checkRequired baseRequiredMetrics requiredMetrics context "missing base metrics"
  let queueMetrics := if 0 < load.maxQueueDepth then ["peak_queue_depth", "peak_queue_age_seconds"] else []
  checkRequired queueMetrics requiredMetrics context "queued workflow missing"
  checkRequired (targets.minimumRates.map (·.1)) requiredMetrics context "rate target missing"
  let minimumSamples ← integer fields "minimum_samples" context 1
  let minimumWindowMinutes ← integer fields "minimum_window_minutes" context 1
  return { minimumSamples, minimumWindowMinutes, requiredMetrics }

def contractKeys : List String :=
  ["id", "workflow", "surface", "autonomy_tier", "implementation_state", "promotion_decision", "execution_model",
    "targets", "steps", "load", "lease", "evidence"]

/-- What a tier of its own asks of the execution model and the lease. -/
def checkTier (autonomyTier executionModel context : String) (lease : Option LeaseBudget) :
    Except PerformanceError Unit :=
  if autonomyTier ∈ ["L3", "L4"] then
    match lease with
    | some lease => do
      ensure (executionModel = "durable")
        (.contract (context ++ ": " ++ autonomyTier ++ " requires a durable execution model and lease budget"))
      ensure (lease.approvalWaitOutsideLease = true)
        (.contract (context ++ ".lease: human approval waits must remain outside the active lease"))
    | none =>
      .error (.contract (context ++ ": " ++ autonomyTier ++ " requires a durable execution model and lease budget"))
  else .ok ()

/-- `_parse_contract`. -/
def parseContract (value : Json) (index : Nat) : Except PerformanceError WorkflowPerformanceContract := do
  let context := "contracts[" ++ toString index ++ "]"
  let fields ← mapping value context
  checkKeys fields contractKeys contractKeys context
  let autonomyTier ← textAmong fields "autonomy_tier" context autonomyTiers
  let implementationState ← textAmong fields "implementation_state" context implementationStates
  let promotionDecision ← textAmong fields "promotion_decision" context decisions
  let executionModel ← textAmong fields "execution_model" context executionModels
  let targets ← parseTargets repr (Json.get fields "targets") context
  let steps ← parseSteps repr (Json.get fields "steps") context
  ensure ((steps.map (·.p95Ms)).sum ≤ targets.p95LatencyMs)
    (.contract (context ++ ".steps: p95 sum exceeds end-to-end target"))
  ensure ((steps.map (·.p99Ms)).sum ≤ targets.p99LatencyMs)
    (.contract (context ++ ".steps: p99 sum exceeds end-to-end target"))
  ensure (∀ step ∈ steps, step.timeoutMs ≤ targets.timeoutMs)
    (.contract (context ++ ".steps: a step timeout exceeds the end-to-end timeout"))
  let load ← parseLoad (Json.get fields "load") context
  let lease ← parseLease (Json.get fields "lease") context targets
  checkTier autonomyTier executionModel context lease
  let evidence ← parseEvidence repr (Json.get fields "evidence") context load targets
  let contractId ← text fields "id" context
  let workflow ← text fields "workflow" context
  let surface ← text fields "surface" context
  return {
    contractId, workflow, surface, autonomyTier, implementationState, promotionDecision, executionModel, targets
    steps, load, lease, evidence }

def baselineKeys : List String := ["schema_version", "status", "contracts"]

/-- `load_performance_baseline`, from the data in the file. -/
def loadPerformanceBaseline (payload : Json) : Except PerformanceError PerformanceBaseline := do
  let context := "performance baseline"
  let fields ← mapping payload context
  checkKeys fields baselineKeys baselineKeys context
  let version ← integer fields "schema_version" context 1
  ensure (version = 1)
    (.contract (context ++ ".schema_version: expected 1, got " ++ toString version))
  let status ← text fields "status" context
  ensure (status = "target") (.contract (context ++ ".status: must be 'target'"))
  match Json.get fields "contracts" with
  | .arr (item :: rest) => do
    let contracts ← (item :: rest).zipIdx.mapM fun (raw, index) => parseContract repr raw index
    ensure ((contracts.map (·.contractId)).Nodup) (.contract (context ++ ".contracts: ids must be unique"))
    return { status, contracts }
  | _ => fieldError context "contracts" "must be a non-empty list"

end

end EngineeringIntelligence.Validation.Performance
