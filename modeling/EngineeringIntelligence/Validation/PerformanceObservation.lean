import EngineeringIntelligence.Framework.UtcInstant
import EngineeringIntelligence.Validation.PerformanceContract

namespace EngineeringIntelligence.Validation.Performance

open EngineeringIntelligence.Framework

/-! An observation of a workflow, and what it is worth against the targets. -/

inductive MetricValue where
  | count (n : Int)
  | number (x : PyFloat)

/-- The metrics of an observation, sorted by name. -/
abbrev Metrics := List (String × MetricValue)

structure PerformanceObservation where
  contractId : String
  scope : String
  change : String
  basis : String
  sourceRunUrl : Option String
  startedAt : PyDateTime
  endedAt : PyDateTime
  sampleCount : Int
  metrics : Metrics
  artifacts : List String
  knownLimitations : String

structure PerformanceAssessment where
  contractId : String
  meetsTarget : Bool
  violations : List String

namespace Metrics

/-- `metrics[name]`. -/
def get (metrics : Metrics) (name : String) : Except PerformanceError MetricValue :=
  match metrics.lookup name with
  | some value => .ok value
  | none => .error (.key name)

/-- `float(value)`. -/
def toFloat : MetricValue → Except PerformanceError PyFloat
  | .number x => .ok x
  | .count n =>
    match PyFloat.ofInt n with
    | some x => .ok x
    | none => .error .overflow

/-- `int(value)`, which drops the fraction of a float. -/
def toInt : MetricValue → Except PerformanceError Int
  | .count n => .ok n
  | .number (.finite q) => .ok (if 0 ≤ q then ⌊q⌋ else ⌈q⌉)
  | .number .nan => .error .value
  | .number _ => .error .overflow

def float (metrics : Metrics) (name : String) : Except PerformanceError PyFloat := metrics.get name >>= toFloat

def int (metrics : Metrics) (name : String) : Except PerformanceError Int := metrics.get name >>= toInt

end Metrics

/-! ### Validation -/

/-- `_parse_timestamp`. -/
def parseTimestamp (value : Json) (context : String) : Except PerformanceError PyDateTime :=
  match value with
  | .str s =>
    if strip s = "" then .error (.contract (context ++ ": must be a non-blank ISO-8601 timestamp"))
    else
      match fromisoformat (spelledZone s) with
      | none => .error (.contract (context ++ ": must be an ISO-8601 timestamp"))
      | some parsed =>
        if parsed.utcoffset.isNone then .error (.contract (context ++ ": timestamp must include a timezone"))
        else .ok parsed
  | _ => .error (.contract (context ++ ": must be a non-blank ISO-8601 timestamp"))

/-- One metric of `_parse_metrics`. -/
def parseMetric (entry : String × Json) : Except PerformanceError (String × MetricValue) := do
  let (name, value) := entry
  let context := "observation.metrics"
  if name ∈ rateMetrics then
    let x ← rateBetween value context name "must be a rate between 0 and 1"
    return (name, .number x)
  else if name ∈ countMetrics then
    match value with
    | .int n =>
      if n < 0 then fieldError context name "must be a non-negative integer" else return (name, .count n)
    | _ => fieldError context name "must be a non-negative integer"
  else
    let x ← nonnegative value context name "must be a non-negative number"
    return (name, .number x)

/-- `_parse_metrics`; a dictionary holds the same before and after it is sorted. -/
def parseMetrics (value : Json) (contract : WorkflowPerformanceContract) : Except PerformanceError Metrics := do
  let context := "observation.metrics"
  let fields ← mapping value context
  checkKeys fields contract.evidence.requiredMetrics knownMetrics context
  let entries ← fields.mapM parseMetric
  let metrics : Metrics := sortedBy (·.1) entries
  let p50 ← metrics.float "p50_latency_ms"
  let p95 ← metrics.float "p95_latency_ms"
  let p99 ← metrics.float "p99_latency_ms"
  let maximum ← metrics.float "max_latency_ms"
  ensure ((p50.le p95 && p95.le p99 && p99.le maximum) = true) (.contract (context ++
    ": require p50_latency_ms <= p95_latency_ms <= p99_latency_ms <= max_latency_ms"))
  return metrics

def observationKeys : List String :=
  ["contract_id", "scope", "change", "basis", "window", "sample_count", "metrics", "artifacts",
    "known_limitations"]

def windowKeys : List String := ["started_at", "ended_at"]

def parseSourceRunUrl (fields : List (String × Json)) (context : String) :
    Except PerformanceError (Option String) :=
  match Json.get fields "source_run_url" with
  | .null => .ok none
  | .str url =>
    if startsWithAny url ["https://"] then .ok (some url)
    else fieldError context "source_run_url" "must be an https URL when present"
  | _ => fieldError context "source_run_url" "must be an https URL when present"

section
variable (repr : String → String)

/-- `validate_performance_observation`. -/
def validatePerformanceObservation (fields : List (String × Json)) (baseline : PerformanceBaseline) :
    Except PerformanceError PerformanceObservation := do
  let context := "observation"
  checkKeys fields observationKeys (observationKeys ++ ["source_run_url"]) context
  let contractId ← text fields "contract_id" context
  let contract ← baseline.contract contractId
  let basis ← textAmong fields "basis" context bases
  let sourceRunUrl ← parseSourceRunUrl fields context
  ensure (basis = "measured" → sourceRunUrl ≠ none)
    (.contract (context ++ ".source_run_url: required when basis is measured"))
  let window ← mapping (Json.get fields "window") (context ++ ".window")
  checkKeys window windowKeys windowKeys (context ++ ".window")
  let startedAt ← parseTimestamp (Json.get window "started_at") (context ++ ".window.started_at")
  let endedAt ← parseTimestamp (Json.get window "ended_at") (context ++ ".window.ended_at")
  ensure (startedAt.instant < endedAt.instant)
    (.contract (context ++ ".window: ended_at must be later than started_at"))
  let artifacts ← stringList repr fields "artifacts" context none
  ensure (∀ artifact ∈ artifacts, startsWithAny artifact ["https://"] = true)
    (.contract (context ++ ".artifacts: entries must be https URLs or retained artifact links"))
  let sampleCount ← integer fields "sample_count" context 1
  let metrics ← parseMetrics (Json.get fields "metrics") contract
  let rejected ← metrics.int "rejected_count"
  ensure (rejected ≤ sampleCount)
    (.contract "observation.metrics.rejected_count: cannot exceed sample_count")
  let scope ← text fields "scope" context
  let change ← text fields "change" context
  let knownLimitations ← text fields "known_limitations" context
  return {
    contractId, scope, change, basis, sourceRunUrl, startedAt, endedAt, sampleCount, metrics, artifacts
    knownLimitations }

end

/-! ### Assessment; `general` is the format `g` of a float -/

namespace PerformanceObservation

variable (observation : PerformanceObservation)

/-- `(ended_at - started_at).total_seconds() / 60`. -/
def windowMinutes : PyFloat :=
  .finite (Binary64.round (Binary64.round
    (((observation.endedAt.instant - observation.startedAt.instant : Int) : Rat) / 1000000) / 60))

/-- `rejected / sample_count`. -/
def rejectedRate (rejected : Int) : PyFloat := .finite (Binary64.round (rejected / observation.sampleCount))

end PerformanceObservation

/-- The message of a check that did not hold. -/
def violation (violated : Bool) (message : String) : List String := if violated then [message] else []

section
variable (general : PyFloat → String)

/-- A metric that is a float against the most it may be. -/
def floatViolation (metrics : Metrics) (name : String) (bound : PyFloat) (limit : String) :
    Except PerformanceError (List String) := do
  let measured ← metrics.float name
  return violation (bound.lt measured) (name ++ " " ++ general measured ++ " > " ++ limit)

/-- A metric that is a count against the most it may be. -/
def countViolation (metrics : Metrics) (name : String) (bound : Int) : Except PerformanceError (List String) := do
  let measured ← metrics.int name
  return violation (bound < measured) (name ++ " " ++ toString measured ++ " > limit " ++ toString bound)

/-- A rate against the least it may be. -/
def rateViolation (metrics : Metrics) (target : String × PyFloat) : Except PerformanceError (List String) := do
  let actual ← metrics.float target.1
  return violation (actual.lt target.2)
    (target.1 ++ " " ++ general actual ++ " < target " ++ general target.2)

/-- A check that is left out when its metric is. -/
def optionalViolation (metrics : Metrics) (name : String) (check : Except PerformanceError (List String)) :
    Except PerformanceError (List String) :=
  if (metrics.lookup name).isSome then check else .ok []

/-- `assess_performance_observation`. -/
def assessPerformanceObservation (observation : PerformanceObservation) (baseline : PerformanceBaseline) :
    Except PerformanceError PerformanceAssessment := do
  let { contractId, targets, load, evidence, .. } ← baseline.contract observation.contractId
  let metrics := observation.metrics
  let windowMinutes := observation.windowMinutes
  let samples := violation (observation.sampleCount < evidence.minimumSamples)
    ("sample_count " ++ toString observation.sampleCount ++ " < required " ++ toString evidence.minimumSamples)
  let window := violation (windowMinutes.lt (.finite evidence.minimumWindowMinutes))
    ("window " ++ general windowMinutes ++ "m < required " ++ toString evidence.minimumWindowMinutes ++ "m")
  let p95 ← floatViolation general metrics "p95_latency_ms" (.finite targets.p95LatencyMs)
    ("target " ++ toString targets.p95LatencyMs)
  let p99 ← floatViolation general metrics "p99_latency_ms" (.finite targets.p99LatencyMs)
    ("target " ++ toString targets.p99LatencyMs)
  let maximum ← floatViolation general metrics "max_latency_ms" (.finite targets.timeoutMs)
    ("timeout " ++ toString targets.timeoutMs)
  let rates ← targets.minimumRates.mapM (rateViolation general metrics)
  let rejected ← metrics.int "rejected_count"
  let rejectedRate := observation.rejectedRate rejected
  let rejections := violation (targets.maximumRejectedRate.lt rejectedRate)
    ("rejected_rate " ++ general rejectedRate ++ " > target " ++ general targets.maximumRejectedRate)
  let inFlight ← countViolation metrics "peak_in_flight" load.maxInFlight
  let queueDepth ← optionalViolation metrics "peak_queue_depth"
    (countViolation metrics "peak_queue_depth" load.maxQueueDepth)
  let queueAge ← optionalViolation metrics "peak_queue_age_seconds"
    (floatViolation general metrics "peak_queue_age_seconds" (.finite load.maxQueueAgeSeconds)
      ("limit " ++ toString load.maxQueueAgeSeconds))
  let unitCost ← floatViolation general metrics "unit_cost_usd" targets.maximumUnitCostUsd
    ("target " ++ general targets.maximumUnitCostUsd)
  let violations := samples ++ window ++ p95 ++ p99 ++ maximum ++ rates.flatten ++ rejections ++ inFlight ++
    queueDepth ++ queueAge ++ unitCost
  return { contractId, meetsTarget := violations = [], violations }

end

end EngineeringIntelligence.Validation.Performance
