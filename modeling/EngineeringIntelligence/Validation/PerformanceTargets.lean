import EngineeringIntelligence.Validation.PerformanceObservation

namespace EngineeringIntelligence.Validation.Performance

open EngineeringIntelligence.Framework

/-! When an observation that was accepted meets its targets. -/

/-- The pairs of numbers of which the targets want the first to be no more than the second. -/
inductive Bound (contract : WorkflowPerformanceContract) (observation : PerformanceObservation) :
    PyFloat → PyFloat → Prop
  | samples : Bound contract observation (.finite contract.evidence.minimumSamples) (.finite observation.sampleCount)
  | window : Bound contract observation (.finite contract.evidence.minimumWindowMinutes) observation.windowMinutes
  | p95 {x : PyFloat} (h : observation.metrics.float "p95_latency_ms" = .ok x) :
    Bound contract observation x (.finite contract.targets.p95LatencyMs)
  | p99 {x : PyFloat} (h : observation.metrics.float "p99_latency_ms" = .ok x) :
    Bound contract observation x (.finite contract.targets.p99LatencyMs)
  | maximum {x : PyFloat} (h : observation.metrics.float "max_latency_ms" = .ok x) :
    Bound contract observation x (.finite contract.targets.timeoutMs)
  | rate {name : String} {minimum x : PyFloat} (hmem : (name, minimum) ∈ contract.targets.minimumRates)
    (h : observation.metrics.float name = .ok x) : Bound contract observation minimum x
  | rejected {n : Int} (h : observation.metrics.int "rejected_count" = .ok n) :
    Bound contract observation (observation.rejectedRate n) contract.targets.maximumRejectedRate
  | inFlight {n : Int} (h : observation.metrics.int "peak_in_flight" = .ok n) :
    Bound contract observation (.finite n) (.finite contract.load.maxInFlight)
  | queueDepth {n : Int} (h : observation.metrics.int "peak_queue_depth" = .ok n) :
    Bound contract observation (.finite n) (.finite contract.load.maxQueueDepth)
  | queueAge {x : PyFloat} (h : observation.metrics.float "peak_queue_age_seconds" = .ok x) :
    Bound contract observation x (.finite contract.load.maxQueueAgeSeconds)
  | unitCost {x : PyFloat} (h : observation.metrics.float "unit_cost_usd" = .ok x) :
    Bound contract observation x contract.targets.maximumUnitCostUsd

/-- A value that is not a number stands where no check refuses one. -/
def Unordered (contract : WorkflowPerformanceContract) (observation : PerformanceObservation) : Prop :=
  contract.targets.maximumRejectedRate = .nan ∨ contract.targets.maximumUnitCostUsd = .nan ∨
    observation.metrics.float "peak_queue_age_seconds" = .ok .nan ∨
      observation.metrics.float "unit_cost_usd" = .ok .nan

/-- The metrics that the assessment reads, and where they are known to be numbers. -/
structure Readable (contract : WorkflowPerformanceContract) (metrics : Metrics) : Prop where
  p95 : ∃ x, metrics.float "p95_latency_ms" = .ok x ∧ x ≠ .nan
  p99 : ∃ x, metrics.float "p99_latency_ms" = .ok x ∧ x ≠ .nan
  maximum : ∃ x, metrics.float "max_latency_ms" = .ok x ∧ x ≠ .nan
  rates : ∀ target ∈ contract.targets.minimumRates,
    target.2 ≠ .nan ∧ ∃ x, metrics.float target.1 = .ok x ∧ x ≠ .nan
  rejected : ∃ n, metrics.int "rejected_count" = .ok n
  inFlight : ∃ n, metrics.int "peak_in_flight" = .ok n
  queueDepth : (metrics.lookup "peak_queue_depth").isSome = true → ∃ n, metrics.int "peak_queue_depth" = .ok n
  queueAge : (metrics.lookup "peak_queue_age_seconds").isSome = true →
    ∃ x, metrics.float "peak_queue_age_seconds" = .ok x
  unitCost : ∃ x, metrics.float "unit_cost_usd" = .ok x

/-! ### Assessment -/

@[simp] theorem violation_eq_nil {violated : Bool} {message : String} :
    violation violated message = [] ↔ violated = false := by
  cases violated <;> simp [violation]

theorem isSome_of_get {metrics : Metrics} {name : String} {α : Type} {f : MetricValue → Except PerformanceError α}
    {a : α} (h : (metrics.get name >>= f) = .ok a) : (metrics.lookup name).isSome = true := by
  obtain ⟨value, hvalue, -⟩ := bind_eq_ok_iff.mp h
  rw [Metrics.get] at hvalue
  split at hvalue
  · next hlookup =>
    rw [hlookup]
    rfl
  · cases hvalue

@[simp] theorem finite_lt {m n : Int} : (PyFloat.finite m).lt (.finite n) = decide (m < n) := by
  simp only [PyFloat.lt, Int.cast_lt]

section
variable (general : PyFloat → String) {metrics : Metrics}

theorem floatViolation_ok {name : String} {x : PyFloat} (h : metrics.float name = .ok x) (bound : PyFloat)
    (limit : String) : ∃ v, floatViolation general metrics name bound limit = .ok v ∧
      (v = [] ↔ ∀ x, metrics.float name = .ok x → bound.lt x = false) := by
  refine ⟨violation (bound.lt x) (name ++ " " ++ general x ++ " > " ++ limit), ?_, ?_⟩
  · rw [floatViolation, h]
    rfl
  · simp [h]

theorem countViolation_ok {name : String} {n : Int} (h : metrics.int name = .ok n) (bound : Int) :
    ∃ v, countViolation metrics name bound = .ok v ∧
      (v = [] ↔ ∀ n, metrics.int name = .ok n → (PyFloat.finite bound).lt (.finite n) = false) := by
  refine ⟨violation (bound < n) (name ++ " " ++ toString n ++ " > limit " ++ toString bound), ?_, ?_⟩
  · rw [countViolation, h]
    rfl
  · simp [h]

theorem optionalViolation_ok {α : Type} {name : String} {f : MetricValue → Except PerformanceError α}
    {check : Except PerformanceError (List String)} {P : α → Prop}
    (h : (metrics.lookup name).isSome = true →
      ∃ v, check = .ok v ∧ (v = [] ↔ ∀ a, (metrics.get name >>= f) = .ok a → P a)) :
    ∃ v, optionalViolation metrics name check = .ok v ∧
      (v = [] ↔ ∀ a, (metrics.get name >>= f) = .ok a → P a) := by
  rw [optionalViolation]
  by_cases hname : (metrics.lookup name).isSome = true
  · rw [if_pos hname]
    exact h hname
  · rw [if_neg hname]
    exact ⟨[], rfl, iff_of_true rfl fun a ha => absurd (isSome_of_get ha) hname⟩

theorem rateViolations_ok {rates : List (String × PyFloat)}
    (h : ∀ target ∈ rates, ∃ x, metrics.float target.1 = .ok x) :
    ∃ vs, rates.mapM (rateViolation general metrics) = .ok vs ∧
      (vs.flatten = [] ↔ ∀ target ∈ rates, ∀ x, metrics.float target.1 = .ok x → x.lt target.2 = false) := by
  induction rates with
  | nil => exact ⟨[], rfl, by simp⟩
  | cons target rates ih =>
    obtain ⟨x, hx⟩ := h target List.mem_cons_self
    obtain ⟨vs, hvs, hiff⟩ := ih fun target hmem => h target (List.mem_cons_of_mem _ hmem)
    refine ⟨violation (x.lt target.2)
      (target.1 ++ " " ++ general x ++ " < target " ++ general target.2) :: vs, ?_, ?_⟩
    · rw [List.mapM_cons, rateViolation, hx, hvs]
      rfl
    · rw [List.flatten_cons, List.append_eq_nil_iff, hiff, violation_eq_nil, List.forall_mem_cons]
      simp [hx]

end

/-- An assessment finds a violation for each bound that is exceeded, and for no other. -/
theorem assess_ok (general : PyFloat → String) {contract : WorkflowPerformanceContract}
    {observation : PerformanceObservation} {baseline : PerformanceBaseline}
    (hcontract : baseline.contract observation.contractId = .ok contract)
    (h : Readable contract observation.metrics) :
    ∃ r, assessPerformanceObservation general observation baseline = .ok r ∧
      (r.meetsTarget = true ↔ ∀ a b, Bound contract observation a b → b.lt a = false) := by
  obtain ⟨p95, hp95, -⟩ := h.p95
  obtain ⟨p99, hp99, -⟩ := h.p99
  obtain ⟨maximum, hmaximum, -⟩ := h.maximum
  obtain ⟨rejected, hrejected⟩ := h.rejected
  obtain ⟨inFlight, hinFlight⟩ := h.inFlight
  obtain ⟨unitCost, hunitCost⟩ := h.unitCost
  obtain ⟨v95, h95, hiff95⟩ := floatViolation_ok general hp95 (.finite contract.targets.p95LatencyMs)
    ("target " ++ toString contract.targets.p95LatencyMs)
  obtain ⟨v99, h99, hiff99⟩ := floatViolation_ok general hp99 (.finite contract.targets.p99LatencyMs)
    ("target " ++ toString contract.targets.p99LatencyMs)
  obtain ⟨vMaximum, hvMaximum, hiffMaximum⟩ := floatViolation_ok general hmaximum
    (.finite contract.targets.timeoutMs) ("timeout " ++ toString contract.targets.timeoutMs)
  obtain ⟨vRates, hvRates, hiffRates⟩ := rateViolations_ok general fun target hmem =>
    let ⟨_, x, hx, _⟩ := h.rates target hmem
    ⟨x, hx⟩
  obtain ⟨vInFlight, hvInFlight, hiffInFlight⟩ := countViolation_ok hinFlight contract.load.maxInFlight
  obtain ⟨vDepth, hvDepth, hiffDepth⟩ := optionalViolation_ok (f := Metrics.toInt)
    (P := fun n => (PyFloat.finite contract.load.maxQueueDepth).lt (.finite n) = false) fun hname =>
      let ⟨_, hn⟩ := h.queueDepth hname
      countViolation_ok hn contract.load.maxQueueDepth
  obtain ⟨vAge, hvAge, hiffAge⟩ := optionalViolation_ok (f := Metrics.toFloat)
    (P := fun x => (PyFloat.finite contract.load.maxQueueAgeSeconds).lt x = false) fun hname =>
      let ⟨_, hx⟩ := h.queueAge hname
      floatViolation_ok general hx (.finite contract.load.maxQueueAgeSeconds)
        ("limit " ++ toString contract.load.maxQueueAgeSeconds)
  obtain ⟨vCost, hvCost, hiffCost⟩ := floatViolation_ok general hunitCost contract.targets.maximumUnitCostUsd
    ("target " ++ general contract.targets.maximumUnitCostUsd)
  rw [assessPerformanceObservation, hcontract]
  simp only [ok_bind, h95, h99, hvMaximum, hvRates, hrejected, hvInFlight, hvDepth, hvAge, hvCost]
  refine ⟨_, rfl, ?_⟩
  simp only [decide_eq_true_eq, List.append_eq_nil_iff, violation_eq_nil, hiff95, hiff99, hiffMaximum, hiffRates,
    hiffInFlight, hiffDepth, hiffAge, hiffCost]
  constructor
  · rintro ⟨⟨⟨⟨⟨⟨⟨⟨⟨⟨hsamples, hwindow⟩, h95⟩, h99⟩, hmaximum⟩, hrates⟩, hrejections⟩, hinFlight⟩, hdepth⟩,
      hage⟩, hcost⟩ a b hbound
    cases hbound with
    | samples => simpa using hsamples
    | window => exact hwindow
    | p95 hx => exact h95 _ hx
    | p99 hx => exact h99 _ hx
    | maximum hx => exact hmaximum _ hx
    | rate hmem hx => exact hrates _ hmem _ hx
    | rejected hn =>
      rw [hrejected] at hn
      cases hn
      exact hrejections
    | inFlight hn => exact hinFlight _ hn
    | queueDepth hn => exact hdepth _ hn
    | queueAge hx => exact hage _ hx
    | unitCost hx => exact hcost _ hx
  · intro hall
    refine ⟨⟨⟨⟨⟨⟨⟨⟨⟨⟨?_, hall _ _ .window⟩, fun x hx => hall _ _ (.p95 hx)⟩, fun x hx => hall _ _ (.p99 hx)⟩,
      fun x hx => hall _ _ (.maximum hx)⟩, fun target hmem x hx => hall _ _ (.rate hmem hx)⟩,
      hall _ _ (.rejected hrejected)⟩, fun n hn => hall _ _ (.inFlight hn)⟩,
      fun n hn => hall _ _ (.queueDepth hn)⟩, fun x hx => hall _ _ (.queueAge hx)⟩,
      fun x hx => hall _ _ (.unitCost hx)⟩
    simpa using hall _ _ .samples

/-! ### What was accepted -/

theorem mem_of_checkKeys {fields : List (String × Json)} {required allowed : List String} {context : String}
    {u : Unit} (h : checkKeys fields required allowed context = .ok u) :
    ∀ name ∈ required, name ∈ fields.map (·.1) := by
  rw [checkKeys, ensure_eq_ok] at h
  intro name hname
  by_contra hnot
  have hmem : name ∈ required.filter (· ∉ fields.map (·.1)) := List.mem_filter.mpr ⟨hname, decide_eq_true hnot⟩
  have hmissing := mem_sortedSet.mpr hmem
  rw [h.1] at hmissing
  exact List.not_mem_nil hmissing

theorem mem_of_checkRequired {metrics required : List String} {context message : String} {u : Unit}
    (h : checkRequired metrics required context message = .ok u) : ∀ name ∈ metrics, name ∈ required := by
  rw [checkRequired, ensure_eq_ok] at h
  intro name hname
  by_contra hnot
  have hmem : name ∈ metrics.filter (· ∉ required) := List.mem_filter.mpr ⟨hname, decide_eq_true hnot⟩
  have hmissing := mem_sortedSet.mpr hmem
  rw [h] at hmissing
  exact List.not_mem_nil hmissing

theorem ne_nan_of_rateBetween {value : Json} {context field message : String} {x : PyFloat}
    (h : rateBetween value context field message = .ok x) : x ≠ .nan := by
  obtain ⟨y, -, h⟩ := bind_eq_ok_iff.mp h
  split at h
  · cases h
  · next hbetween =>
    cases h
    rintro rfl
    exact hbetween rfl

theorem parseTargets_rates {repr : String → String} {value : Json} {context : String} {targets : Targets}
    (h : parseTargets repr value context = .ok targets) :
    ∀ target ∈ targets.minimumRates, target.1 ∈ rateMetrics ∧ target.2 ≠ .nan := by
  simp only [parseTargets, bind_eq_ok_iff] at h
  obtain ⟨fields, -, -, -, p95, -, p99, -, timeout, -, -, -, raw, -, -, -, rates, hrates, -, -, rejected, -, cost, -,
    htargets⟩ := h
  cases htargets
  intro target hmem
  obtain ⟨entry, -, hentry⟩ := (mapM_ok_mem hrates target).mp (mem_sortedBy.mp hmem)
  rw [parseRate] at hentry
  split at hentry
  · cases hentry
  · next hname =>
    obtain ⟨x, hx, heq⟩ := bind_eq_ok_iff.mp hentry
    cases heq
    exact ⟨not_not.mp hname, ne_nan_of_rateBetween hx⟩

theorem parseEvidence_metrics {repr : String → String} {value : Json} {context : String} {load : LoadBudget}
    {targets : Targets} {evidence : EvidenceRequirements}
    (h : parseEvidence repr value context load targets = .ok evidence) :
    (∀ name ∈ baseRequiredMetrics, name ∈ evidence.requiredMetrics) ∧
      ∀ target ∈ targets.minimumRates, target.1 ∈ evidence.requiredMetrics := by
  simp only [parseEvidence, bind_eq_ok_iff] at h
  obtain ⟨fields, -, -, -, metrics, -, u, hbase, -, -, v, hrates, samples, -, window, -, hevidence⟩ := h
  cases hevidence
  exact ⟨mem_of_checkRequired hbase, fun target hmem =>
    mem_of_checkRequired hrates _ (List.mem_map_of_mem hmem)⟩

/-- What the parser promises of a contract that the assessment relies on. -/
structure Promised (contract : WorkflowPerformanceContract) : Prop where
  rates : ∀ target ∈ contract.targets.minimumRates, target.1 ∈ rateMetrics ∧ target.2 ≠ .nan
  base : ∀ name ∈ baseRequiredMetrics, name ∈ contract.evidence.requiredMetrics
  required : ∀ target ∈ contract.targets.minimumRates, target.1 ∈ contract.evidence.requiredMetrics

theorem promised_of_parseContract {repr : String → String} {value : Json} {index : Nat}
    {contract : WorkflowPerformanceContract} (h : parseContract repr value index = .ok contract) :
    Promised contract := by
  simp only [parseContract, bind_eq_ok_iff] at h
  obtain ⟨fields, -, -, -, tier, -, state, -, decision, -, model, -, targets, htargets, steps, -, -, -, -, -, -, -,
    load, -, lease, -, -, -, evidence, hevidence, id, -, workflow, -, surface, -, hcontract⟩ := h
  cases hcontract
  obtain ⟨hbase, hrates⟩ := parseEvidence_metrics hevidence
  exact ⟨parseTargets_rates htargets, hbase, hrates⟩

theorem promised_of_load {repr : String → String} {payload : Json} {baseline : PerformanceBaseline}
    (h : loadPerformanceBaseline repr payload = .ok baseline) {contractId : String}
    {contract : WorkflowPerformanceContract} (hcontract : baseline.contract contractId = .ok contract) :
    Promised contract := by
  have hmem : contract ∈ baseline.contracts := by
    rw [PerformanceBaseline.contract] at hcontract
    split at hcontract
    · next hfind =>
      cases hcontract
      exact List.mem_of_find?_eq_some hfind
    · cases hcontract
  simp only [loadPerformanceBaseline, bind_eq_ok_iff] at h
  obtain ⟨fields, -, -, -, version, -, -, -, status, -, -, -, h⟩ := h
  split at h
  · simp only [bind_eq_ok_iff] at h
    obtain ⟨contracts, hcontracts, -, -, hbaseline⟩ := h
    cases hbaseline
    obtain ⟨entry, -, hentry⟩ := (mapM_ok_mem hcontracts contract).mp hmem
    exact promised_of_parseContract hentry
  · cases h

/-- A metric is a count or a number as its name says, and a rate is not NaN. -/
structure Fits (name : String) (value : MetricValue) : Prop where
  count : name ∈ countMetrics → ∃ n, value = .count n
  number : name ∉ countMetrics → ∃ x, value = .number x ∧ (name ∈ rateMetrics → x ≠ .nan)

theorem fits_of_parseMetric {entry : String × Json} {metric : String × MetricValue}
    (h : parseMetric entry = .ok metric) : metric.1 = entry.1 ∧ Fits metric.1 metric.2 := by
  obtain ⟨name, value⟩ := entry
  have hdisjoint : ∀ name ∈ rateMetrics, name ∉ countMetrics := by decide
  simp only [parseMetric] at h
  split at h
  · next hrate =>
    obtain ⟨x, hx, heq⟩ := bind_eq_ok_iff.mp h
    cases heq
    exact ⟨rfl, fun hcount => absurd hcount (hdisjoint name hrate), fun _ =>
      ⟨x, rfl, fun _ => ne_nan_of_rateBetween hx⟩⟩
  · next hrate =>
    split at h
    · next hcount =>
      split at h
      · split at h
        · cases h
        · cases h
          exact ⟨rfl, fun _ => ⟨_, rfl⟩, fun hnot => absurd hcount hnot⟩
      · cases h
    · next hcount =>
      obtain ⟨x, hx, heq⟩ := bind_eq_ok_iff.mp h
      cases heq
      exact ⟨rfl, fun hmem => absurd hmem hcount, fun _ => ⟨x, rfl, fun hmem => absurd hmem hrate⟩⟩

/-- The metrics that were parsed: each fits its name, the required ones are there, and the latencies are ordered. -/
theorem metrics_of_parse {value : Json} {contract : WorkflowPerformanceContract} {metrics : Metrics}
    (h : parseMetrics value contract = .ok metrics) :
    (∀ name v, metrics.lookup name = some v → Fits name v) ∧
      (∀ name ∈ contract.evidence.requiredMetrics, ∃ v, metrics.lookup name = some v) ∧
      ∃ p50 p95 p99 maximum : PyFloat, metrics.float "p95_latency_ms" = .ok p95 ∧
        metrics.float "p99_latency_ms" = .ok p99 ∧ metrics.float "max_latency_ms" = .ok maximum ∧
          (p50.le p95 && p95.le p99 && p99.le maximum) = true := by
  simp only [parseMetrics, bind_eq_ok_iff, ensure_eq_ok] at h
  obtain ⟨fields, -, u, hkeys, entries, hentries, p50, -, p95, hp95, p99, hp99, maximum, hmaximum, -, horder,
    heq⟩ := h
  cases heq
  refine ⟨?_, ?_, p50, p95, p99, maximum, hp95, hp99, hmaximum, horder⟩
  · intro name v hlookup
    obtain ⟨before, after, heq, -⟩ := List.lookup_eq_some_iff.mp hlookup
    have hmem : (name, v) ∈ entries := by
      rw [← mem_sortedBy (f := Prod.fst), heq]
      exact List.mem_append_right _ List.mem_cons_self
    obtain ⟨entry, -, hentry⟩ := (mapM_ok_mem hentries (name, v)).mp hmem
    exact (fits_of_parseMetric hentry).2
  · intro name hname
    obtain ⟨field, hfield, rfl⟩ := List.mem_map.mp (mem_of_checkKeys hkeys name hname)
    obtain ⟨metric, hmetric⟩ := isOk_iff.mp (mapM_isOk_iff.mp (isOk_iff.mpr ⟨_, hentries⟩) field hfield)
    have hmem := (mapM_ok_mem hentries metric).mpr ⟨field, hfield, hmetric⟩
    rw [← Option.isSome_iff_exists, List.lookup_isSome_iff]
    refine ⟨metric, mem_sortedBy.mpr hmem, ?_⟩
    rw [(fits_of_parseMetric hmetric).1, beq_self_eq_true]

theorem readable_of_metrics {contract : WorkflowPerformanceContract} {value : Json} {metrics : Metrics}
    (hpromised : Promised contract) (h : parseMetrics value contract = .ok metrics) : Readable contract metrics := by
  obtain ⟨hfits, hpresent, p50, p95, p99, maximum, hp95, hp99, hmaximum, horder⟩ := metrics_of_parse h
  rw [Bool.and_eq_true, Bool.and_eq_true] at horder
  obtain ⟨⟨hfirst, hsecond⟩, hthird⟩ := horder
  have hcount (name : String) (hname : name ∈ countMetrics) (hsome : ∃ v, metrics.lookup name = some v) :
      ∃ n, metrics.int name = .ok n := by
    obtain ⟨v, hv⟩ := hsome
    obtain ⟨n, rfl⟩ := (hfits name v hv).count hname
    refine ⟨n, ?_⟩
    rw [Metrics.int, Metrics.get, hv]
    rfl
  have hnumber (name : String) (hname : name ∉ countMetrics) (hsome : ∃ v, metrics.lookup name = some v) :
      ∃ x, metrics.float name = .ok x ∧ (name ∈ rateMetrics → x ≠ .nan) := by
    obtain ⟨v, hv⟩ := hsome
    obtain ⟨x, rfl, hrate⟩ := (hfits name v hv).number hname
    refine ⟨x, ?_, hrate⟩
    rw [Metrics.float, Metrics.get, hv]
    rfl
  refine ⟨⟨p95, hp95, (PyFloat.ne_nan_of_le hfirst).2⟩, ⟨p99, hp99, (PyFloat.ne_nan_of_le hsecond).2⟩,
    ⟨maximum, hmaximum, (PyFloat.ne_nan_of_le hthird).2⟩, ?_, ?_, ?_, ?_, ?_, ?_⟩
  · intro target hmem
    obtain ⟨hname, hminimum⟩ := hpromised.rates target hmem
    have hdisjoint : ∀ name ∈ rateMetrics, name ∉ countMetrics := by decide
    obtain ⟨x, hx, hrate⟩ := hnumber target.1 (hdisjoint _ hname) (hpresent _ (hpromised.required target hmem))
    exact ⟨hminimum, x, hx, hrate hname⟩
  · exact hcount _ (by decide) (hpresent _ (hpromised.base _ (by decide)))
  · exact hcount _ (by decide) (hpresent _ (hpromised.base _ (by decide)))
  · intro hname
    exact hcount _ (by decide) (Option.isSome_iff_exists.mp hname)
  · intro hname
    obtain ⟨x, hx, -⟩ := hnumber _ (by decide) (Option.isSome_iff_exists.mp hname)
    exact ⟨x, hx⟩
  · obtain ⟨x, hx, -⟩ := hnumber "unit_cost_usd" (by decide) (hpresent _ (hpromised.base _ (by decide)))
    exact ⟨x, hx⟩

/-- An observation that was accepted is of a contract of the baseline, with metrics the assessment can read. -/
theorem readable_of_validate {repr : String → String} {payload : Json} {baseline : PerformanceBaseline}
    (hbaseline : loadPerformanceBaseline repr payload = .ok baseline) {fields : List (String × Json)}
    {observation : PerformanceObservation}
    (h : validatePerformanceObservation repr fields baseline = .ok observation) :
    ∃ contract, baseline.contract observation.contractId = .ok contract ∧ Readable contract observation.metrics := by
  simp only [validatePerformanceObservation, bind_eq_ok_iff] at h
  obtain ⟨-, -, contractId, -, contract, hcontract, basis, -, url, -, -, -, window, -, -, -, startedAt, -, endedAt,
    -, -, -, artifacts, -, -, -, sampleCount, -, metrics, hmetrics, rejected, -, -, -, scope, -, change, -, known, -,
    hobservation⟩ := h
  cases hobservation
  exact ⟨contract, hcontract, readable_of_metrics (promised_of_load hbaseline hcontract) hmetrics⟩

/-! ### The verdict -/

/-- The verdict is that the targets are met. -/
def MeetsTarget (general : PyFloat → String) (observation : PerformanceObservation) (baseline : PerformanceBaseline) :
    Prop :=
  ∃ r, assessPerformanceObservation general observation baseline = .ok r ∧ r.meetsTarget = true

/-- Both sides of a bound are numbers, but where a NaN can stand. -/
theorem Bound.ne_nan {contract : WorkflowPerformanceContract} {observation : PerformanceObservation} {a b : PyFloat}
    (hbound : Bound contract observation a b) (hread : Readable contract observation.metrics)
    (hordered : ¬Unordered contract observation) : a ≠ .nan ∧ b ≠ .nan := by
  simp only [Unordered, not_or] at hordered
  obtain ⟨hrejected, hcost, hage, hunit⟩ := hordered
  have hsame {name : String} {x : PyFloat} (hx : observation.metrics.float name = .ok x)
      (h : ∃ x, observation.metrics.float name = .ok x ∧ x ≠ .nan) : x ≠ .nan := by
    obtain ⟨y, hy, hne⟩ := h
    rw [hx] at hy
    cases hy
    exact hne
  cases hbound with
  | samples | window | inFlight _ | queueDepth _ => exact ⟨nofun, nofun⟩
  | p95 hx => exact ⟨hsame hx hread.p95, nofun⟩
  | p99 hx => exact ⟨hsame hx hread.p99, nofun⟩
  | maximum hx => exact ⟨hsame hx hread.maximum, nofun⟩
  | rate hmem hx => exact ⟨(hread.rates _ hmem).1, hsame hx (hread.rates _ hmem).2⟩
  | rejected _ => exact ⟨nofun, hrejected⟩
  | queueAge hx => exact ⟨fun hnan => hage (hnan ▸ hx), nofun⟩
  | unitCost hx => exact ⟨fun hnan => hunit (hnan ▸ hx), hcost⟩

/-- A NaN that no check refuses stands at one side of a bound. -/
theorem exists_bound_of_unordered {contract : WorkflowPerformanceContract} {observation : PerformanceObservation}
    (hread : Readable contract observation.metrics) (h : Unordered contract observation) :
    ∃ a b, Bound contract observation a b ∧ a.le b = false := by
  obtain ⟨n, hn⟩ := hread.rejected
  obtain ⟨x, hx⟩ := hread.unitCost
  have hleft (b : PyFloat) : PyFloat.nan.le b = false := by cases b <;> rfl
  have hright (a : PyFloat) : a.le .nan = false := by cases a <;> rfl
  rcases h with hnan | hnan | hnan | hnan
  · exact ⟨_, _, .rejected hn, by rw [hnan, hright]⟩
  · exact ⟨_, _, .unitCost hx, by rw [hnan, hright]⟩
  · exact ⟨_, _, .queueAge hnan, hleft _⟩
  · exact ⟨_, _, .unitCost hnan, hleft _⟩

/-- An accepted observation is said to meet its targets just when every bound holds, if no NaN stands in the queue
age, the unit cost or the most that is allowed of rejections and cost, or if some bound is exceeded; and only then. -/
theorem meetsTarget_iff (repr : String → String) (general : PyFloat → String) {payload : Json}
    {baseline : PerformanceBaseline} (hbaseline : loadPerformanceBaseline repr payload = .ok baseline)
    {fields : List (String × Json)} {observation : PerformanceObservation}
    (h : validatePerformanceObservation repr fields baseline = .ok observation) :
    ∃ contract, baseline.contract observation.contractId = .ok contract ∧
      ((MeetsTarget general observation baseline ↔ ∀ a b, Bound contract observation a b → a.le b = true) ↔
        (¬Unordered contract observation ∨ ∃ a b, Bound contract observation a b ∧ b.lt a = true)) := by
  obtain ⟨contract, hcontract, hread⟩ := readable_of_validate hbaseline h
  obtain ⟨r, hr, hmeets⟩ := assess_ok general hcontract hread
  have hverdict : MeetsTarget general observation baseline ↔
      ∀ a b, Bound contract observation a b → b.lt a = false := by
    rw [← hmeets]
    constructor
    · rintro ⟨r', hr', hmeets'⟩
      rw [hr] at hr'
      cases hr'
      exact hmeets'
    · exact fun hr' => ⟨r, hr, hr'⟩
  refine ⟨contract, hcontract, ?_⟩
  rw [hverdict]
  constructor
  · intro hiff
    by_contra hneither
    obtain ⟨hunordered, hnone⟩ := not_or.mp hneither
    obtain ⟨a, b, hbound, hle⟩ := exists_bound_of_unordered hread (not_not.mp hunordered)
    have hall : ∀ a b, Bound contract observation a b → b.lt a = false := fun a b hbound => by
      by_contra hlt
      exact hnone ⟨a, b, hbound, by simpa using hlt⟩
    rw [hiff.mp hall a b hbound] at hle
    cases hle
  · rintro (hordered | ⟨a, b, hbound, hlt⟩)
    · refine forall₂_congr fun a b => forall_congr' fun hbound => ?_
      obtain ⟨ha, hb⟩ := hbound.ne_nan hread hordered
      exact (PyFloat.le_iff_not_lt ha hb).symm
    · refine iff_of_false (fun hall => ?_) fun hall => ?_
      · rw [hall a b hbound] at hlt
        cases hlt
      · rw [PyFloat.not_lt_of_le (hall a b hbound)] at hlt
        cases hlt

def queryTargets : Json := .obj
  [("p95_latency_ms", .int 3000), ("p99_latency_ms", .int 6000), ("timeout_ms", .int 10000),
    ("minimum_rates", .obj [("success_rate", .float "0.99")]), ("maximum_rejected_rate", .float "0.01"),
    ("maximum_unit_cost_usd", .float "0.05")]

/-- The contract of a synchronous query. -/
def queryContract : Json := .obj
  [("id", .str "query"), ("workflow", .str "query"), ("surface", .str "query"), ("autonomy_tier", .str "L0"),
    ("implementation_state", .str "target"), ("promotion_decision", .str "real-data-pilot"),
    ("execution_model", .str "durable"), ("targets", queryTargets),
    ("steps", .arr [.obj [("name", .str "all"), ("p95_ms", .int 3000), ("p99_ms", .int 6000),
      ("timeout_ms", .int 10000)]]),
    ("load", .obj [("sustained_per_minute", .int 60), ("max_in_flight", .int 12), ("max_queue_depth", .int 0),
      ("max_queue_age_seconds", .int 0), ("load_shed", .str "reject")]),
    ("lease", .null),
    ("evidence", .obj [("minimum_samples", .int 500), ("minimum_window_minutes", .int 60),
      ("required_metrics", .arr (baseRequiredMetrics.map .str))])]

def queryBaseline : Json :=
  .obj [("schema_version", .int 1), ("status", .str "target"), ("contracts", .arr [queryContract])]

/-- An hour of answers within every target, of a cost that is not a number. -/
def unpricedHour : List (String × Json) :=
  [("contract_id", .str "query"), ("scope", .str "query"), ("change", .str "main"), ("basis", .str "modeled"),
    ("window", .obj [("started_at", .str "2026-08-01T00:00:00Z"), ("ended_at", .str "2026-08-01T01:00:00Z")]),
    ("sample_count", .int 500),
    ("metrics", .obj [("p50_latency_ms", .int 1), ("p95_latency_ms", .int 1), ("p99_latency_ms", .int 1),
      ("max_latency_ms", .int 1), ("success_rate", .int 1), ("peak_in_flight", .int 1), ("rejected_count", .int 0),
      ("unit_cost_usd", .float "NaN")]),
    ("artifacts", .arr [.str "https://run"]), ("known_limitations", .str "none")]

/-- The baseline and the observation are accepted, the targets are met, and the cost is not a number. -/
theorem unpricedHour_assessed : ∃ baseline observation, loadPerformanceBaseline id queryBaseline = .ok baseline ∧
    validatePerformanceObservation id unpricedHour baseline = .ok observation ∧
      MeetsTarget (fun _ => "") observation baseline ∧
        observation.metrics.float "unit_cost_usd" = .ok .nan := by
  let outcome := do
    let baseline ← loadPerformanceBaseline id queryBaseline
    let observation ← validatePerformanceObservation id unpricedHour baseline
    let r ← assessPerformanceObservation (fun _ => "") observation baseline
    let cost ← observation.metrics.float "unit_cost_usd"
    return (r.meetsTarget, cost)
  have houtcome : outcome = .ok (true, .nan) := by decide +kernel
  obtain ⟨baseline, hbaseline, h⟩ := bind_eq_ok_iff.mp houtcome
  obtain ⟨observation, hobservation, h⟩ := bind_eq_ok_iff.mp h
  obtain ⟨r, hr, h⟩ := bind_eq_ok_iff.mp h
  obtain ⟨cost, hcost, h⟩ := bind_eq_ok_iff.mp h
  obtain ⟨hmeets, rfl⟩ := Prod.mk.inj (Except.ok.inj h)
  exact ⟨baseline, observation, hbaseline, hobservation, ⟨r, hr, hmeets⟩, hcost⟩

theorem unpricedHour_judged : ∃ baseline observation, loadPerformanceBaseline id queryBaseline = .ok baseline ∧
    validatePerformanceObservation id unpricedHour baseline = .ok observation ∧
      ∃ contract, baseline.contract observation.contractId = .ok contract ∧
        ((MeetsTarget (fun _ => "") observation baseline ↔ ∀ a b, Bound contract observation a b → a.le b = true) ↔
          (¬Unordered contract observation ∨ ∃ a b, Bound contract observation a b ∧ b.lt a = true)) := by
  obtain ⟨baseline, observation, hbaseline, hobservation, -⟩ := unpricedHour_assessed
  exact ⟨baseline, observation, hbaseline, hobservation, meetsTarget_iff id (fun _ => "") hbaseline hobservation⟩

/-- The cost is within no bound, and the targets are met. -/
theorem nan_cost_meets_target : ∃ baseline observation contract,
    loadPerformanceBaseline id queryBaseline = .ok baseline ∧
      validatePerformanceObservation id unpricedHour baseline = .ok observation ∧
        baseline.contract observation.contractId = .ok contract ∧
          MeetsTarget (fun _ => "") observation baseline ∧
            ¬∀ a b, Bound contract observation a b → a.le b = true := by
  obtain ⟨baseline, observation, hbaseline, hobservation, hmeets, hcost⟩ := unpricedHour_assessed
  obtain ⟨contract, hcontract, hread⟩ := readable_of_validate hbaseline hobservation
  obtain ⟨a, b, hbound, hle⟩ := exists_bound_of_unordered hread (.inr (.inr (.inr hcost)))
  refine ⟨baseline, observation, contract, hbaseline, hobservation, hcontract, hmeets, fun hall => ?_⟩
  rw [hall a b hbound] at hle
  cases hle

end EngineeringIntelligence.Validation.Performance
