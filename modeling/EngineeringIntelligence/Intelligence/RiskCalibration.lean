import EngineeringIntelligence.Framework.Binary64
import EngineeringIntelligence.Framework.Fields
import Mathlib.Data.List.MinMax
import Mathlib.Data.Prod.Lex

namespace EngineeringIntelligence.Intelligence

open EngineeringIntelligence.Framework

/-! The threshold from which a risk score counts as high, chosen from observed outcomes. -/

structure ScoredOutcome where
  score : Int
  failed : Bool
  service : Option String := none
  deriving DecidableEq, Repr

structure ThresholdMetrics where
  threshold : Int
  truePositive : Nat
  falsePositive : Nat
  trueNegative : Nat
  falseNegative : Nat
  deriving DecidableEq, Repr

structure RiskCalibration where
  highThreshold : Int
  sampleSize : Nat
  failedSamples : Nat
  metrics : Option ThresholdMetrics
  confidence : Rat
  evidence : List String
  changedFromDefault : Bool
  deriving DecidableEq

def defaultHighThreshold : Int := 50

/-- `range(MIN_HIGH_THRESHOLD, MAX_HIGH_THRESHOLD + 1, 5)`. -/
def thresholdGrid : List Int := [40, 45, 50, 55, 60, 65, 70, 75]

/-- One round of the count. -/
def ThresholdMetrics.count (m : ThresholdMetrics) (outcome : ScoredOutcome) : ThresholdMetrics :=
  if m.threshold ≤ outcome.score then
    if outcome.failed then { m with truePositive := m.truePositive + 1 }
    else { m with falsePositive := m.falsePositive + 1 }
  else if outcome.failed then { m with falseNegative := m.falseNegative + 1 }
  else { m with trueNegative := m.trueNegative + 1 }

/-- `evaluate_threshold`. -/
def evaluateThreshold (outcomes : List ScoredOutcome) (threshold : Int) : ThresholdMetrics :=
  outcomes.foldl ThresholdMetrics.count ⟨threshold, 0, 0, 0, 0⟩

/-- `round(x, 3)`, before it is the float nearest to it. -/
def roundThree (x : Rat) : Rat := Binary64.nearest (x * 1000) / 1000

/-- `f"{x:.2f}"` of a ratio. -/
def fixedTwo (x : Rat) : String :=
  let hundredths := (Binary64.nearest (x * 100)).toNat
  toString (hundredths / 100) ++ "." ++ toString (hundredths / 10 % 10) ++ toString (hundredths % 10)

/-- The arguments of `calibrate_high_risk_threshold` beside the outcomes. -/
structure CalibrationPolicy where
  defaultThreshold : Int := defaultHighThreshold
  minSamples : Int := 30
  minFailures : Int := 5
  minPrecision : Rat := 1 / 2
  minRecall : Rat := 4 / 5

/-! The value of a float operation is its exact result, rounded; `rounded` is `id` for exact ratios. -/

section
variable (rounded : Rat → Rat)

/-- A ratio of counts; there is none over nothing. -/
def ratioOf (numerator denominator : Nat) : Option Rat :=
  if denominator = 0 then none else some (rounded (numerator / denominator))

namespace ThresholdMetrics
variable (m : ThresholdMetrics)

def precision : Option Rat := ratioOf rounded m.truePositive (m.truePositive + m.falsePositive)

def «recall» : Option Rat := ratioOf rounded m.truePositive (m.truePositive + m.falseNegative)

def falseNegativeRate : Option Rat := ratioOf rounded m.falseNegative (m.truePositive + m.falseNegative)

end ThresholdMetrics

/-- Lowest false negatives, then highest precision, then the threshold closest to the default. -/
def rank (defaultThreshold : Int) (m : ThresholdMetrics) : Rat ×ₗ Rat ×ₗ Nat :=
  toLex ((m.falseNegativeRate rounded).getD 1,
    toLex (-(m.precision rounded).getD 0, (m.threshold - defaultThreshold).natAbs))

/-- Both safety floors hold. -/
def Satisfies (policy : CalibrationPolicy) (m : ThresholdMetrics) : Prop :=
  policy.minPrecision ≤ (m.precision rounded).getD 0 ∧ policy.minRecall ≤ (m.recall rounded).getD 0

instance (policy : CalibrationPolicy) (m : ThresholdMetrics) : Decidable (Satisfies rounded policy m) :=
  inferInstanceAs (Decidable (_ ∧ _))

def candidates (policy : CalibrationPolicy) (outcomes : List ScoredOutcome) : List ThresholdMetrics :=
  (thresholdGrid.map (evaluateThreshold outcomes)).filter (Satisfies rounded policy)

/-- The observed outcomes do not suffice. -/
def insufficient (policy : CalibrationPolicy) (outcomes : List ScoredOutcome) : RiskCalibration :=
  let sampleSize := outcomes.length
  let failures := outcomes.countP (·.failed)
  { highThreshold := policy.defaultThreshold
    sampleSize
    failedSamples := failures
    metrics := some (evaluateThreshold outcomes policy.defaultThreshold)
    confidence := min (rounded (49 / 100))
      (rounded (rounded (sampleSize / (max 1 policy.minSamples : Int)) * rounded (49 / 100)))
    evidence :=
      ["insufficient calibration evidence: " ++ toString sampleSize ++ " samples / " ++ toString failures ++
          " failures",
        "requires at least " ++ toString policy.minSamples ++ " samples / " ++ toString policy.minFailures ++
          " failures",
        "default threshold retained"]
    changedFromDefault := false }

/-- No threshold of the grid satisfies the floors. -/
def unsatisfied (policy : CalibrationPolicy) (outcomes : List ScoredOutcome) : RiskCalibration :=
  { highThreshold := policy.defaultThreshold
    sampleSize := outcomes.length
    failedSamples := outcomes.countP (·.failed)
    metrics := some (evaluateThreshold outcomes policy.defaultThreshold)
    confidence := min (rounded (85 / 100)) (rounded (rounded (1 / 2) + rounded (outcomes.length / 500)))
    evidence :=
      ["no candidate threshold satisfied precision/recall safety constraints", "default threshold retained"]
    changedFromDefault := false }

def calibrated (policy : CalibrationPolicy) (outcomes : List ScoredOutcome) (selected : ThresholdMetrics) :
    RiskCalibration :=
  let sampleSize := outcomes.length
  let failures := outcomes.countP (·.failed)
  let confidence := min (rounded (95 / 100))
    (rounded (rounded (rounded (55 / 100) + rounded (min sampleSize 200 / 500)) + rounded (min failures 20 / 100)))
  { highThreshold := selected.threshold
    sampleSize
    failedSamples := failures
    metrics := some selected
    confidence := rounded (roundThree confidence)
    evidence :=
      ["calibrated from " ++ toString sampleSize ++ " observed changes including " ++ toString failures ++
          " failures",
        "selected threshold " ++ toString selected.threshold ++ ": precision=" ++
          fixedTwo ((selected.precision rounded).getD 0) ++ ", recall=" ++
          fixedTwo ((selected.recall rounded).getD 0),
        "threshold constrained to safety range 40-75"]
    changedFromDefault := selected.threshold ≠ policy.defaultThreshold }

def unobserved (policy : CalibrationPolicy) : RiskCalibration :=
  { highThreshold := policy.defaultThreshold
    sampleSize := 0
    failedSamples := 0
    metrics := none
    confidence := 0
    evidence := ["no observed outcomes; default threshold retained"]
    changedFromDefault := false }

/-- `calibrate_high_risk_threshold`. -/
def calibrateHighRiskThreshold (policy : CalibrationPolicy) (outcomes : List ScoredOutcome) :
    Except String RiskCalibration :=
  if outcomes = [] then .ok (unobserved policy)
  else if ∃ outcome ∈ outcomes, outcome.score < 0 ∨ 100 < outcome.score then
    .error "risk scores must be between 0 and 100"
  else if (outcomes.length : Int) < policy.minSamples ∨ (outcomes.countP (·.failed) : Int) < policy.minFailures then
    .ok (insufficient rounded policy outcomes)
  else
    match (candidates rounded policy outcomes).argmin (rank rounded policy.defaultThreshold) with
    | none => .ok (unsatisfied rounded policy outcomes)
    | some selected => .ok (calibrated rounded policy outcomes selected)

end

/-! ### The counts -/

theorem foldl_count (outcomes : List ScoredOutcome) (m : ThresholdMetrics) :
    outcomes.foldl ThresholdMetrics.count m =
      { threshold := m.threshold
        truePositive := m.truePositive + outcomes.countP fun o => m.threshold ≤ o.score ∧ o.failed = true
        falsePositive := m.falsePositive + outcomes.countP fun o => m.threshold ≤ o.score ∧ o.failed = false
        trueNegative := m.trueNegative + outcomes.countP fun o => o.score < m.threshold ∧ o.failed = false
        falseNegative := m.falseNegative + outcomes.countP fun o => o.score < m.threshold ∧ o.failed = true } := by
  induction outcomes generalizing m with
  | nil => simp
  | cons o outcomes ih =>
    rw [List.foldl_cons, ih, ThresholdMetrics.count]
    by_cases hhigh : m.threshold ≤ o.score
    · have hlow : ¬o.score < m.threshold := not_lt.mpr hhigh
      cases hfailed : o.failed <;> simp [hhigh, hlow, hfailed] <;> omega
    · have hlow : o.score < m.threshold := not_le.mp hhigh
      cases hfailed : o.failed <;> simp [hhigh, hlow, hfailed] <;> omega

theorem evaluateThreshold_eq (outcomes : List ScoredOutcome) (threshold : Int) :
    evaluateThreshold outcomes threshold =
      { threshold
        truePositive := outcomes.countP fun o => threshold ≤ o.score ∧ o.failed = true
        falsePositive := outcomes.countP fun o => threshold ≤ o.score ∧ o.failed = false
        trueNegative := outcomes.countP fun o => o.score < threshold ∧ o.failed = false
        falseNegative := outcomes.countP fun o => o.score < threshold ∧ o.failed = true } := by
  rw [evaluateThreshold, foldl_count]
  simp

theorem evaluateThreshold_perm {outcomes order : List ScoredOutcome} (h : order.Perm outcomes) :
    evaluateThreshold order = evaluateThreshold outcomes := by
  funext threshold
  simp only [evaluateThreshold_eq, h.countP_eq]

theorem falseNegative_mono (outcomes : List ScoredOutcome) {s t : Int} (h : s ≤ t) :
    (evaluateThreshold outcomes s).falseNegative ≤ (evaluateThreshold outcomes t).falseNegative := by
  rw [evaluateThreshold_eq, evaluateThreshold_eq]
  refine List.countP_mono_left fun o _ hmissed => ?_
  simp only [decide_eq_true_eq] at hmissed ⊢
  exact ⟨lt_of_lt_of_le hmissed.1 h, hmissed.2⟩

/-- Every outcome is counted once, the failed ones as found or missed. -/
theorem counts_foldl (outcomes : List ScoredOutcome) (m : ThresholdMetrics) :
    let n := outcomes.foldl ThresholdMetrics.count m
    n.truePositive + n.falsePositive + n.trueNegative + n.falseNegative =
        m.truePositive + m.falsePositive + m.trueNegative + m.falseNegative + outcomes.length ∧
      n.truePositive + n.falseNegative = m.truePositive + m.falseNegative + outcomes.countP (·.failed) := by
  induction outcomes generalizing m with
  | nil => exact ⟨rfl, rfl⟩
  | cons o outcomes ih =>
    have hstep : (m.count o).truePositive + (m.count o).falsePositive + (m.count o).trueNegative +
          (m.count o).falseNegative =
        m.truePositive + m.falsePositive + m.trueNegative + m.falseNegative + 1 ∧
        (m.count o).truePositive + (m.count o).falseNegative =
          m.truePositive + m.falseNegative + if o.failed then 1 else 0 := by
      rw [ThresholdMetrics.count]
      split_ifs <;> constructor <;> dsimp only <;> omega
    obtain ⟨htotal, hfailed⟩ := ih (m.count o)
    refine ⟨?_, ?_⟩
    · rw [List.foldl_cons, htotal, hstep.1, List.length_cons]
      omega
    · rw [List.foldl_cons, hfailed, hstep.2, List.countP_cons]
      omega

theorem counts_sum (outcomes : List ScoredOutcome) (threshold : Int) :
    (evaluateThreshold outcomes threshold).truePositive + (evaluateThreshold outcomes threshold).falsePositive +
      (evaluateThreshold outcomes threshold).trueNegative + (evaluateThreshold outcomes threshold).falseNegative =
        outcomes.length := by
  have hsum := (counts_foldl outcomes ⟨threshold, 0, 0, 0, 0⟩).1
  rw [evaluateThreshold]
  simpa using hsum

theorem failures_sum (outcomes : List ScoredOutcome) (threshold : Int) :
    (evaluateThreshold outcomes threshold).truePositive + (evaluateThreshold outcomes threshold).falseNegative =
      outcomes.countP (·.failed) := by
  have hsum := (counts_foldl outcomes ⟨threshold, 0, 0, 0, 0⟩).2
  rw [evaluateThreshold]
  simpa using hsum

/-! ### The choice -/

/-- The order of the outcomes does not count. -/
theorem calibrate_perm (rounded : Rat → Rat) (policy : CalibrationPolicy) {outcomes order : List ScoredOutcome}
    (h : order.Perm outcomes) :
    calibrateHighRiskThreshold rounded policy order = calibrateHighRiskThreshold rounded policy outcomes := by
  have hnil : order = [] ↔ outcomes = [] := by
    rw [← List.length_eq_zero_iff, ← List.length_eq_zero_iff, h.length_eq]
  simp only [calibrateHighRiskThreshold, insufficient, unsatisfied, calibrated, candidates, hnil, h.mem_iff,
    h.length_eq, h.countP_eq, evaluateThreshold_perm h]

/-- The outcomes get past the checks for samples and failures. -/
def MeetsMinima (policy : CalibrationPolicy) (outcomes : List ScoredOutcome) : Prop :=
  outcomes ≠ [] ∧ policy.minSamples ≤ outcomes.length ∧ policy.minFailures ≤ outcomes.countP (·.failed)

theorem mem_candidates {rounded : Rat → Rat} {policy : CalibrationPolicy} {outcomes : List ScoredOutcome}
    {m : ThresholdMetrics} : m ∈ candidates rounded policy outcomes ↔
      ∃ t ∈ thresholdGrid, evaluateThreshold outcomes t = m ∧ Satisfies rounded policy m := by
  simp only [candidates, List.mem_filter, List.mem_map, decide_eq_true_eq]
  constructor
  · rintro ⟨⟨t, ht, rfl⟩, hsatisfies⟩
    exact ⟨t, ht, rfl, hsatisfies⟩
  · rintro ⟨t, ht, rfl, hsatisfies⟩
    exact ⟨⟨t, ht, rfl⟩, hsatisfies⟩

theorem threshold_evaluate (outcomes : List ScoredOutcome) (t : Int) :
    (evaluateThreshold outcomes t).threshold = t := by
  rw [evaluateThreshold_eq]

/-- A smaller rank has no more misses and, with as many, no less precision. -/
theorem of_rank_le {outcomes : List ScoredOutcome} {defaultThreshold s t : Int}
    (h : rank id defaultThreshold (evaluateThreshold outcomes s) ≤
      rank id defaultThreshold (evaluateThreshold outcomes t)) :
    (evaluateThreshold outcomes s).falseNegative ≤ (evaluateThreshold outcomes t).falseNegative ∧
      ((evaluateThreshold outcomes s).falseNegative = (evaluateThreshold outcomes t).falseNegative →
        ((evaluateThreshold outcomes t).precision id).getD 0 ≤
          ((evaluateThreshold outcomes s).precision id).getD 0) := by
  have hs := failures_sum outcomes s
  have ht := failures_sum outcomes t
  rw [rank, rank, Prod.Lex.toLex_le_toLex'] at h
  obtain ⟨hrate, hrest⟩ := h
  rw [ThresholdMetrics.falseNegativeRate, ThresholdMetrics.falseNegativeRate, ratioOf, ratioOf, hs, ht] at hrate hrest
  have hprecision
      (hsame : (evaluateThreshold outcomes s).falseNegative = (evaluateThreshold outcomes t).falseNegative) :
      ((evaluateThreshold outcomes t).precision id).getD 0 ≤
        ((evaluateThreshold outcomes s).precision id).getD 0 := by
    rw [hsame] at hrest
    obtain hle | ⟨heq, -⟩ := (Prod.Lex.toLex_le_toLex).mp (hrest rfl)
    · exact neg_le_neg_iff.mp hle.le
    · exact (neg_inj.mp heq).ge
  refine ⟨?_, hprecision⟩
  by_cases hnone : outcomes.countP (·.failed) = 0
  · omega
  · rw [if_neg hnone, if_neg hnone, Option.getD_some, Option.getD_some] at hrate
    have hpos : (0 : Rat) < (outcomes.countP (·.failed) : Rat) := by
      exact_mod_cast Nat.pos_of_ne_zero hnone
    exact_mod_cast (div_le_div_iff_of_pos_right hpos).mp hrate

/-- The counts of a threshold add up and misses grow with it, and on outcomes that suffice, where some threshold
of the grid satisfies the floors, the one that is chosen does: it misses no more failures than any other, has the
highest precision among those that miss as many, and does not depend on the order of the outcomes. -/
theorem calibration_optimal :
    (∀ (outcomes : List ScoredOutcome) (t : Int), (evaluateThreshold outcomes t).truePositive +
      (evaluateThreshold outcomes t).falsePositive + (evaluateThreshold outcomes t).trueNegative +
        (evaluateThreshold outcomes t).falseNegative = outcomes.length) ∧
    (∀ (outcomes : List ScoredOutcome) (s t : Int), s ≤ t →
      (evaluateThreshold outcomes s).falseNegative ≤ (evaluateThreshold outcomes t).falseNegative) ∧
    ∀ (policy : CalibrationPolicy) (outcomes : List ScoredOutcome),
      (∀ o ∈ outcomes, 0 ≤ o.score ∧ o.score ≤ 100) → MeetsMinima policy outcomes →
      (∃ t ∈ thresholdGrid, Satisfies id policy (evaluateThreshold outcomes t)) →
      ∃ c, calibrateHighRiskThreshold id policy outcomes = .ok c ∧ c.highThreshold ∈ thresholdGrid ∧
        c.metrics = some (evaluateThreshold outcomes c.highThreshold) ∧
        Satisfies id policy (evaluateThreshold outcomes c.highThreshold) ∧
        (∀ t ∈ thresholdGrid, Satisfies id policy (evaluateThreshold outcomes t) →
          (evaluateThreshold outcomes c.highThreshold).falseNegative ≤ (evaluateThreshold outcomes t).falseNegative ∧
          ((evaluateThreshold outcomes c.highThreshold).falseNegative =
              (evaluateThreshold outcomes t).falseNegative →
            ((evaluateThreshold outcomes t).precision id).getD 0 ≤
              ((evaluateThreshold outcomes c.highThreshold).precision id).getD 0)) ∧
        ∀ order, order.Perm outcomes → calibrateHighRiskThreshold id policy order = .ok c := by
  refine ⟨counts_sum, fun outcomes _ _ h => falseNegative_mono outcomes h, ?_⟩
  intro policy outcomes hscores hminima hsome
  obtain ⟨hne, hsamples, hfailures⟩ := hminima
  obtain ⟨t, ht, hsatisfies⟩ := hsome
  obtain ⟨selected, hselected⟩ :
      ∃ m, (candidates id policy outcomes).argmin (rank id policy.defaultThreshold) = some m := by
    cases hargmin : (candidates id policy outcomes).argmin (rank id policy.defaultThreshold) with
    | none =>
      have hmem := mem_candidates.mpr ⟨t, ht, rfl, hsatisfies⟩
      rw [List.argmin_eq_none.mp hargmin] at hmem
      cases hmem
    | some m => exact ⟨m, rfl⟩
  have hok : calibrateHighRiskThreshold id policy outcomes = .ok (calibrated id policy outcomes selected) := by
    have hrange : ¬∃ o ∈ outcomes, o.score < 0 ∨ 100 < o.score := by
      rintro ⟨o, ho, hbad⟩
      have := hscores o ho
      omega
    have henough : ¬((outcomes.length : Int) < policy.minSamples ∨
        (outcomes.countP (·.failed) : Int) < policy.minFailures) := by
      omega
    rw [calibrateHighRiskThreshold, if_neg hne, if_neg hrange, if_neg henough, hselected]
  obtain ⟨s, hs, rfl, hsatisfied⟩ := mem_candidates.mp (List.argmin_mem (Option.mem_def.mpr hselected))
  have hthreshold : (calibrated id policy outcomes (evaluateThreshold outcomes s)).highThreshold = s :=
    threshold_evaluate outcomes s
  refine ⟨_, hok, ?_, ?_, ?_, ?_, ?_⟩
  · rw [hthreshold]
    exact hs
  · rw [hthreshold]
    rfl
  · rw [hthreshold]
    exact hsatisfied
  · intro t ht hsatisfies
    rw [hthreshold]
    exact of_rank_le (List.le_of_mem_argmin (mem_candidates.mpr ⟨t, ht, rfl, hsatisfies⟩)
      (Option.mem_def.mpr hselected))
  · intro order hperm
    rw [calibrate_perm id policy hperm, hok]

/-- Five failures with a high score among thirty outcomes. -/
def thirtyOutcomes : List ScoredOutcome :=
  List.replicate 5 { score := 80, failed := true } ++ List.replicate 25 { score := 10, failed := false }

theorem chosen_from_thirty : ∃ c, calibrateHighRiskThreshold id {} thirtyOutcomes = .ok c ∧
    c.highThreshold ∈ thresholdGrid := by
  obtain ⟨c, hok, hgrid, -⟩ := calibration_optimal.2.2 {} thirtyOutcomes (by decide)
    ⟨by decide, by decide, by decide⟩ ⟨50, by decide, by decide +kernel⟩
  exact ⟨c, hok, hgrid⟩

end EngineeringIntelligence.Intelligence
