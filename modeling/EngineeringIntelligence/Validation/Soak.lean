import EngineeringIntelligence.Framework.Fallible
import EngineeringIntelligence.Framework.LongestRun
import EngineeringIntelligence.Framework.Text
import EngineeringIntelligence.Framework.UtcInstant
import EngineeringIntelligence.Intelligence.RiskCalibration

namespace EngineeringIntelligence.Validation.Soak

open EngineeringIntelligence.Framework
open EngineeringIntelligence.Intelligence (roundThree)

/-! Continuous operation over an export of timestamped observations. -/

structure SoakSample where
  observedAt : String
  passed : Bool
  evidenceRef : String
  deriving DecidableEq, Repr

structure SoakReport where
  continuousHours : Rat
  sampleCount : Nat
  passedSamples : Nat
  failedSamples : Nat
  evidenceRefs : List String
  qualifies : Bool
  deriving DecidableEq

inductive SoakError where
  /-- `ValueError` of `fromisoformat` -/
  | isoformat
  /-- `ValueError` -/
  | value (message : String)
  /-- `OverflowError` of a date -/
  | overflow
  deriving DecidableEq, Repr

namespace SoakSample

def timestamp (sample : SoakSample) : Except SoakError UtcTime :=
  match fromisoformat (spelledZone sample.observedAt) with
  | none => .error .isoformat
  | some parsed =>
    if parsed.utcoffset.isNone then .error (.value "soak sample timestamp must be timezone-aware")
    else
      match parsed.inUtc with
      | some time => .ok time
      | none => .error .overflow

/-- The hours of a difference between two points in time: `total_seconds() / 3600.0`. -/
def hours (micros : Int) : Rat := micros / 1000000 / 3600

/-- The timestamp of a sample that was read, in hours. -/
def hour (sample : SoakSample) : Rat :=
  match sample.timestamp with
  | .ok time => hours time.instant
  | .error _ => 0

/-- Passing, with a reference to what was retained. -/
def Valid (sample : SoakSample) : Prop := sample.passed = true ∧ strip sample.evidenceRef ≠ ""

instance (sample : SoakSample) : Decidable sample.Valid := inferInstanceAs (Decidable (_ ∧ _))

end SoakSample

/-- The variables of the loop; `start` and `last` are `None` together. -/
structure SoakWindow where
  window : Option (Rat × Rat) := none
  bestHours : Rat := 0
  currentRefs : List String := []
  bestRefs : List String := []

namespace SoakWindow

/-- Keep the open window when it is longer than the best. -/
def flush (w : SoakWindow) : SoakWindow :=
  match w.window with
  | none => w
  | some (start, last) =>
    if w.bestHours < last - start then { w with bestHours := last - start, bestRefs := w.currentRefs } else w

def step (maximumGapHours : Rat) (w : SoakWindow) (sample : SoakSample) : SoakWindow :=
  let ts := sample.hour
  if sample.Valid then
    match w.window with
    | none => { w with window := some (ts, ts), currentRefs := [sample.evidenceRef] }
    | some (start, last) =>
      if maximumGapHours < ts - last then
        { w.flush with window := some (ts, ts), currentRefs := [sample.evidenceRef] }
      else { w with window := some (start, ts), currentRefs := w.currentRefs ++ [sample.evidenceRef] }
  else { w.flush with window := none, currentRefs := [] }

end SoakWindow

/-- The loop over the ordered samples, with the last window counted. -/
def soakWindow (maximumGapHours : Rat) (ordered : List SoakSample) : SoakWindow :=
  (ordered.foldl (SoakWindow.step maximumGapHours) {}).flush

/-- `evaluate_soak`. -/
def evaluateSoak (minimumHours maximumGapHours : Rat) (samples : List SoakSample) :
    Except SoakError SoakReport := do
  if minimumHours ≤ 0 ∨ maximumGapHours ≤ 0 then throw (.value "soak thresholds must be positive")
  if samples = [] then return ⟨0, 0, 0, 0, [], false⟩
  -- the keys of the sort
  let _ ← samples.mapM SoakSample.timestamp
  let ordered := sortedBy SoakSample.hour samples
  let best := soakWindow maximumGapHours ordered
  let passed := ordered.countP fun sample => sample.Valid
  return {
    continuousHours := roundThree best.bestHours
    sampleCount := ordered.length
    passedSamples := passed
    failedSamples := ordered.length - passed
    evidenceRefs := best.bestRefs.eraseDups
    qualifies := minimumHours ≤ best.bestHours }

/-! ### The sweep -/

/-- The loop without the references. -/
def SoakWindow.sweep (w : SoakWindow) : RunSweep Rat := ⟨w.window, w.bestHours⟩

theorem bestHours_flush (w : SoakWindow) : w.flush.bestHours = w.sweep.flush := by
  obtain ⟨window, bestHours, currentRefs, bestRefs⟩ := w
  cases window with
  | none => rfl
  | some ends =>
    simp only [SoakWindow.flush, SoakWindow.sweep, RunSweep.flush]
    split
    · next h => exact (max_eq_right h.le).symm
    · next h => exact (max_eq_left (not_lt.mp h)).symm

theorem sweep_step (maximumGapHours : Rat) (w : SoakWindow) (sample : SoakSample) :
    (w.step maximumGapHours sample).sweep =
      w.sweep.step SoakSample.hour SoakSample.Valid maximumGapHours sample := by
  rw [SoakWindow.step, RunSweep.step]
  split
  · rcases hwindow : w.window with - | ⟨start, last⟩
    · simp only [SoakWindow.sweep, hwindow]
    · by_cases hgap : maximumGapHours < sample.hour - last
      · simp only [SoakWindow.sweep, hwindow, if_pos hgap, if_neg (not_le.mpr hgap), bestHours_flush]
      · simp only [SoakWindow.sweep, hwindow, if_neg hgap, if_pos (not_lt.mp hgap)]
  · simp only [SoakWindow.sweep, bestHours_flush]

/-- The loop finds the longest run of the ordered samples. -/
theorem bestHours_soakWindow (maximumGapHours : Rat) (ordered : List SoakSample) :
    (soakWindow maximumGapHours ordered).bestHours =
      longestRun SoakSample.hour SoakSample.Valid maximumGapHours ordered := by
  have hfold (w : SoakWindow) : (ordered.foldl (SoakWindow.step maximumGapHours) w).sweep =
      ordered.foldl (RunSweep.step SoakSample.hour SoakSample.Valid maximumGapHours) w.sweep := by
    induction ordered generalizing w with
    | nil => rfl
    | cons sample ordered ih => rw [List.foldl_cons, List.foldl_cons, ih, sweep_step]
  rw [soakWindow, bestHours_flush, hfold]
  rfl

end EngineeringIntelligence.Validation.Soak
