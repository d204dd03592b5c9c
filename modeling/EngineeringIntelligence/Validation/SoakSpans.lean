import EngineeringIntelligence.Validation.Soak

namespace EngineeringIntelligence.Validation.Soak

open EngineeringIntelligence.Framework
open EngineeringIntelligence.Intelligence (roundThree)

/-! The longest window a soak evaluation reports, and the order its samples come in. -/

/-- Whatever the order of the samples, the evaluation reports the longest clean span and qualifies by it. -/
def ReportsLongest (minimumHours maximumGapHours : Rat) (samples : List SoakSample) : Prop :=
  ∃ length, IsLongestSpan SoakSample.hour SoakSample.Valid maximumGapHours samples length ∧
    ∀ order : List SoakSample, order.Perm samples →
      (soakWindow maximumGapHours (sortedBy SoakSample.hour order)).bestHours = length ∧
      ∃ report, evaluateSoak minimumHours maximumGapHours order = .ok report ∧
        report.continuousHours = roundThree length ∧ report.qualifies = decide (minimumHours ≤ length)

/-! ### Reading the samples -/

theorem mapM_timestamp {samples : List SoakSample} :
    (∃ times, samples.mapM SoakSample.timestamp = .ok times) ↔
      ∀ sample ∈ samples, ∃ time, sample.timestamp = .ok time := by
  simp only [← isOk_iff]
  exact mapM_isOk_iff

/-- An evaluation reports what its loop finds once every timestamp was read. -/
theorem evaluateSoak_ok {minimumHours maximumGapHours : Rat} (hminimum : 0 < minimumHours)
    (hgap : 0 < maximumGapHours) {samples : List SoakSample} (hsamples : samples ≠ [])
    (htimes : ∀ sample ∈ samples, ∃ time, sample.timestamp = .ok time) :
    ∃ report, evaluateSoak minimumHours maximumGapHours samples = .ok report ∧
      report.continuousHours =
        roundThree (soakWindow maximumGapHours (sortedBy SoakSample.hour samples)).bestHours ∧
      report.qualifies =
        decide (minimumHours ≤ (soakWindow maximumGapHours (sortedBy SoakSample.hour samples)).bestHours) := by
  have hthresholds : ¬(minimumHours ≤ 0 ∨ maximumGapHours ≤ 0) :=
    not_or.mpr ⟨not_le.mpr hminimum, not_le.mpr hgap⟩
  obtain ⟨times, hread⟩ := mapM_timestamp.mpr htimes
  rw [evaluateSoak, if_neg hthresholds, if_neg hsamples, hread]
  exact ⟨_, rfl, rfl, rfl⟩

theorem timestamp_of_evaluateSoak {minimumHours maximumGapHours : Rat} (hminimum : 0 < minimumHours)
    (hgap : 0 < maximumGapHours) {samples : List SoakSample} (hsamples : samples ≠ []) {report : SoakReport}
    (h : evaluateSoak minimumHours maximumGapHours samples = .ok report) :
    ∀ sample ∈ samples, ∃ time, sample.timestamp = .ok time := by
  have hthresholds : ¬(minimumHours ≤ 0 ∨ maximumGapHours ≤ 0) :=
    not_or.mpr ⟨not_le.mpr hminimum, not_le.mpr hgap⟩
  rw [evaluateSoak, if_neg hthresholds, if_neg hsamples] at h
  obtain ⟨times, hread, -⟩ := bind_eq_ok_iff.mp h
  exact mapM_timestamp.mp ⟨times, hread⟩

/-- A time that was printed is read back. -/
theorem timestamp_isoformat {sample : SoakSample} {time : UtcTime} (h : sample.observedAt = time.isoformat) :
    sample.timestamp = .ok time := by
  obtain ⟨parsed, hparsed, hutc⟩ := inUtc_isoformat time
  have haware : parsed.utcoffset.isNone = false := by
    rw [PyDateTime.inUtc] at hutc
    split at hutc
    · next hsome => simpa using hsome
    · cases hutc
  rw [SoakSample.timestamp, h, spelledZone_isoformat, hparsed]
  simp only [haware, Bool.false_eq_true, if_false, hutc]

/-! ### The longest span -/

/-- The evaluation reports the longest clean span in every order just when each timestamp can be read and no span
that is clean but for its two instants is longer than every clean one. -/
theorem reportsLongest_iff {minimumHours maximumGapHours : Rat} (hminimum : 0 < minimumHours)
    (hgap : 0 < maximumGapHours) {samples : List SoakSample} (hsamples : samples ≠ []) :
    ReportsLongest minimumHours maximumGapHours samples ↔
      (∀ sample ∈ samples, ∃ time, sample.timestamp = .ok time) ∧
        ∀ a b, LooseSpan SoakSample.hour SoakSample.Valid maximumGapHours samples a b → a < b →
          ∃ c d, CleanSpan SoakSample.hour SoakSample.Valid maximumGapHours samples c d ∧ b - a ≤ d - c := by
  rw [← longestRun_stable_iff hgap.le]
  simp only [ReportsLongest, bestHours_soakWindow]
  constructor
  · rintro ⟨length, hlongest, hall⟩
    obtain ⟨-, report, hreport, -⟩ := hall samples (.refl samples)
    exact ⟨timestamp_of_evaluateSoak hminimum hgap hsamples hreport, length, hlongest,
      fun order hperm => (hall order hperm).1⟩
  · rintro ⟨htimes, length, hlongest, hall⟩
    refine ⟨length, hlongest, fun order hperm => ⟨hall order hperm, ?_⟩⟩
    have horder : order ≠ [] := fun hnil => hsamples (List.nil_perm.mp (hnil ▸ hperm))
    obtain ⟨report, hreport, hhours, hqualifies⟩ := evaluateSoak_ok hminimum hgap horder fun sample hsample =>
      htimes sample (hperm.mem_iff.mp hsample)
    rw [bestHours_soakWindow, hall order hperm] at hhours hqualifies
    exact ⟨report, hreport, hhours, hqualifies⟩

/-- A sample of the first day of August, at a full hour. -/
def augustSample (hour : Nat) (h : hour ≤ 23) (passed : Bool) : SoakSample where
  observedAt := UtcTime.isoformat ⟨2026, 8, 1, hour, 0, 0, 0, by decide, by omega⟩
  passed
  evidenceRef := "run"

theorem hour_augustSample (hour : Nat) (h : hour ≤ 23) (passed : Bool) :
    (augustSample hour h passed).hour = 17755896 + hour := by
  have hread : (augustSample hour h passed).timestamp = .ok _ := timestamp_isoformat rfl
  have hday : ordinal 2026 8 1 = 739829 := by decide
  rw [SoakSample.hour, hread]
  simp only [SoakSample.hours, UtcTime.instant, hday]
  push_cast
  ring

theorem valid_augustSample (hour : Nat) (h : hour ≤ 23) (passed : Bool) :
    (augustSample hour h passed).Valid ↔ passed = true := by
  have href : strip "run" ≠ "" := by decide
  simp [SoakSample.Valid, augustSample, href]

/-- A day of one passing sample. -/
theorem one_sample_reported : ReportsLongest 168 2 [augustSample 0 (by decide) true] := by
  refine (reportsLongest_iff (by norm_num) (by norm_num) (by simp)).mpr ⟨?_, ?_⟩
  · rintro sample hsample
    rw [List.mem_singleton.mp hsample]
    exact ⟨_, timestamp_isoformat rfl⟩
  · rintro a b ⟨-, hfirst, hlast, -, -⟩ hlt
    simp only [List.mem_singleton, exists_eq_left] at hfirst hlast
    rw [← hfirst.2, ← hlast.2] at hlt
    exact absurd hlt (lt_irrefl _)

/-- A failing sample at the instant of the last passing one ends the window before it or after it. -/
theorem tie_reported_by_order : ¬ReportsLongest 168 2 [augustSample 0 (by decide) true,
    augustSample 1 (by decide) true, augustSample 1 (by decide) false] := by
  rintro ⟨length, -, hall⟩
  have hafter := (hall _ (.refl _)).1
  have hbefore := (hall [augustSample 0 (by decide) true, augustSample 1 (by decide) false,
    augustSample 1 (by decide) true] (.cons _ (.swap _ _ _))).1
  rw [sortedBy_of_pairwise (by simp [hour_augustSample])] at hafter hbefore
  have hone : 1 = length := by
    simpa [soakWindow, SoakWindow.step, SoakWindow.flush, valid_augustSample, hour_augustSample] using hafter
  have hzero : 0 = length := by
    simpa [soakWindow, SoakWindow.step, SoakWindow.flush, valid_augustSample, hour_augustSample] using hbefore
  exact absurd (hone.trans hzero.symm) one_ne_zero

end EngineeringIntelligence.Validation.Soak
