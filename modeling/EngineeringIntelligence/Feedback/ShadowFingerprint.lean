import EngineeringIntelligence.Feedback.ShadowReport
import EngineeringIntelligence.Framework.JsonReader
import Mathlib.Data.List.Forall2

namespace EngineeringIntelligence.Feedback

open EngineeringIntelligence.Framework EngineeringIntelligence.Intelligence EngineeringIntelligence.PrGuardian
open Json (texts_inj str_inj int_inj bool_inj printed_texts)

/-! What the fingerprint of a shadow export says of its outcomes, and the order they come in. -/

/-! ### The fingerprint -/

theorem printed_outcomes (records : List ShadowOutcome) : (Json.arr (records.map outcomeJson)).Printed := by
  rw [Json.Printed]
  induction records with
  | nil => trivial
  | cons record records ih =>
    refine ⟨?_, ih⟩
    have hlabels := printed_texts record.recognizedLabels
    have hlimitations := printed_texts record.limitations
    have hsource : ((record.sourceObservation.map sourceJson).getD .null).Printed := by
      cases record.sourceObservation <;> simp [sourceJson, Json.Printed, Json.PrintedFields]
    simp only [outcomeJson, outcomeFields, Json.Printed, Json.PrintedFields, true_and] at hlabels hlimitations ⊢
    exact ⟨hlabels, hsource, hlimitations, trivial⟩

theorem sourceJson_injective {s s' : SourceObservation} (h : (sourceJson s).sortKeys = (sourceJson s').sortKeys) :
    s = s' := by
  have hkeys (s : SourceObservation) : ([("score", Json.int s.score), ("band", .str s.band),
      ("would_block", .bool s.wouldBlock),
      ("would_require_additional_approval", .bool s.wouldRequireAdditionalApproval)].map Prod.fst).Nodup := by
    simp
  have hget := Json.get_eq_of_sortKeys_eq (hkeys s) (hkeys s') h
  obtain ⟨score, band, wouldBlock, approval⟩ := s
  obtain ⟨score', band', wouldBlock', approval'⟩ := s'
  have hscore : score = score' := int_inj (hget "score")
  have hband : band = band' := str_inj (hget "band")
  have hblock : wouldBlock = wouldBlock' := bool_inj (hget "would_block")
  have happroval : approval = approval' := bool_inj (hget "would_require_additional_approval")
  rw [hscore, hband, hblock, happroval]

theorem sourceJsons_injective {s s' : Option SourceObservation}
    (h : ((s.map sourceJson).getD .null).sortKeys = ((s'.map sourceJson).getD .null).sortKeys) : s = s' := by
  cases s with
  | none =>
    cases s' with
    | none => rfl
    | some s' => cases h
  | some s =>
    cases s' with
    | none => cases h
    | some s' => exact congrArg some (sourceJson_injective h)

/-- A record is told by its dictionary. -/
theorem outcomeJson_injective {r r' : ShadowOutcome} (h : (outcomeJson r).sortKeys = (outcomeJson r').sortKeys) :
    r = r' := by
  have hkeys (r : ShadowOutcome) : ((outcomeFields r).map Prod.fst).Nodup := by simp [outcomeFields]
  have hget := Json.get_eq_of_sortKeys_eq (hkeys r) (hkeys r') h
  obtain ⟨recordedAt, ⟨repository, prNumber, headSha⟩, merged, ⟨risk, utility⟩, labels, source, limitations⟩ := r
  obtain ⟨recordedAt', ⟨repository', prNumber', headSha'⟩, merged', ⟨risk', utility'⟩, labels', source',
    limitations'⟩ := r'
  have hrecorded : recordedAt = recordedAt' := str_inj (hget "recorded_at")
  have hsubject := Json.get_eq_of_sortKeys_eq (by simp) (by simp) (hget "subject")
  have hrepository : repository = repository' := str_inj (hsubject "repository")
  have hnumber : prNumber = prNumber' := int_inj (hsubject "pr_number")
  have hsha : headSha = headSha' := str_inj (hsubject "head_sha")
  have hclosure := Json.get_eq_of_sortKeys_eq (by simp) (by simp) (hget "closure")
  have hmerged : merged = merged' := bool_inj (hclosure "merged")
  have hsignal := Json.get_eq_of_sortKeys_eq (by simp) (by simp) (hget "reviewer_signal")
  have hrisk : risk = risk' := str_inj (hsignal "risk")
  have hutility : utility = utility' := str_inj (hsignal "utility")
  have hlabels : labels = labels' := texts_inj (hget "recognized_labels")
  have hsource : source = source' := sourceJsons_injective (hget "source_observation")
  have hlimitations : limitations = limitations' := texts_inj (hget "limitations")
  rw [hrecorded, hrepository, hnumber, hsha, hmerged, hrisk, hutility, hlabels, hsource, hlimitations]

section
variable {sha256 : String → String}

/-- Exports with one fingerprint are the same records in the same canonical order. -/
theorem sorted_of_fingerprint (hsha : Function.Injective sha256) {records records' : List ShadowOutcome}
    (h : canonicalShadowOutcomesSha256 sha256 records = canonicalShadowOutcomesSha256 sha256 records') :
    sortedBy exportKey records = sortedBy exportKey records' := by
  have hdumps := hsha (String.append_right_inj _ |>.mp h)
  have hsort := Json.dumps_injective (printed_outcomes _) (printed_outcomes _) hdumps
  simp only [Json.sortKeys, Json.sortKeysItems_eq_map, List.map_map, Json.arr.injEq] at hsort
  exact List.map_injective_iff.mpr (fun _ _ h => outcomeJson_injective h) hsort

/-- Exports with one fingerprint hold the same records, each as often. -/
theorem perm_of_fingerprint (hsha : Function.Injective sha256) {records records' : List ShadowOutcome}
    (h : canonicalShadowOutcomesSha256 sha256 records = canonicalShadowOutcomesSha256 sha256 records') :
    records.Perm records' := by
  refine (perm_sortedBy exportKey records).symm.trans ?_
  rw [sorted_of_fingerprint hsha h]
  exact perm_sortedBy exportKey records'

end

/-! ### The order of the outcomes -/

/-- Records in another order are counted alike. -/
theorem reviewed_perm {records order : List ShadowOutcome} (h : order.Perm records) :
    (reviewedRecords order).Perm (reviewedRecords records) :=
  (h.filter _).filter _

theorem calibrationSection_perm (rounded : Rat → Rat) {reviewed order : List ShadowOutcome}
    (h : order.Perm reviewed) : calibrationSection rounded order = calibrationSection rounded reviewed := by
  have hscored := h.filterMap scoredOutcome
  have hservices : sortedSet (((order.filterMap scoredOutcome).filterMap (·.service)).filter (· ≠ "")) =
      sortedSet (((reviewed.filterMap scoredOutcome).filterMap (·.service)).filter (· ≠ "")) :=
    increasing_ext (pairwise_sortedSet _) (pairwise_sortedSet _) fun service => by
      rw [mem_sortedSet, mem_sortedSet, ((hscored.filterMap _).filter _).mem_iff]
  have hview (p : ScoredOutcome → Bool) :
      calibratedView rounded ((order.filterMap scoredOutcome).filter p) =
        calibratedView rounded ((reviewed.filterMap scoredOutcome).filter p) := by
    rw [calibratedView, calibratedView, calibrate_perm rounded _ (hscored.filter p)]
  have hoverall : calibratedView rounded (order.filterMap scoredOutcome) =
      calibratedView rounded (reviewed.filterMap scoredOutcome) := by
    rw [calibratedView, calibratedView, calibrate_perm rounded _ hscored]
  simp only [calibrationSection, hservices, hview, hoverall]

/-- Of a report only the fingerprint can tell the order of the records. -/
theorem reportOf_perm (rounded : Rat → Rat) (sha256 : String → String) {records order : List ShadowOutcome}
    (h : order.Perm records)
    (hfingerprint : canonicalShadowOutcomesSha256 sha256 order = canonicalShadowOutcomesSha256 sha256 records) :
    reportOf rounded sha256 order = reportOf rounded sha256 records := by
  have hreviewed := reviewed_perm h
  have hjoined := h.filter (·.sourceObservation.isSome)
  have hnil : order = [] ↔ records = [] := by
    rw [← List.length_eq_zero_iff, ← List.length_eq_zero_iff, h.length_eq]
  have hnext (failures : List String) : nextReview order failures = nextReview records failures := by
    by_cases hempty : records = []
    · simp only [nextReview, if_pos hempty, if_pos (hnil.mpr hempty)]
    · simp only [nextReview, if_neg hempty, if_neg (mt hnil.mp hempty)]
  have hdecision (wouldBlock confirmed : Bool) : decisionCount (reviewedRecords order) wouldBlock confirmed =
      decisionCount (reviewedRecords records) wouldBlock confirmed := hreviewed.countP_eq _
  simp only [reportOf, hdecision, hnext, hfingerprint, h.length_eq, hjoined.length_eq, hjoined.countP_eq,
    hreviewed.length_eq, hreviewed.countP_eq, calibrationSection_perm rounded hreviewed]

/-! ### The report is returned -/

theorem calibrate_ok (rounded : Rat → Rat) (policy : CalibrationPolicy) {outcomes : List ScoredOutcome}
    (h : ∀ outcome ∈ outcomes, 0 ≤ outcome.score ∧ outcome.score ≤ 100) :
    ∃ c, calibrateHighRiskThreshold rounded policy outcomes = .ok c := by
  have hscores : ¬∃ outcome ∈ outcomes, outcome.score < 0 ∨ 100 < outcome.score := by
    rintro ⟨outcome, hmem, hout⟩
    have hin := h outcome hmem
    omega
  rw [calibrateHighRiskThreshold]
  split
  · exact ⟨_, rfl⟩
  · split
    · exact ⟨_, rfl⟩
    · split <;> exact ⟨_, rfl⟩

/-- A validated record has a score from 0 to 100, if it was joined. -/
theorem score_of_validated {value : List (String × Json)} {record : ShadowOutcome}
    (h : validateOutcome value = .ok record) {source : SourceObservation}
    (hsource : record.sourceObservation = some source) : 0 ≤ source.score ∧ source.score ≤ 100 := by
  simp only [validateOutcome, bind_eq_ok_iff] at h
  obtain ⟨-, -, -, -, closure, -, -, -, recordedAt, -, subject, -, merged, -, signal, -, labels, -, found, hfound,
    limitations, -, hrecord⟩ := h
  cases hrecord
  simp only at hsource
  subst hsource
  unfold validateSourceObservation at hfound
  split at hfound
  · cases hfound
  · simp only [bind_eq_ok_iff] at hfound
    obtain ⟨raw, -, -, -, band, -, -, -, score, hscore, wouldBlock, -, approval, -, heq⟩ := hfound
    cases heq
    exact (integer_eq_ok_iff.mp hscore).2

theorem reportOf_ok (rounded : Rat → Rat) (sha256 : String → String) {records : List ShadowOutcome}
    (h : ∀ record ∈ records, ∀ source, record.sourceObservation = some source →
      0 ≤ source.score ∧ source.score ≤ 100) :
    ∃ report, reportOf rounded sha256 records = .ok report ∧
      report.inputProvenance.canonicalOutcomeExportSha256 = canonicalShadowOutcomesSha256 sha256 records := by
  have hscored : ∀ outcome ∈ (reviewedRecords records).filterMap scoredOutcome,
      0 ≤ outcome.score ∧ outcome.score ≤ 100 := by
    intro outcome hmem
    obtain ⟨record, hrecord, houtcome⟩ := List.mem_filterMap.mp hmem
    simp only [scoredOutcome, Option.bind_eq_bind, Option.bind_eq_some_iff] at houtcome
    obtain ⟨source, hsource, failed, -, heq⟩ := houtcome
    cases heq
    exact h record (List.mem_of_mem_filter (List.mem_of_mem_filter hrecord)) source hsource
  have hview (p : ScoredOutcome → Bool) : ∃ view,
      calibratedView rounded (((reviewedRecords records).filterMap scoredOutcome).filter p) = .ok view := by
    obtain ⟨c, hc⟩ := calibrate_ok rounded {} fun outcome hmem => hscored outcome (List.mem_of_mem_filter hmem)
    exact ⟨_, by rw [calibratedView, hc]; rfl⟩
  obtain ⟨c, hc⟩ := calibrate_ok rounded {} hscored
  have hoverall : calibratedView rounded ((reviewedRecords records).filterMap scoredOutcome) =
      .ok (calibrationView rounded c) := by
    rw [calibratedView, hc]
    rfl
  have hservices (services : List String) : ((services.mapM fun service => do
      let view ← calibratedView rounded
        (((reviewedRecords records).filterMap scoredOutcome).filter (·.service = some service))
      return (service, view) : Except String (List (String × CalibrationView))).isOk) = true := by
    rw [mapM_isOk_iff]
    intro service _
    obtain ⟨view, hservice⟩ := hview (·.service = some service)
    rw [hservice]
    rfl
  obtain ⟨perService, hperService⟩ := isOk_iff.mp (hservices (sortedSet
    ((((reviewedRecords records).filterMap scoredOutcome).filterMap (·.service)).filter (· ≠ ""))))
  simp only [reportOf, calibrationSection, hoverall, ok_bind, hperService]
  exact ⟨_, rfl, rfl⟩

theorem buildShadowReport_ok (rounded : Rat → Rat) (sha256 : String → String)
    {outcomes : List (List (String × Json))} {records : List ShadowOutcome}
    (h : outcomes.mapM validateOutcome = .ok records) :
    ∃ report, buildShadowReport rounded sha256 outcomes = .ok report ∧
      report.inputProvenance.canonicalOutcomeExportSha256 = canonicalShadowOutcomesSha256 sha256 records := by
  rw [buildShadowReport, h]
  refine reportOf_ok rounded sha256 fun record hmem source hsource => ?_
  obtain ⟨value, -, hvalue⟩ := (mapM_ok_mem h record).mp hmem
  exact score_of_validated hvalue hsource

/-! ### Order and fingerprint -/

/-- The report does not depend on the order of the outcomes, and no other outcomes have its fingerprint. -/
def FingerprintSound (rounded : Rat → Rat) (sha256 : String → String) (outcomes : List (List (String × Json))) :
    Prop :=
  (∀ order : List (List (String × Json)), order.Perm outcomes →
    buildShadowReport rounded sha256 order = buildShadowReport rounded sha256 outcomes) ∧
  ∀ (others : List (List (String × Json))) (records records' : List ShadowOutcome),
    outcomes.mapM validateOutcome = .ok records → others.mapM validateOutcome = .ok records' →
      canonicalShadowOutcomesSha256 sha256 records = canonicalShadowOutcomesSha256 sha256 records' →
        records.Perm records'

/-- The outcomes in another order are read as their records in another order. -/
theorem validated_perm {outcomes order : List (List (String × Json))} {records : List ShadowOutcome}
    (h : order.Perm outcomes) (hrecords : outcomes.mapM validateOutcome = .ok records) :
    ∃ records', order.mapM validateOutcome = .ok records' ∧ records'.Perm records := by
  obtain ⟨records', hrecords', hperm⟩ := List.perm_comp_forall₂ h (mapM_eq_ok.mp hrecords)
  exact ⟨records', mapM_eq_ok.mpr hrecords', hperm⟩

/-- Two outcomes that are read as different records stand at two places. -/
theorem exists_pair {outcomes : List (List (String × Json))} {records : List ShadowOutcome}
    (h : outcomes.mapM validateOutcome = .ok records) {r r' : ShadowOutcome} (hr : r ∈ records) (hr' : r' ∈ records)
    (hne : r ≠ r') : ∃ a b rest, outcomes.Perm (a :: b :: rest) ∧ validateOutcome a = .ok r ∧
      validateOutcome b = .ok r' := by
  obtain ⟨a, ha, hread⟩ := (mapM_ok_mem h r).mp hr
  obtain ⟨b, hb, hread'⟩ := (mapM_ok_mem h r').mp hr'
  obtain ⟨before, after, rfl⟩ := List.append_of_mem ha
  have hother : b ∈ before ++ after := by
    rcases List.mem_append.mp hb with hb | hb
    · exact List.mem_append_left _ hb
    · rcases List.mem_cons.mp hb with rfl | hb
      · rw [hread] at hread'
        exact absurd (Except.ok.inj hread') hne
      · exact List.mem_append_right _ hb
  obtain ⟨front, back, hsplit⟩ := List.append_of_mem hother
  refine ⟨a, b, front ++ back, List.perm_middle.trans (.cons a ?_), hread, hread'⟩
  rw [hsplit]
  exact List.perm_middle

/-- Where the report does not depend on the order, no two different records have the same repository, number,
commit and time. -/
theorem key_injective_of_reports (rounded : Rat → Rat) {sha256 : String → String} (hsha : Function.Injective sha256)
    {outcomes : List (List (String × Json))} {records : List ShadowOutcome}
    (h : outcomes.mapM validateOutcome = .ok records)
    (hreports : ∀ order : List (List (String × Json)), order.Perm outcomes →
      buildShadowReport rounded sha256 order = buildShadowReport rounded sha256 outcomes) :
    ∀ r ∈ records, ∀ r' ∈ records, exportKey r = exportKey r' → r = r' := by
  intro r hr r' hr' hkey
  by_contra hne
  obtain ⟨a, b, rest, hperm, ha, hb⟩ := exists_pair h hr hr' hne
  obtain ⟨front, hfront, -⟩ := validated_perm hperm.symm h
  obtain ⟨tail, htail, hread⟩ : ∃ tail, front = r :: r' :: tail ∧ rest.mapM validateOutcome = .ok tail := by
    cases mapM_eq_ok.mp hfront with
    | cons hfirst hmore =>
      cases hmore with
      | cons hsecond hmore =>
        rw [ha] at hfirst
        rw [hb] at hsecond
        cases hfirst
        cases hsecond
        exact ⟨_, rfl, mapM_eq_ok.mpr hmore⟩
  have hback : (b :: a :: rest).mapM validateOutcome = .ok (r' :: r :: tail) :=
    mapM_eq_ok.mpr (.cons hb (.cons ha (mapM_eq_ok.mp hread)))
  -- the two reports are one, so the two fingerprints are
  obtain ⟨report, hreport, hdigest⟩ := buildShadowReport_ok rounded sha256 hfront
  obtain ⟨report', hreport', hdigest'⟩ := buildShadowReport_ok rounded sha256 hback
  rw [hreports _ hperm.symm] at hreport
  rw [hreports _ ((List.Perm.swap a b rest).trans hperm.symm), hreport] at hreport'
  cases hreport'
  rw [hdigest, htail] at hdigest'
  exact hne ((sortedBy_swap_iff hkey tail).mp (sorted_of_fingerprint hsha hdigest'))

/-- The report and its fingerprint are those of the outcomes, in any order, just when no two different records
have the same repository, number, commit and time. -/
theorem fingerprintSound_iff (rounded : Rat → Rat) {sha256 : String → String} (hsha : Function.Injective sha256)
    {outcomes : List (List (String × Json))} {records : List ShadowOutcome}
    (h : outcomes.mapM validateOutcome = .ok records) : FingerprintSound rounded sha256 outcomes ↔
      ∀ r ∈ records, ∀ r' ∈ records, exportKey r = exportKey r' → r = r' := by
  constructor
  · exact fun hsound => key_injective_of_reports rounded hsha h hsound.1
  · intro hkeys
    refine ⟨fun order hperm => ?_, fun others records₁ records₂ h₁ _ heq => perm_of_fingerprint hsha heq⟩
    obtain ⟨records', hrecords', hperm'⟩ := validated_perm hperm h
    have hsorted : sortedBy exportKey records' = sortedBy exportKey records :=
      sortedBy_perm hperm' fun r hr r' hr' => hkeys r (hperm'.mem_iff.mp hr) r' hr'
    have hfingerprint : canonicalShadowOutcomesSha256 sha256 records' =
        canonicalShadowOutcomesSha256 sha256 records := by
      rw [canonicalShadowOutcomesSha256, hsorted, ← canonicalShadowOutcomesSha256]
    rw [buildShadowReport, buildShadowReport, hrecords', h]
    exact reportOf_perm rounded sha256 hperm' hfingerprint

/-- A closure of one commit at one time, by what a reviewer said of its use. -/
def closureOf (utility : String) : List (String × Json) :=
  [("schema_version", .int 1), ("kind", .str outcomeKind), ("recorded_at", .str "2026-08-01"),
    ("subject", .obj [("repository", .str "a/b"), ("pr_number", .int 1), ("head_sha", .str "abcdef0")]),
    ("closure", .obj [("merged", .bool true)]),
    ("reviewer_signal", .obj [("risk", .str "not-reviewed"), ("utility", .str utility)]),
    ("recognized_labels", .arr []), ("source_observation", .null), ("limitations", .arr [.str "pilot"])]

def closureRecord (utility : String) : ShadowOutcome :=
  ⟨"2026-08-01", ⟨"a/b", 1, "abcdef0"⟩, true, ⟨"not-reviewed", utility⟩, [], none, ["pilot"]⟩

theorem closures_validated :
    validateOutcome (closureOf "useful") = .ok (closureRecord "useful") ∧
      validateOutcome (closureOf "not-useful") = .ok (closureRecord "not-useful") := by
  decide

theorem one_closure_sound : FingerprintSound Binary64.round id [closureOf "useful"] := by
  have hread : [closureOf "useful"].mapM validateOutcome = .ok [closureRecord "useful"] :=
    mapM_eq_ok.mpr (.cons closures_validated.1 .nil)
  refine (fingerprintSound_iff Binary64.round Function.injective_id hread).mpr fun r hr r' hr' _ => ?_
  rw [List.mem_singleton.mp hr, List.mem_singleton.mp hr']

/-- A second record of one closure, at the same time and with the other answer. -/
theorem second_answer_reordered :
    [closureOf "useful", closureOf "not-useful"].mapM validateOutcome =
        .ok [closureRecord "useful", closureRecord "not-useful"] ∧
      ¬FingerprintSound Binary64.round id [closureOf "useful", closureOf "not-useful"] := by
  have hread : [closureOf "useful", closureOf "not-useful"].mapM validateOutcome =
      .ok [closureRecord "useful", closureRecord "not-useful"] :=
    mapM_eq_ok.mpr (.cons closures_validated.1 (.cons closures_validated.2 .nil))
  refine ⟨hread, fun hsound => ?_⟩
  have hother : closureRecord "not-useful" ∈ [closureRecord "useful", closureRecord "not-useful"] :=
    List.mem_cons_of_mem _ List.mem_cons_self
  have heq := key_injective_of_reports Binary64.round Function.injective_id hread hsound.1
    (closureRecord "useful") List.mem_cons_self (closureRecord "not-useful") hother rfl
  simp [closureRecord] at heq

end EngineeringIntelligence.Feedback
