import Mathlib.Data.List.Lex
import Mathlib.Data.Prod.Lex
import Mathlib.Data.String.Basic
import EngineeringIntelligence.Framework.Joined
import EngineeringIntelligence.Framework.Sorted
import EngineeringIntelligence.PrGuardian.Evaluation

namespace EngineeringIntelligence.PrGuardian

open EngineeringIntelligence.Framework

/-! Architecture Guard on the changed files of a pull request, and the coverage it reports. -/

structure ArchitectureRule where
  ruleId : String
  pattern : String
  forbiddenMarkers : List String
  rationale : String
  severity : Int := 3

/-- The text of a changed file, or why it could not be reviewed. -/
structure FileContent where
  text : Option String
  skipReason : Option String := none

/-- What supplies the contents: the answer to a request, by the requests made before it. -/
abbrev ContentProvider := Nat → String → FileContent

section
variable (lower : String → String)

/-- `evaluate_architecture`; `lower` is Python's `str.lower`. -/
def evaluateArchitecture (path content : String) (rules : List ArchitectureRule) : List ArchitectureViolation :=
  rules.flatMap fun rule =>
    if fnmatch path rule.pattern then
      (rule.forbiddenMarkers.filter fun marker => hasInfix (lower content) (lower marker)).map fun marker =>
        ⟨rule.ruleId, path, marker, rule.rationale, rule.severity⟩
    else []

/-- The findings of `review_architecture`, in their order. -/
def orderedViolations (artifacts : List (String × String)) (rules : List ArchitectureRule) :
    List ArchitectureViolation :=
  sortedBy (fun v => toLex (-v.severity, toLex (v.path, toLex (v.ruleId, v.marker))))
    (artifacts.flatMap fun a => evaluateArchitecture lower a.1 a.2 rules)

/-- `_coverage_sentence`. -/
def coverageSentence (c : ArchitectureReview) : String :=
  if c.inScope = 0 then "No changed file was in scope for an architecture rule."
  else if c.reviewed = 0 then
    "Architecture Guard did not run: content was unavailable for all " ++ toString c.inScope ++
      " in-scope file(s), so nothing was reviewed."
  else
    "Reviewed " ++ toString c.reviewed ++ " of " ++ toString c.inScope ++ " in-scope file(s)." ++
      if c.skipped = [] then "" else " " ++ toString (c.skipped.length : Int) ++ " file(s) could not be reviewed."

/-- `architecture_summary_line`, around the sentence on the coverage. -/
def summaryAround (violations : List ArchitectureViolation) (reviewed : Int) (sentence : String) : String :=
  if reviewed = 0 then sentence
  else if violations = [] then "No architecture policy violations detected. " ++ sentence
  else
    toString violations.length ++ " architecture finding(s) across " ++
      toString (violations.map (·.path)).dedup.length ++ " file(s). " ++ sentence

def architectureSummaryLine (c : ArchitectureReview) : String :=
  summaryAround c.violations c.reviewed (coverageSentence c)

variable (provider : ContentProvider) (rules : List ArchitectureRule)

/-- Some rule could match the file. -/
def inScope (path : String) : Bool := rules.any fun rule => fnmatch path rule.pattern

/-- `max_skipped_reported`. -/
def maxSkippedReported : Nat := 32

/-- What the loop over the changed files has collected. -/
structure Collected where
  artifacts : List (String × String)
  skipped : List ArchitectureSkip
  inScope : Nat

/-- `result.skip_reason or "content unavailable"` -/
def FileContent.reason (c : FileContent) : String := ((c.skipReason.filter (· ≠ "")).getD "content unavailable")

/-- One changed file. -/
def collect (s : Collected) (path : String) : Collected :=
  if inScope rules path then
    match (provider s.inScope path).text with
    | none =>
      if s.skipped.length < maxSkippedReported then
        ⟨s.artifacts, s.skipped ++ [⟨path, (provider s.inScope path).reason⟩], s.inScope + 1⟩
      else ⟨s.artifacts, s.skipped, s.inScope + 1⟩
    | some text => ⟨s.artifacts ++ [(path, text)], s.skipped, s.inScope + 1⟩
  else s

def reviewChangedPaths (paths : List String) : ArchitectureReview :=
  let s := paths.foldl (collect provider rules) ⟨[], [], 0⟩
  let coverage : ArchitectureReview :=
    ⟨orderedViolations lower s.artifacts rules, s.inScope, s.artifacts.length, s.skipped, ""⟩
  { coverage with summary := architectureSummaryLine coverage }

def maxReviewedFiles : Nat := 200

/-- `evaluate_pull_request`: the first changed files are reviewed and the observation is written. -/
def evaluatePullRequest (event : PullRequestEvent) (review : PreparedReview) (mode : ProductMode)
    (decision : EnforcementDecision) : Except String ShadowObservation :=
  observationFromAssessment event
    { review with
      architecture := reviewChangedPaths lower provider rules (review.filenames.take maxReviewedFiles) } mode decision

end

/-! ### What an honest account says -/

section
variable (provider : ContentProvider) (rules : List ArchitectureRule)

/-- The answers to the requests for the files in scope, the first of which is the `n`-th. -/
def answers (n : Nat) (paths : List String) : List FileContent :=
  (paths.filter (inScope rules)).mapIdx fun i path => provider (n + i) path

/-- How many files in scope were read. -/
def readable (paths : List String) : Nat := (answers provider rules 0 paths).countP (·.text.isSome)

/-- How many could not be read. -/
def unreadable (paths : List String) : Nat := (answers provider rules 0 paths).countP (·.text.isNone)

/-- The sentence on the coverage, with the number of files it gives as not reviewed. -/
def sentenceSaying (inScope reviewed notReviewed : Int) : String :=
  if inScope = 0 then "No changed file was in scope for an architecture rule."
  else if reviewed = 0 then
    "Architecture Guard did not run: content was unavailable for all " ++ toString notReviewed ++
      " in-scope file(s), so nothing was reviewed."
  else
    "Reviewed " ++ toString reviewed ++ " of " ++ toString inScope ++ " in-scope file(s)." ++
      if notReviewed = 0 then "" else " " ++ toString notReviewed ++ " file(s) could not be reviewed."

/-- The account a review of the changed files owes. -/
structure Honest (files : List String) (a : ArchitectureReview) : Prop where
  inScope : a.inScope = files.countP (inScope rules)
  reviewed : a.reviewed = readable provider rules (files.take maxReviewedFiles)
  said : a.summary = summaryAround a.violations a.reviewed
    (sentenceSaying a.inScope a.reviewed (a.inScope - a.reviewed))

/-- No file in scope is behind the cut, and as many of those before it as the list of skipped files takes
could not be read, unless none could. -/
structure WithinLimits (files : List String) : Prop where
  uncut : ∀ path ∈ files.drop maxReviewedFiles, inScope rules path = false
  listed : unreadable provider rules (files.take maxReviewedFiles) ≤ maxSkippedReported ∨
    readable provider rules (files.take maxReviewedFiles) = 0

end

/-! ### The loop -/

section
variable {lower : String → String} {provider : ContentProvider} {rules : List ArchitectureRule}

theorem answers_cons_inScope {path : String} (h : inScope rules path = true) (n : Nat) (paths : List String) :
    answers provider rules n (path :: paths) = provider n path :: answers provider rules (n + 1) paths := by
  have hshift : (fun i path => provider (n + 1 + i) path) = fun i path => provider (n + (i + 1)) path := by
    funext i path
    rw [Nat.add_assoc, Nat.add_comm 1 i]
  rw [answers, answers, List.filter_cons_of_pos h, List.mapIdx_cons, Nat.add_zero, hshift]

theorem answers_cons_out {path : String} (h : inScope rules path = false) (n : Nat) (paths : List String) :
    answers provider rules n (path :: paths) = answers provider rules n paths := by
  rw [answers, answers, List.filter_cons_of_neg (by simp [h])]

/-- What the loop collects is counted by the answers. -/
theorem collected (paths : List String) (s : Collected) (hs : s.skipped.length ≤ maxSkippedReported) :
    (paths.foldl (collect provider rules) s).inScope = s.inScope + (answers provider rules s.inScope paths).length ∧
    (paths.foldl (collect provider rules) s).artifacts.length =
      s.artifacts.length + (answers provider rules s.inScope paths).countP (·.text.isSome) ∧
    (paths.foldl (collect provider rules) s).skipped.length =
      min maxSkippedReported
        (s.skipped.length + (answers provider rules s.inScope paths).countP (·.text.isNone)) := by
  induction paths generalizing s with
  | nil => simpa [answers] using hs
  | cons path paths ih =>
    rw [List.foldl_cons]
    cases hscope : inScope rules path with
    | false =>
      rw [answers_cons_out hscope, collect, if_neg (by simp [hscope])]
      exact ih s hs
    | true =>
      rw [answers_cons_inScope hscope, collect, if_pos hscope]
      cases htext : (provider s.inScope path).text with
      | none =>
        rw [List.length_cons, List.countP_cons_of_neg (by simp [htext]), List.countP_cons_of_pos (by simp [htext])]
        dsimp only
        split
        · next hroom =>
          have hlength : (s.skipped ++ [ArchitectureSkip.mk path (provider s.inScope path).reason]).length =
              s.skipped.length + 1 := by
            rw [List.length_append, List.length_singleton]
          obtain ⟨hin, hread, hskipped⟩ := ih ⟨s.artifacts, s.skipped ++ [⟨path, (provider s.inScope path).reason⟩],
            s.inScope + 1⟩ (by rw [hlength]; omega)
          rw [hlength] at hskipped
          rw [hin, hread, hskipped]
          dsimp only
          omega
        · next hfull =>
          obtain ⟨hin, hread, hskipped⟩ := ih ⟨s.artifacts, s.skipped, s.inScope + 1⟩ hs
          rw [hin, hread, hskipped]
          dsimp only
          omega
      | some text =>
        rw [List.length_cons, List.countP_cons_of_pos (by simp [htext]), List.countP_cons_of_neg (by simp [htext])]
        obtain ⟨hin, hread, hskipped⟩ := ih ⟨s.artifacts ++ [(path, text)], s.skipped, s.inScope + 1⟩ hs
        rw [List.length_append, List.length_singleton] at hread
        dsimp only
        rw [hin, hread, hskipped]
        dsimp only
        omega

theorem length_answers (n : Nat) (paths : List String) :
    (answers provider rules n paths).length = paths.countP (inScope rules) := by
  rw [answers, List.length_mapIdx, List.countP_eq_length_filter]

/-- Every file in scope was read, or was not. -/
theorem readable_add_unreadable (paths : List String) :
    readable provider rules paths + unreadable provider rules paths = paths.countP (inScope rules) := by
  have hcount : ∀ contents : List FileContent,
      contents.countP (·.text.isSome) + contents.countP (·.text.isNone) = contents.length := by
    intro contents
    induction contents with
    | nil => rfl
    | cons c contents ih =>
      cases htext : c.text <;>
        simp only [List.countP_cons, htext, Option.isSome_none, Option.isNone_none, Option.isSome_some,
          Option.isNone_some, List.length_cons] <;> simp <;> omega
  rw [readable, unreadable, hcount, length_answers]

section
variable (lower provider rules) (paths : List String)

theorem review_counts :
    (reviewChangedPaths lower provider rules paths).inScope = paths.countP (inScope rules) ∧
    (reviewChangedPaths lower provider rules paths).reviewed = readable provider rules paths ∧
    (reviewChangedPaths lower provider rules paths).skipped.length =
      min maxSkippedReported (unreadable provider rules paths) := by
  have hcollected := @collected provider rules paths ⟨[], [], 0⟩ (Nat.zero_le _)
  simp only [Nat.zero_add, List.length_nil, length_answers] at hcollected
  obtain ⟨hin, hread, hskipped⟩ := hcollected
  exact ⟨congrArg Nat.cast hin, congrArg Nat.cast hread, hskipped⟩

theorem review_summary :
    (reviewChangedPaths lower provider rules paths).summary =
      summaryAround (reviewChangedPaths lower provider rules paths).violations
        (reviewChangedPaths lower provider rules paths).reviewed
        (coverageSentence (reviewChangedPaths lower provider rules paths)) := rfl

end

/-! ### The summary -/

theorem summaryAround_inj {violations : List ArchitectureViolation} {reviewed : Int} {sentence sentence' : String} :
    summaryAround violations reviewed sentence = summaryAround violations reviewed sentence' ↔ sentence = sentence' := by
  unfold summaryAround
  split_ifs
  · rfl
  · rw [String.append_right_inj]
  · rw [String.append_right_inj]

/-- The sentence gives the number of files not reviewed when all of them are listed. -/
theorem coverageSentence_honest_iff {c : ArchitectureReview} {unread : Nat} (hunread : c.inScope - c.reviewed = unread)
    (hskipped : c.skipped.length = min maxSkippedReported unread) (hreviewed : 0 ≤ c.reviewed) :
    coverageSentence c = sentenceSaying c.inScope c.reviewed (c.inScope - c.reviewed) ↔
      unread ≤ maxSkippedReported ∨ c.reviewed = 0 := by
  unfold coverageSentence sentenceSaying
  by_cases hscope : c.inScope = 0
  · rw [if_pos hscope, if_pos hscope]
    exact iff_of_true rfl (.inl (by omega))
  · rw [if_neg hscope, if_neg hscope]
    by_cases hzero : c.reviewed = 0
    · have hall : c.inScope - c.reviewed = c.inScope := by omega
      rw [if_pos hzero, if_pos hzero, hall]
      exact iff_of_true rfl (.inr hzero)
    · rw [if_neg hzero, if_neg hzero, String.append_right_inj, or_iff_left hzero, hunread]
      by_cases hnone : unread = 0
      · have hnil : c.skipped = [] := List.length_eq_zero_iff.mp (by omega)
        rw [if_pos hnil, hnone, if_pos (show ((0 : Nat) : Int) = 0 from rfl)]
        exact iff_of_true rfl (Nat.zero_le _)
      · have hsome : c.skipped ≠ [] := by
          intro hnil
          rw [hnil, List.length_nil] at hskipped
          unfold maxSkippedReported at hskipped
          omega
        rw [if_neg hsome, if_neg (by omega), String.append_left_inj, String.append_right_inj, hskipped]
        constructor
        · intro htext
          have hnumber := numeral_injective htext
          omega
        · intro hle
          rw [Nat.min_eq_right hle]

theorem honest_review_iff (lower : String → String) (files : List String) :
    Honest provider rules files (reviewChangedPaths lower provider rules (files.take maxReviewedFiles)) ↔
      WithinLimits provider rules files := by
  obtain ⟨hscope, hreviewed, hskipped⟩ := review_counts lower provider rules (files.take maxReviewedFiles)
  have hsum := @readable_add_unreadable provider rules (files.take maxReviewedFiles)
  have hcut : files.countP (inScope rules) =
      (files.take maxReviewedFiles).countP (inScope rules) + (files.drop maxReviewedFiles).countP (inScope rules) := by
    rw [← List.countP_append, List.take_append_drop]
  have hunread : (reviewChangedPaths lower provider rules (files.take maxReviewedFiles)).inScope -
      (reviewChangedPaths lower provider rules (files.take maxReviewedFiles)).reviewed =
        unreadable provider rules (files.take maxReviewedFiles) := by
    rw [hscope, hreviewed]
    omega
  have hsentence := coverageSentence_honest_iff hunread hskipped (by rw [hreviewed]; omega)
  constructor
  · rintro ⟨hin, -, hsaid⟩
    rw [review_summary, summaryAround_inj, hsentence, hreviewed] at hsaid
    rw [hscope] at hin
    refine ⟨?_, hsaid.imp_right fun hzero => by omega⟩
    intro path hpath
    have hnone : (files.drop maxReviewedFiles).countP (inScope rules) = 0 := by omega
    simpa using List.countP_eq_zero.mp hnone path hpath
  · rintro ⟨huncut, hlisted⟩
    have hnone : (files.drop maxReviewedFiles).countP (inScope rules) = 0 :=
      List.countP_eq_zero.mpr fun path hpath => by simp [huncut path hpath]
    refine ⟨?_, hreviewed, ?_⟩
    · rw [hscope]
      omega
    · rw [review_summary, summaryAround_inj, hsentence, hreviewed]
      exact hlisted.imp_right fun hzero => by omega

end

/-! ### The observation -/

section
variable {α : Type} {read : String → Json → Except String α} {asDict : α → Json}

/-- Records that are read from what was written are those. -/
theorem records_of_asDict (hread : ∀ name x x', read name (asDict x) = .ok x' → x' = x) {name : String}
    {xs : List α} {index : Nat} {ys : List α} (h : records read name index (xs.map asDict) = .ok ys) : ys = xs := by
  induction xs generalizing index ys with
  | nil =>
    cases h
    rfl
  | cons x xs ih =>
    obtain ⟨x', hx, h⟩ := bind_eq_ok_iff.mp h
    obtain ⟨rest, hrest, h⟩ := bind_eq_ok_iff.mp h
    cases h
    rw [hread _ _ _ hx, ih hrest]

theorem recordList_of_asDict (hread : ∀ name x x', read name (asDict x) = .ok x' → x' = x) {name : String}
    {maximum : Nat} {xs ys : List α} (h : recordList read name maximum (.arr (xs.map asDict)) = .ok ys) : ys = xs :=
  records_of_asDict hread (ite_error_eq_ok_iff.mp h).2

end

theorem validateArchitectureViolation_of_asDict (name : String) (v v' : ArchitectureViolation)
    (h : validateArchitectureViolation name v.asDict = .ok v') : v' = v := by
  simp only [validateArchitectureViolation, ArchitectureViolation.asDict, mapping_obj, exactKeys_of_keys,
    List.map_cons, List.map_nil, Json.get, List.lookup, String.reduceBEq, Option.getD_some, ok_bind,
    bind_eq_ok_iff, string_eq_ok_iff, integer_eq_ok_iff] at h
  obtain ⟨ruleId, ⟨hrule, -⟩, path, ⟨hpath, -⟩, marker, ⟨hmarker, -⟩, rationale, ⟨hrationale, -⟩, severity,
    ⟨hseverity, -⟩, h⟩ := h
  cases hrule
  cases hpath
  cases hmarker
  cases hrationale
  cases hseverity
  cases h
  rfl

theorem validateArchitectureSkip_of_asDict (name : String) (s s' : ArchitectureSkip)
    (h : validateArchitectureSkip name s.asDict = .ok s') : s' = s := by
  simp only [validateArchitectureSkip, ArchitectureSkip.asDict, mapping_obj, exactKeys_of_keys, List.map_cons,
    List.map_nil, Json.get, List.lookup, String.reduceBEq, Option.getD_some, ok_bind, bind_eq_ok_iff,
    string_eq_ok_iff] at h
  obtain ⟨path, ⟨hpath, -⟩, reason, ⟨hreason, -⟩, h⟩ := h
  cases hpath
  cases hreason
  cases h
  rfl

/-- A review that is accepted is accepted as it is. -/
theorem validateArchitecture_of_asDict {r a : ArchitectureReview} (h : validateArchitecture r.asDict = .ok a) :
    a = r := by
  have hdefaults : coverageDefaults.map Prod.fst ⊆
      ["violations", "in_scope", "reviewed", "skipped", "summary"] := by
    simp [coverageDefaults]
  simp only [validateArchitecture, ArchitectureReview.asDict, mapping_obj, exactKeys_withDefaults,
    hdefaults, List.map_cons, List.map_nil, get_withDefaults, List.mem_cons, String.reduceEq, true_or,
    false_or, ok_bind] at h
  simp only [Json.get, List.lookup, String.reduceBEq, Option.getD_some, bind_eq_ok_iff,
    ite_error_eq_ok_iff, string_eq_ok_iff, integer_eq_ok_iff] at h
  obtain ⟨violations, hviolations, skipped, hskipped, reviewed, ⟨hreviewed, -⟩, inScope, ⟨hscope, -⟩, -, -, summary,
    ⟨hsummary, -⟩, h⟩ := h
  cases hreviewed
  cases hscope
  cases hsummary
  cases h
  rw [recordList_of_asDict validateArchitectureViolation_of_asDict hviolations,
    recordList_of_asDict validateArchitectureSkip_of_asDict hskipped]

/-- An observation carries the review it was made from. -/
theorem observation_architecture {event : PullRequestEvent} {review : PreparedReview} {mode : ProductMode}
    {decision : EnforcementDecision} {o : ShadowObservation}
    (h : observationFromAssessment event review mode decision = .ok o) : o.architecture = review.architecture := by
  simp only [observationFromAssessment, validateObservation, bind_eq_ok_iff] at h
  obtain ⟨envelope, henvelope, m, -, enforcement, -, architecture, harchitecture, at', -, subject, -, assessment, -,
    services, -, policy, -, workflow, -, h⟩ := h
  cases h
  rw [observationEnvelope_eq henvelope] at harchitecture
  simp only [get_withDefaults, observationRecord, List.map_cons, List.map_nil, List.mem_cons, String.reduceEq,
    true_or, false_or] at harchitecture
  simp only [Json.get, List.lookup, String.reduceBEq, Option.getD_some] at harchitecture
  exact validateArchitecture_of_asDict harchitecture

/-- The coverage of an observation is honest when no file in scope is behind the cut, and when the list of
skipped files has room for those that could not be read or nothing was read. -/
theorem coverage_honest_iff (lower : String → String) (provider : ContentProvider) (rules : List ArchitectureRule)
    (event : PullRequestEvent) (review : PreparedReview) (mode : ProductMode) (decision : EnforcementDecision)
    {o : ShadowObservation} (h : evaluatePullRequest lower provider rules event review mode decision = .ok o) :
    Honest provider rules review.filenames o.architecture ↔ WithinLimits provider rules review.filenames := by
  rw [observation_architecture h]
  exact honest_review_iff lower review.filenames

/-- A pull request that changes these files. -/
def terraformReview (files : List String) : PreparedReview where
  filenames := files
  assessment := ⟨12, "low", [⟨"infrastructure-change", 12, "IaC or deployment infrastructure changed"⟩]⟩
  changedServices := ["payments"]
  simulatedPolicy := ⟨false, false, false⟩
  workflowId := "pr-review-7"
  auditChainVerified := true
  architecture := ⟨[], 0, 0, [], "Architecture Guard did not run for this evaluation."⟩
  observedAt := "2026-06-01T09:00:00+00:00"

def privateEndpoints : ArchitectureRule :=
  ⟨"EIP-ARCH-001", "*.tf", ["public_network_access_enabled = true"],
    "Managed data planes must stay on private endpoints.", 4⟩

/-- Only the first file can be read. -/
def firstOnly : ContentProvider := fun n _ =>
  if n = 0 then ⟨some "tags = {}", none⟩ else ⟨none, some "contents API returned 404"⟩

def terraformObservation (files : List String) : Except String ShadowObservation :=
  evaluatePullRequest id firstOnly [privateEndpoints] ⟨"acme/payments", 7, "8f14e45f", "opened"⟩
    (terraformReview files) .shadow ⟨false, .modeNotEnforcing, none, none⟩

theorem two_files_honest_iff :
    ∃ o, terraformObservation ["main.tf", "old.tf", "README.md"] = .ok o ∧
      (Honest firstOnly [privateEndpoints] ["main.tf", "old.tf", "README.md"] o.architecture ↔
        WithinLimits firstOnly [privateEndpoints] ["main.tf", "old.tf", "README.md"]) := by
  have hok : (terraformObservation ["main.tf", "old.tf", "README.md"]).isOk = true := by decide +kernel
  obtain ⟨o, ho⟩ := isOk_iff.mp hok
  exact ⟨o, ho, coverage_honest_iff id firstOnly [privateEndpoints] _ _ _ _ ho⟩

/-- One file that is read and thirty-three that are deleted. -/
def deletedModules : List String := "main.tf" :: (List.range 33).map fun i => toString i ++ ".tf"

/-- The summary leaves the thirty-third out. -/
theorem thirty_third_left_out :
    ¬ ∀ (lower : String → String) (provider : ContentProvider) (rules : List ArchitectureRule)
      (event : PullRequestEvent) (review : PreparedReview) (mode : ProductMode) (decision : EnforcementDecision)
      (o : ShadowObservation), evaluatePullRequest lower provider rules event review mode decision = .ok o →
        Honest provider rules review.filenames o.architecture := by
  intro h
  have hok : (terraformObservation deletedModules).isOk = true := by decide +kernel
  obtain ⟨o, ho⟩ := isOk_iff.mp hok
  have hhonest := h id firstOnly [privateEndpoints] _ _ _ _ o ho
  rw [observation_architecture ho] at hhonest
  have hlisted := ((honest_review_iff id deletedModules).mp hhonest).listed
  exact absurd hlisted (by decide)

end EngineeringIntelligence.PrGuardian
