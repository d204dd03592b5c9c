import EngineeringIntelligence.Framework.Sorted
import EngineeringIntelligence.Remediation.Certification
import Mathlib.Data.List.Lex
import Mathlib.Data.String.Basic

namespace EngineeringIntelligence.Resilience

open EngineeringIntelligence.Framework
open EngineeringIntelligence.Remediation

inductive ExerciseKind where
  | successfulRemediation | verificationFailure | rollback | killSwitch | policyOutage | auditOutage
  | errorBudgetExhausted
  deriving DecidableEq, Repr

def ExerciseKind.value : ExerciseKind → String
  | successfulRemediation => "successful_remediation"
  | verificationFailure => "verification_failure"
  | rollback => "rollback"
  | killSwitch => "kill_switch"
  | policyOutage => "policy_outage"
  | auditOutage => "audit_outage"
  | errorBudgetExhausted => "error_budget_exhausted"

structure ExerciseResult where
  kind : ExerciseKind
  passed : Bool
  service : String
  environment : String
  runbookId : String
  observedBlastRadius : Int
  evidenceRef : String
  evidenceGrade : String
  deriving DecidableEq

/-- What the gate reads of a retained evidence record. -/
structure EvidenceRecord where
  evidenceId : String
  scope : String
  basis : String
  decision : String
  controls : List String
  deriving DecidableEq

def l3RequiredKinds : List ExerciseKind :=
  [.successfulRemediation, .verificationFailure, .rollback, .killSwitch, .policyOutage, .auditOutage]

def l4RequiredKinds : List ExerciseKind := l3RequiredKinds ++ [.errorBudgetExhausted]

def mandatoryL4Evidence : List String :=
  ["rollback-exercised", "kill-switch-exercised", "independent-verification", "security-review",
    "error-budget-enforced", "policy-fail-closed", "audit-fail-closed",
    "blast-radius-within-budget", "minimum-successful-exercises"]

def minSuccessfulExercises : Nat := l4RequiredKinds.length

def exerciseBackedControls : List (ExerciseKind × String) :=
  [(.rollback, "rollback-exercised"), (.killSwitch, "kill-switch-exercised"),
    (.errorBudgetExhausted, "error-budget-enforced"), (.policyOutage, "policy-fail-closed"),
    (.auditOutage, "audit-fail-closed")]

def attestedControls : List String := ["independent-verification", "security-review"]

def l4EvidenceDecision : String := "l4-promotion"

def rehearsalGrade : String := "rehearsal"

def nonAttestingBases : List String := ["modeled"]

/-- The `scope` text an evidence record must carry for a scope. -/
def evidenceScope (s : CertificationScope) : String :=
  s.service ++ "/" ++ s.environment ++ "/" ++ s.runbookId

/-- `_attests`. -/
def attests (record : EvidenceRecord) (scope : CertificationScope) (control : String) : Bool :=
  record.decision = l4EvidenceDecision && strip record.scope = evidenceScope scope &&
    !nonAttestingBases.contains (lower (strip record.basis)) &&
    (record.controls.map strip).contains control

/-- Whether an exercise is of a scope's service, environment and runbook. -/
def ofScope (scope : CertificationScope) (e : ExerciseResult) : Bool :=
  e.service = scope.service && e.environment = scope.environment && e.runbookId = scope.runbookId

def ExerciseResult.rehearsal (e : ExerciseResult) : Bool :=
  lower (strip e.evidenceGrade) = rehearsalGrade

def ExerciseResult.asdict (e : ExerciseResult) : Json :=
  .obj [("kind", .str e.kind.value), ("passed", .bool e.passed), ("service", .str e.service),
    ("environment", .str e.environment), ("runbook_id", .str e.runbookId),
    ("observed_blast_radius", .int e.observedBlastRadius), ("evidence_ref", .str e.evidenceRef),
    ("evidence_grade", .str e.evidenceGrade)]

structure Eligibility where
  eligible : Bool
  missing : List String
  countedExercises : Nat
  rejectedRehearsals : Nat
  exercisesDigest : String
  evidenceIds : List String
  deriving DecidableEq

/-- `_digest`. -/
def exercisesDigest (sha256 : String → String) (exercises : List ExerciseResult) : String :=
  "sha256:" ++ sha256 (Json.arr ((sortedBy (fun e : ExerciseResult => [e.kind.value, e.evidenceRef])
    exercises).map (·.asdict))).dumps

/-- The dictionary `satisfied`: each control with whether it is met. -/
def satisfied (scope : CertificationScope) (passed : List ExerciseResult)
    (evidenceRecords : List EvidenceRecord) : List (String × Bool) :=
  (exerciseBackedControls.map fun p => (p.2, passed.any fun e => e.kind = p.1)) ++
  (attestedControls.map fun control =>
    (control, evidenceRecords.any fun record => attests record scope control)) ++
  [("blast-radius-within-budget",
      passed.all fun e => e.observedBlastRadius ≤ scope.blastRadiusBudget),
    ("minimum-successful-exercises", minSuccessfulExercises ≤ passed.length)]

def evaluateL4Eligibility (sha256 : String → String) (scope : CertificationScope)
    (exercises : List ExerciseResult) (evidenceRecords : List EvidenceRecord) : Eligibility :=
  let relevant := exercises.filter (ofScope scope)
  let graded := relevant.filter fun e => !e.rehearsal
  let rejected := relevant.length - graded.length
  let passed := graded.filter (·.passed)
  let failed := graded.filter fun e => !e.passed
  let missing :=
    (mandatoryL4Evidence.filter fun name =>
      !((satisfied scope passed evidenceRecords).lookup name).getD false) ++
    (if failed = [] then [] else ["failed-exercise-present"]) ++
    (if passed.any fun e => strip e.evidenceRef = "" then ["missing-evidence-reference"] else []) ++
    (if rejected = 0 then [] else ["rehearsal-graded-exercises-excluded"])
  { eligible := missing = []
    missing := missing
    countedExercises := passed.length
    rejectedRehearsals := rejected
    exercisesDigest := exercisesDigest sha256 passed
    evidenceIds := sortedSet ((evidenceRecords.filter fun record =>
      attestedControls.any (attests record scope)).map (·.evidenceId)) }

/-- What the gate asks for, item by item. -/
structure GateOpen (scope : CertificationScope) (exercises : List ExerciseResult)
    (evidenceRecords : List EvidenceRecord) : Prop where
  graded : ∀ e ∈ exercises, ofScope scope e → e.rehearsal = false
  passed : ∀ e ∈ exercises, ofScope scope e → e.passed = true
  referenced : ∀ e ∈ exercises, ofScope scope e → strip e.evidenceRef ≠ ""
  bounded : ∀ e ∈ exercises, ofScope scope e → e.observedBlastRadius ≤ scope.blastRadiusBudget
  enough : minSuccessfulExercises ≤ (exercises.filter (ofScope scope)).length
  backed : ∀ p ∈ exerciseBackedControls, ∃ e ∈ exercises, ofScope scope e ∧ e.kind = p.1
  attested : ∀ control ∈ attestedControls, ∃ record ∈ evidenceRecords, attests record scope control

/-- The scope's exercises and records certify it: every required kind was exercised with success,
nothing of the scope failed or was a rehearsal, and both judgements were signed for. -/
structure Certified (scope : CertificationScope) (exercises : List ExerciseResult)
    (evidenceRecords : List EvidenceRecord) : Prop where
  exercised : ∀ kind ∈ l4RequiredKinds, ∃ e ∈ exercises, ofScope scope e ∧ e.kind = kind ∧
    e.passed = true ∧ e.rehearsal = false ∧ strip e.evidenceRef ≠ "" ∧
      e.observedBlastRadius ≤ scope.blastRadiusBudget
  clean : ∀ e ∈ exercises, ofScope scope e → e.passed = true ∧ e.rehearsal = false
  attested : ∀ control ∈ attestedControls, ∃ record ∈ evidenceRecords, attests record scope control

section
variable (scope : CertificationScope) (exercises : List ExerciseResult)
  (evidenceRecords : List EvidenceRecord)

/-- Nothing of the nine mandatory items is missing. -/
theorem mandatory_met_iff (passed : List ExerciseResult) :
    (mandatoryL4Evidence.filter fun name =>
        !((satisfied scope passed evidenceRecords).lookup name).getD false) = [] ↔
      (∀ p ∈ exerciseBackedControls, ∃ e ∈ passed, e.kind = p.1) ∧
      (∀ control ∈ attestedControls, ∃ record ∈ evidenceRecords, attests record scope control) ∧
      (∀ e ∈ passed, e.observedBlastRadius ≤ scope.blastRadiusBudget) ∧
      minSuccessfulExercises ≤ passed.length := by
  rw [List.filter_eq_nil_iff]
  simp only [mandatoryL4Evidence, satisfied, exerciseBackedControls, attestedControls]
  simp [List.lookup_cons]
  tauto

/-- The scope's exercises when none of them is a rehearsal, and none failed. -/
theorem graded_eq_of_clean
    (hgraded : ∀ e ∈ exercises, ofScope scope e → e.rehearsal = false) :
    ((exercises.filter (ofScope scope)).filter fun e => !e.rehearsal) =
      exercises.filter (ofScope scope) := by
  apply List.filter_eq_self.mpr
  intro e he
  obtain ⟨hmem, hscope⟩ := List.mem_filter.mp he
  simp [hgraded e hmem hscope]

theorem rejected_eq_zero_iff :
    (exercises.filter (ofScope scope)).length -
        ((exercises.filter (ofScope scope)).filter fun e => !e.rehearsal).length = 0 ↔
      ∀ e ∈ exercises, ofScope scope e → e.rehearsal = false := by
  constructor
  · intro h
    have hlen : ((exercises.filter (ofScope scope)).filter fun e => !e.rehearsal).length =
        (exercises.filter (ofScope scope)).length := by
      have := List.length_filter_le (fun e => !e.rehearsal) (exercises.filter (ofScope scope))
      omega
    have hall := List.length_filter_eq_length_iff.mp hlen
    intro e he hscope
    simpa using hall e (List.mem_filter.mpr ⟨he, hscope⟩)
  · intro h
    rw [graded_eq_of_clean scope exercises h]
    omega

theorem passed_eq_of_clean (hpassed : ∀ e ∈ exercises, ofScope scope e → e.passed = true) :
    (exercises.filter (ofScope scope)).filter (·.passed) = exercises.filter (ofScope scope) := by
  apply List.filter_eq_self.mpr
  intro e he
  obtain ⟨hmem, hscope⟩ := List.mem_filter.mp he
  exact hpassed e hmem hscope

theorem eligible_iff (sha256 : String → String) :
    (evaluateL4Eligibility sha256 scope exercises evidenceRecords).eligible = true ↔
      GateOpen scope exercises evidenceRecords := by
  simp only [evaluateL4Eligibility, decide_eq_true_eq, List.append_eq_nil_iff, mandatory_met_iff,
    ite_eq_left_iff, ite_eq_right_iff, List.cons_ne_nil, imp_false, not_not, rejected_eq_zero_iff]
  constructor
  · intro h
    obtain ⟨⟨⟨⟨hbacked, hattested, hbounded, henough⟩, hfailed⟩, href⟩, hgraded⟩ := h
    rw [graded_eq_of_clean scope exercises hgraded] at hbacked hbounded henough hfailed href
    have hpassed : ∀ e ∈ exercises, ofScope scope e → e.passed = true := by
      intro e he hscope
      simpa using List.filter_eq_nil_iff.mp hfailed e (List.mem_filter.mpr ⟨he, hscope⟩)
    rw [passed_eq_of_clean scope exercises hpassed] at hbacked hbounded henough href
    refine ⟨hgraded, hpassed, ?_, ?_, henough, ?_, hattested⟩
    · intro e he hscope hblank
      exact href (List.any_eq_true.mpr ⟨e, List.mem_filter.mpr ⟨he, hscope⟩, by simpa using hblank⟩)
    · intro e he hscope
      exact hbounded e (List.mem_filter.mpr ⟨he, hscope⟩)
    · intro p hp
      obtain ⟨e, he, hkind⟩ := hbacked p hp
      obtain ⟨hmem, hscope⟩ := List.mem_filter.mp he
      exact ⟨e, hmem, hscope, hkind⟩
  · intro h
    rw [graded_eq_of_clean scope exercises h.graded, passed_eq_of_clean scope exercises h.passed]
    refine ⟨⟨⟨⟨?_, h.attested, ?_, h.enough⟩, ?_⟩, ?_⟩, h.graded⟩
    · intro p hp
      obtain ⟨e, he, hscope, hkind⟩ := h.backed p hp
      exact ⟨e, List.mem_filter.mpr ⟨he, hscope⟩, hkind⟩
    · intro e he
      obtain ⟨hmem, hscope⟩ := List.mem_filter.mp he
      exact h.bounded e hmem hscope
    · apply List.filter_eq_nil_iff.mpr
      intro e he
      obtain ⟨hmem, hscope⟩ := List.mem_filter.mp he
      simp [h.passed e hmem hscope]
    · intro hblank
      obtain ⟨e, he, href⟩ := List.any_eq_true.mp hblank
      obtain ⟨hmem, hscope⟩ := List.mem_filter.mp he
      exact h.referenced e hmem hscope (by simpa using href)

/-- The two kinds that no mandatory item names. -/
def unbackedKinds : List ExerciseKind := [.successfulRemediation, .verificationFailure]

theorem mem_l4RequiredKinds {kind : ExerciseKind} (h : kind ∈ l4RequiredKinds) :
    kind ∈ unbackedKinds ∨ ∃ p ∈ exerciseBackedControls, p.1 = kind := by
  revert h
  cases kind <;> decide

/-- An open gate certifies the scope, the two unbacked kinds apart. -/
theorem GateOpen.certified_iff {scope : CertificationScope} {exercises : List ExerciseResult}
    {evidenceRecords : List EvidenceRecord} (h : GateOpen scope exercises evidenceRecords) :
    Certified scope exercises evidenceRecords ↔
      ∀ kind ∈ unbackedKinds, ∃ e ∈ exercises, ofScope scope e ∧ e.kind = kind := by
  constructor
  · intro hcertified kind hkind
    have hrequired : kind ∈ l4RequiredKinds := by
      revert hkind
      cases kind <;> decide
    obtain ⟨e, he, hscope, hk, -⟩ := hcertified.exercised kind hrequired
    exact ⟨e, he, hscope, hk⟩
  · intro hunbacked
    have hall : ∀ kind ∈ l4RequiredKinds, ∃ e ∈ exercises, ofScope scope e ∧ e.kind = kind := by
      intro kind hkind
      rcases mem_l4RequiredKinds hkind with hk | ⟨p, hp, rfl⟩
      · exact hunbacked kind hk
      · exact h.backed p hp
    refine ⟨?_, fun e he hscope => ⟨h.passed e he hscope, h.graded e he hscope⟩, h.attested⟩
    intro kind hkind
    obtain ⟨e, he, hscope, hk⟩ := hall kind hkind
    exact ⟨e, he, hscope, hk, h.passed e he hscope, h.graded e he hscope, h.referenced e he hscope,
      h.bounded e he hscope⟩

/-- Whether a record is of a scope. -/
def recordOfScope (scope : CertificationScope) (record : EvidenceRecord) : Bool :=
  strip record.scope = evidenceScope scope

theorem attests_recordOfScope {scope : CertificationScope} {record : EvidenceRecord}
    {control : String} (h : attests record scope control = true) :
    recordOfScope scope record = true := by
  simp only [attests, Bool.and_eq_true] at h
  exact h.1.1.2

/-- A filter that keeps only records of the scope sees nothing of the others. -/
theorem filter_of_scope {scope : CertificationScope} {q : EvidenceRecord → Bool}
    (hq : ∀ record, q record = true → recordOfScope scope record = true)
    (records : List EvidenceRecord) :
    records.filter q = (records.filter (recordOfScope scope)).filter q := by
  rw [List.filter_filter]
  apply List.filter_congr
  intro record _
  cases h : q record with
  | false => rfl
  | true => simp [hq record h]

/-- The verdict depends on nothing but the scope's own exercises and records. -/
theorem evaluate_congr (sha256 : String → String) {exercises' : List ExerciseResult}
    {evidenceRecords' : List EvidenceRecord}
    (hexercises : exercises'.filter (ofScope scope) = exercises.filter (ofScope scope))
    (hrecords : evidenceRecords'.filter (recordOfScope scope) =
      evidenceRecords.filter (recordOfScope scope)) :
    evaluateL4Eligibility sha256 scope exercises' evidenceRecords' =
      evaluateL4Eligibility sha256 scope exercises evidenceRecords := by
  have hany : ∀ control, (evidenceRecords'.any fun r => attests r scope control) =
      evidenceRecords.any fun r => attests r scope control := by
    intro control
    have hfilter : ∀ records : List EvidenceRecord,
        (records.any fun r => attests r scope control) =
          ((records.filter (recordOfScope scope)).any fun r => attests r scope control) := by
      intro records
      rw [List.any_filter]
      apply List.any_congr rfl
      intro record
      cases h : attests record scope control with
      | false => simp
      | true => simp [attests_recordOfScope h]
    rw [hfilter, hrecords, ← hfilter]
  have hids : (evidenceRecords'.filter fun r => attestedControls.any (attests r scope)) =
      evidenceRecords.filter fun r => attestedControls.any (attests r scope) := by
    have hq : ∀ record : EvidenceRecord, attestedControls.any (attests record scope) = true →
        recordOfScope scope record = true := by
      intro record h
      obtain ⟨control, -, hc⟩ := List.any_eq_true.mp h
      exact attests_recordOfScope hc
    rw [filter_of_scope hq evidenceRecords', hrecords, ← filter_of_scope hq evidenceRecords]
  have hsatisfied : ∀ passed, satisfied scope passed evidenceRecords' =
      satisfied scope passed evidenceRecords := by
    intro passed
    simp only [satisfied, hany]
  simp only [evaluateL4Eligibility, hexercises, hids, hsatisfied]

/-- An eligible scope is a certified one exactly where the two kinds that no item names were
exercised, or the gate is closed for another reason; and exercises and records of other scopes
never change the verdict. -/
theorem eligible_certifies_iff (sha256 : String → String) :
    (((evaluateL4Eligibility sha256 scope exercises evidenceRecords).eligible = true →
        Certified scope exercises evidenceRecords) ↔
      (GateOpen scope exercises evidenceRecords →
        ∀ kind ∈ unbackedKinds, ∃ e ∈ exercises, ofScope scope e ∧ e.kind = kind)) ∧
    ∀ exercises' evidenceRecords',
      exercises'.filter (ofScope scope) = exercises.filter (ofScope scope) →
      evidenceRecords'.filter (recordOfScope scope) =
        evidenceRecords.filter (recordOfScope scope) →
      evaluateL4Eligibility sha256 scope exercises' evidenceRecords' =
        evaluateL4Eligibility sha256 scope exercises evidenceRecords := by
  refine ⟨?_, fun _ _ => evaluate_congr scope exercises evidenceRecords sha256⟩
  rw [eligible_iff]
  constructor
  · intro h hopen
    exact hopen.certified_iff.mp (h hopen)
  · intro h hopen
    exact hopen.certified_iff.mpr (h hopen)

end

/-- Seven drills of one scope without a remediation or a failed verification among them. -/
def drills : List ExerciseResult :=
  [.rollback, .rollback, .rollback, .killSwitch, .policyOutage, .auditOutage,
    .errorBudgetExhausted].map fun kind =>
      ⟨kind, true, "payments", "prod", "aks.rollout.undo", 2, "https://ci/run/1", "cluster-exercise"⟩

def drilledScope : CertificationScope := ⟨"payments", "prod", "aks.rollout.undo", 3⟩

def signedReviews : List EvidenceRecord :=
  attestedControls.map fun control =>
    ⟨"l4-" ++ control, "payments/prod/aks.rollout.undo", "measured", "l4-promotion", [control]⟩

theorem drills_without_remediation_eligible :
    (evaluateL4Eligibility id drilledScope drills signedReviews).eligible = true ∧
      ¬ Certified drilledScope drills signedReviews := by
  constructor
  · decide +kernel
  · intro h
    obtain ⟨e, he, -, hkind, -⟩ := h.exercised .successfulRemediation (by decide)
    revert hkind
    revert e
    decide +kernel

/-! Which scopes one record may attest for. -/

/-- The pieces of a scope's three names between the slashes. -/
def segments (s : CertificationScope) : List (List Char) :=
  s.service.toList.splitOn '/' ++ s.environment.toList.splitOn '/' ++ s.runbookId.toList.splitOn '/'

theorem toList_evidenceScope (s : CertificationScope) :
    (evidenceScope s).toList =
      s.service.toList ++ '/' :: (s.environment.toList ++ '/' :: s.runbookId.toList) := by
  simp [evidenceScope]

theorem splitOn_evidenceScope (s : CertificationScope) :
    (evidenceScope s).toList.splitOn '/' = segments s := by
  rw [toList_evidenceScope, List.splitOn_append_cons_self, List.splitOn_append_cons_self, segments,
    List.append_assoc]

theorem splitOn_slash_injective {xs ys : List Char} (h : xs.splitOn '/' = ys.splitOn '/') :
    xs = ys := by
  have hx : ['/'].intercalate (xs.splitOn '/') = xs := List.intercalate_splitOn '/'
  rw [← hx, h, List.intercalate_splitOn]

theorem evidenceScope_eq_iff (s t : CertificationScope) :
    evidenceScope s = evidenceScope t ↔ segments s = segments t := by
  constructor
  · intro h
    rw [← splitOn_evidenceScope, h, splitOn_evidenceScope]
  · intro h
    rw [← splitOn_evidenceScope, ← splitOn_evidenceScope] at h
    exact String.toList_inj.mp (splitOn_slash_injective h)

/-- The slashes fall in the same places, and the budgets are the same. -/
def SameCuts (s t : CertificationScope) : Prop :=
  (s.service.toList.splitOn '/').length = (t.service.toList.splitOn '/').length ∧
    (s.environment.toList.splitOn '/').length = (t.environment.toList.splitOn '/').length ∧
    s.blastRadiusBudget = t.blastRadiusBudget

theorem eq_iff_sameCuts {s t : CertificationScope} (h : segments s = segments t) :
    s = t ↔ SameCuts s t := by
  constructor
  · intro hst
    rw [hst]
    exact ⟨rfl, rfl, rfl⟩
  · intro hcuts
    obtain ⟨hservice, henvironment, hbudget⟩ := hcuts
    obtain ⟨hleft, hrunbook⟩ := List.append_inj h (by simp [hservice, henvironment])
    obtain ⟨hs, he⟩ := List.append_inj hleft hservice
    have hs' : s.service = t.service := String.toList_inj.mp (splitOn_slash_injective hs)
    have he' : s.environment = t.environment := String.toList_inj.mp (splitOn_slash_injective he)
    have hr' : s.runbookId = t.runbookId := String.toList_inj.mp (splitOn_slash_injective hrunbook)
    cases s
    cases t
    simp_all

/-- A scope text that starts or ends with a blank: a record's is stripped before it is compared. -/
def BlankEdge (s : CertificationScope) : Prop :=
  (∃ c ∈ s.service.toList.head?, isPythonSpace c) ∨ ∃ c ∈ s.runbookId.toList.getLast?, isPythonSpace c

theorem strip_evidenceScope_iff (s : CertificationScope) :
    (∃ text, strip text = evidenceScope s) ↔ ¬ BlankEdge s := by
  have hhead : (evidenceScope s).toList.head? = some (s.service.toList.head?.getD '/') := by
    rw [toList_evidenceScope, List.head?_append]
    cases s.service.toList.head? <;> rfl
  have hlast : (evidenceScope s).toList.getLast? = some (s.runbookId.toList.getLast?.getD '/') := by
    rw [toList_evidenceScope]
    simp [List.getLast?_append, List.getLast?_cons]
  have hslash : isPythonSpace '/' = false := by decide
  rw [stripped_iff, hhead, hlast, BlankEdge, not_or]
  apply and_congr
  · cases s.service.toList.head? <;> simp [hslash]
  · cases s.runbookId.toList.getLast? <;> simp [hslash]

/-- A record that attests for a scope with the given text. -/
def attesting (text control : String) : EvidenceRecord :=
  ⟨"record", text, "measured", l4EvidenceDecision, [control]⟩

/-- One record attests for at most one of two scopes, unless their names join to the same text
and they are not the same. -/
theorem attests_one_scope_iff (s t : CertificationScope) :
    (∀ record control control', attests record s control = true →
        attests record t control' = true → s = t) ↔
      BlankEdge s ∨ segments s ≠ segments t ∨ SameCuts s t := by
  constructor
  · intro h
    by_contra hnone
    obtain ⟨hedge, hsegments, hcuts⟩ : ¬ BlankEdge s ∧ segments s = segments t ∧ ¬ SameCuts s t := by
      simpa [not_or] using hnone
    obtain ⟨text, htext⟩ := (strip_evidenceScope_iff s).mpr hedge
    have hattests : ∀ u : CertificationScope, strip text = evidenceScope u →
        attests (attesting text "security-review") u "security-review" = true := by
      intro u hu
      simp only [attests, attesting, hu]
      decide
    have ht : strip text = evidenceScope t := htext.trans ((evidenceScope_eq_iff s t).mpr hsegments)
    exact hcuts ((eq_iff_sameCuts hsegments).mp
      (h (attesting text "security-review") _ _ (hattests s htext) (hattests t ht)))
  · intro h record control control' hs ht
    have hstext : strip record.scope = evidenceScope s := by
      simpa [recordOfScope] using attests_recordOfScope hs
    have httext : strip record.scope = evidenceScope t := by
      simpa [recordOfScope] using attests_recordOfScope ht
    have hsegments : segments s = segments t :=
      (evidenceScope_eq_iff s t).mp (hstext.symm.trans httext)
    rcases h with hedge | hne | hcuts
    · exact absurd hedge ((strip_evidenceScope_iff s).mp ⟨record.scope, hstext⟩)
    · exact absurd hsegments hne
    · exact (eq_iff_sameCuts hsegments).mpr hcuts

/-- The same text for two services: the slash may belong to a name. -/
theorem one_record_two_scopes :
    CertificationScope.make "payments/eu" "prod" "aks.rollout.undo" 3 =
        .ok ⟨"payments/eu", "prod", "aks.rollout.undo", 3⟩ ∧
      CertificationScope.make "payments" "eu/prod" "aks.rollout.undo" 3 =
        .ok ⟨"payments", "eu/prod", "aks.rollout.undo", 3⟩ ∧
      attests (attesting "payments/eu/prod/aks.rollout.undo" "security-review")
        ⟨"payments/eu", "prod", "aks.rollout.undo", 3⟩ "security-review" = true ∧
      attests (attesting "payments/eu/prod/aks.rollout.undo" "security-review")
        ⟨"payments", "eu/prod", "aks.rollout.undo", 3⟩ "security-review" = true ∧
      "payments/eu" ≠ "payments" := by
  refine ⟨rfl, rfl, ?_, ?_, ?_⟩ <;> decide

end EngineeringIntelligence.Resilience
