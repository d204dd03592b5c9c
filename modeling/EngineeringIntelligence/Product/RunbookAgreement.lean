import EngineeringIntelligence.Orchestration.RemediationActivities
import EngineeringIntelligence.Product.L2Proposals

namespace EngineeringIntelligence.Product

open EngineeringIntelligence.Framework EngineeringIntelligence.Intelligence EngineeringIntelligence.Orchestration

/-! The runbook that a human is proposed and the one of the automated plan are the same. -/

/-- A title that speaks of a deployment and of a failure also speaks of an incident. -/
def Clear (h : Hypothesis) : Prop :=
  hasInfix (lower h.title) "deployment" = true → hasInfix (lower h.title) "failure" = true →
    hasInfix (lower h.title) "incident" = true

section
variable (repr : Rat → FloatRepr)

/-- What the planner reads of a hypothesis; `repr` prints a float. -/
def planned (h : Hypothesis) : IncidentHypothesis := ⟨h.title, h.evidenceIds, repr h.confidence⟩

/-- A runbook is proposed if and only if there is a plan, and both name the same runbook and the same evidence. -/
structure RunbookAgrees (analysis : IncidentAnalysis) (service environment : String)
    (evidence : List EvidenceEvent) : Prop where
  proposed_iff : (∃ p ∈ buildProposals (.incident analysis) service environment evidence, p.kind = .runbook) ↔
    ∃ plan, planFromIncident (analysis.hypotheses.map (planned repr)) = some plan
  same : ∀ p ∈ buildProposals (.incident analysis) service environment evidence, p.kind = .runbook →
    ∀ plan, planFromIncident (analysis.hypotheses.map (planned repr)) = some plan →
      ∃ entry : AllowListedRunbook, entry.runbookId = plan.runbookId ∧
        p = entry.proposal service environment "the incident" plan.evidenceIds

/-! ### One search -/

/-- The planner's choice for a title is the runbook of the title's class. -/
def Selects (select : String → Option (String × String)) (classOf : String → Option FailureClass)
    (h : Hypothesis) : Prop :=
  (select (lower h.title)).map (·.1) = (classOf (lower h.title)).map fun c => (allowListedRunbook c).runbookId

theorem specificRunbook_selects (h : Hypothesis) : Selects specificRunbook specificClass h := by
  unfold Selects specificRunbook specificClass
  split_ifs <;> rfl

theorem deploymentRunbook_selects {h : Hypothesis} (hclear : Clear h) :
    Selects deploymentRunbook regressionClass h := by
  unfold Selects deploymentRunbook regressionClass
  by_cases hdeployment : hasInfix (lower h.title) "deployment" = true
  · by_cases hincident : hasInfix (lower h.title) "incident" = true
    · simp only [hdeployment, hincident, Bool.true_or, Bool.and_self, if_true]
      rfl
    · have hfailure : hasInfix (lower h.title) "failure" = false := by
        by_contra hfailure
        exact hincident (hclear hdeployment (by simpa using hfailure))
      simp [hincident, hfailure]
  · simp [hdeployment]

variable {repr} {select : String → Option (String × String)} {classOf : String → Option FailureClass}
  {hypotheses : List Hypothesis}

theorem firstPlan_eq_none (h : ∀ x ∈ hypotheses, Selects select classOf x) :
    firstPlan select (hypotheses.map (planned repr)) = none ↔ ∀ x ∈ hypotheses, classOf (lower x.title) = none := by
  rw [firstPlan, List.findSome?_eq_none_iff, List.forall_mem_map]
  refine forall₂_congr fun x hx => ?_
  rw [Option.map_eq_none_iff, planned, ← Option.map_eq_none_iff (f := (·.1)), h x hx, Option.map_eq_none_iff]

/-- A plan comes from the first hypothesis that has a class. -/
theorem firstPlan_eq_some (h : ∀ x ∈ hypotheses, Selects select classOf x) {plan : RemediationPlan}
    (hplan : firstPlan select (hypotheses.map (planned repr)) = some plan) :
    ∃ before x after c, hypotheses = before ++ x :: after ∧ classOf (lower x.title) = some c ∧
      (allowListedRunbook c).runbookId = plan.runbookId ∧ plan.evidenceIds = x.evidenceIds ∧
      ∀ y ∈ before, classOf (lower y.title) = none := by
  induction hypotheses with
  | nil => cases hplan
  | cons x hypotheses ih =>
    have hx := h x (List.mem_cons_self ..)
    rw [Selects] at hx
    rw [firstPlan, List.map_cons, List.findSome?_cons, planned] at hplan
    cases hclass : classOf (lower x.title) with
    | none =>
      rw [hclass, Option.map_none, Option.map_eq_none_iff] at hx
      rw [hx] at hplan
      obtain ⟨before, y, after, c, rfl, hc, hid, hids, hbefore⟩ :=
        ih (fun y hy => h y (List.mem_cons_of_mem _ hy)) hplan
      exact ⟨x :: before, y, after, c, rfl, hc, hid, hids, List.forall_mem_cons.mpr ⟨hclass, hbefore⟩⟩
    | some c =>
      rw [hclass] at hx
      obtain ⟨choice, hchoice, hid⟩ := Option.map_eq_some_iff.mp hx
      rw [hchoice] at hplan
      obtain rfl := Option.some.inj hplan
      exact ⟨[], x, hypotheses, c, rfl, hclass, hid.symm, rfl, nofun⟩

/-! ### Both searches -/

theorem specificClass_ne (title : String) : specificClass title ≠ some .deploymentRegression := by
  unfold specificClass
  split_ifs <;> exact nofun

theorem regressionClass_eq {title : String} {c : FailureClass} (h : regressionClass title = some c) :
    c = .deploymentRegression := by
  unfold regressionClass at h
  split at h
  · exact (Option.some.inj h).symm
  · cases h

theorem failureClass_singleton (h : Hypothesis) :
    failureClass [h] = (specificClass (lower h.title)).or (regressionClass (lower h.title)) := by
  simp [failureClass, List.findSome?_cons]
  cases specificClass (lower h.title) <;> cases regressionClass (lower h.title) <;> rfl

theorem find_matched {before after : List Hypothesis} {x : Hypothesis} {c : FailureClass}
    (hx : failureClass [x] = some c) (hbefore : ∀ y ∈ before, failureClass [y] ≠ some c) :
    (before ++ x :: after).find? (fun h => failureClass [h] = some c) = some x := by
  rw [List.find?_eq_some_iff_append]
  refine ⟨by simpa using hx, before, after, rfl, fun y hy => ?_⟩
  simpa using hbefore y hy

/-- The class and the evidence of the runbook that is proposed, from the hypothesis that the plan is from. -/
theorem selection_of_plan (hclear : ∀ x ∈ hypotheses, Clear x) {plan : RemediationPlan}
    (hplan : planFromIncident (hypotheses.map (planned repr)) = some plan) :
    ∃ c, failureClass hypotheses = some c ∧ (allowListedRunbook c).runbookId = plan.runbookId ∧
      (hypotheses.find? fun h => failureClass [h] = some c).map (·.evidenceIds) = some plan.evidenceIds := by
  rw [planFromIncident, Option.or_eq_some_iff] at hplan
  rcases hplan with hplan | ⟨hnone, hplan⟩
  · obtain ⟨before, x, after, c, rfl, hc, hid, hids, hbefore⟩ :=
      firstPlan_eq_some (fun x _ => specificRunbook_selects x) hplan
    have hx : failureClass [x] = some c := by rw [failureClass_singleton, hc, Option.some_or]
    have hearlier : ∀ y ∈ before, failureClass [y] ≠ some c := by
      intro y hy hclass
      rw [failureClass_singleton, hbefore y hy, Option.none_or] at hclass
      exact specificClass_ne _ (regressionClass_eq hclass ▸ hc)
    refine ⟨c, ?_, hid, ?_⟩
    · rw [failureClass, List.findSome?_append, List.findSome?_eq_none_iff.mpr hbefore, Option.none_or,
        List.findSome?_cons, hc, Option.some_or]
    · rw [find_matched hx hearlier, hids]
      rfl
  · have hspecific := (firstPlan_eq_none fun x _ => specificRunbook_selects x).mp hnone
    obtain ⟨before, x, after, c, rfl, hc, hid, hids, hbefore⟩ :=
      firstPlan_eq_some (fun x hx => deploymentRunbook_selects (hclear x hx)) hplan
    have hclass {y : Hypothesis} (hy : y ∈ before ++ x :: after) :
        failureClass [y] = regressionClass (lower y.title) := by
      rw [failureClass_singleton, hspecific y hy, Option.none_or]
    have hx : failureClass [x] = some c := by rw [hclass (by simp), hc]
    have hearlier : ∀ y ∈ before, failureClass [y] ≠ some c := by
      intro y hy hsame
      rw [hclass (List.mem_append_left _ hy), hbefore y hy] at hsame
      cases hsame
    refine ⟨c, ?_, hid, ?_⟩
    · rw [failureClass, List.findSome?_eq_none_iff.mpr hspecific, Option.none_or, List.findSome?_append,
        List.findSome?_eq_none_iff.mpr hbefore, Option.none_or, List.findSome?_cons, hc]
    · rw [find_matched hx hearlier, hids]
      rfl

theorem plan_eq_none_iff (hclear : ∀ x ∈ hypotheses, Clear x) :
    planFromIncident (hypotheses.map (planned repr)) = none ↔ failureClass hypotheses = none := by
  rw [planFromIncident, Option.or_eq_none_iff, firstPlan_eq_none fun x _ => specificRunbook_selects x,
    firstPlan_eq_none fun x hx => deploymentRunbook_selects (hclear x hx), failureClass, Option.or_eq_none_iff,
    List.findSome?_eq_none_iff, List.findSome?_eq_none_iff]

theorem runbookAgrees_of_clear {analysis : IncidentAnalysis} (hclear : ∀ x ∈ analysis.hypotheses, Clear x)
    (service environment : String) (evidence : List EvidenceEvent) :
    RunbookAgrees repr analysis service environment evidence := by
  have hrunbook (p : L2Proposal) :
      p ∈ buildProposals (.incident analysis) service environment evidence ∧ p.kind = .runbook ↔
        runbook analysis.hypotheses service environment "the incident" = some p :=
    mem_proposals_runbook
  constructor
  · simp only [hrunbook]
    rw [← Option.ne_none_iff_exists', ← Option.ne_none_iff_exists', Ne, Ne, plan_eq_none_iff hclear, runbook,
      Option.map_eq_none_iff]
  · intro p hp hkind plan hplan
    obtain ⟨c, hc, hid, hids⟩ := selection_of_plan hclear hplan
    have hproposal := (hrunbook p).mp ⟨hp, hkind⟩
    rw [runbook] at hproposal
    obtain ⟨selected, hselected, rfl⟩ := Option.map_eq_some_iff.mp hproposal
    obtain rfl : c = selected := Option.some.inj (hc.symm.trans hselected)
    refine ⟨allowListedRunbook c, hid, ?_⟩
    have hevidence : ((analysis.hypotheses.find? fun h => failureClass [h] = some c).map (·.evidenceIds)).getD [] =
        plan.evidenceIds := by
      rw [hids, Option.getD_some]
    exact congrArg _ hevidence

/-- The characters of `lower`. -/
def lowered (cs : List Char) : List Char := cs.flatMap fun c =>
  if c = '\u212a' then ['k'] else if c = '\u0130' then ['i', '\u0307'] else [c.toLower]

theorem hasInfix_lower {s p : String} {cs ps : List Char} (hs : s.toList = cs) (hp : p.toList = ps) :
    hasInfix (lower s) p = (lowered cs).tails.any (ps.isPrefixOf ·) := by
  rw [hasInfix, lower, String.toList_ofList, hs, hp]
  rfl

/-- The titles of an incident analysis are clear. -/
theorem clear_of_title {h : Hypothesis}
    (htitle : h.title ∈ [deploymentTitle, crashloopTitle, readinessTitle, oomTitle]) : Clear h := by
  have hincident : hasInfix (lower deploymentTitle) "incident" = true := by
    rw [hasInfix_lower (s := deploymentTitle) String.toList_ofList String.toList_ofList]
    decide
  have hcrashloop : hasInfix (lower crashloopTitle) "deployment" = false := by
    rw [hasInfix_lower (s := crashloopTitle) String.toList_ofList String.toList_ofList]
    decide
  have hreadiness : hasInfix (lower readinessTitle) "failure" = false := by
    rw [hasInfix_lower (s := readinessTitle) String.toList_ofList String.toList_ofList]
    decide
  have hoom : hasInfix (lower oomTitle) "deployment" = false := by
    rw [hasInfix_lower (s := oomTitle) String.toList_ofList String.toList_ofList]
    decide
  intro hdeployment hfailure
  simp only [List.mem_cons, List.not_mem_nil, or_false] at htitle
  rcases htitle with htitle | htitle | htitle | htitle
  · rw [htitle, hincident]
  · rw [htitle, hcrashloop] at hdeployment
    cases hdeployment
  · rw [htitle, hreadiness] at hfailure
    cases hfailure
  · rw [htitle, hoom] at hdeployment
    cases hdeployment

/-- Where no title speaks of a deployment failure without an incident, in particular on what the analysis of
any events returns, the proposals and the plan agree on the runbook. -/
theorem runbook_agrees (rounded : Rat → Rat) (repr : Rat → FloatRepr) (service environment : String)
    (evidence : List EvidenceEvent) :
    (∀ analysis : IncidentAnalysis, (∀ x ∈ analysis.hypotheses, Clear x) →
      RunbookAgrees repr analysis service environment evidence) ∧
      ∀ (events : List EvidenceEvent) (analyzed : String),
        RunbookAgrees repr (analyzeIncident rounded events analyzed) service environment evidence := by
  refine ⟨fun _ hclear => runbookAgrees_of_clear hclear service environment evidence, fun events analyzed => ?_⟩
  refine runbookAgrees_of_clear (fun x hx => ?_) service environment evidence
  exact clear_of_title (title_of_mem_analyzeIncident rounded hx)

end

end EngineeringIntelligence.Product
