import Mathlib.Tactic.Linarith
import EngineeringIntelligence.Intelligence.Graph

namespace EngineeringIntelligence.Intelligence

open EngineeringIntelligence.Framework EngineeringIntelligence.Topology

/-! `assess_change`: the risk of a change, its band, and what the policy asks for. -/

inductive RiskBand where
  | low | moderate | high | critical
  deriving DecidableEq, Repr

/-- The bands in the order of their thresholds. -/
def RiskBand.level : RiskBand → Nat
  | low => 0
  | moderate => 1
  | high => 2
  | critical => 3

structure ChangeContext where
  changedServices : List String
  filesChanged : Nat
  touchesIac : Bool := false
  touchesIdentityOrSecurity : Bool := false
  touchesDeliveryPipeline : Bool := false
  unmappedServiceChange : Bool := false
  weakTestEvidence : Bool := false
  similarFailedChanges : Nat := 0

structure RiskFactor where
  name : String
  points : Int
  evidence : String
  deriving DecidableEq

structure RiskAssessment where
  score : Int
  band : RiskBand
  blastRadius : List String
  factors : List RiskFactor
  deriving DecidableEq

/-- The band of a score. -/
def bandOf (score : Int) : RiskBand :=
  if score < 25 then .low else if score < 50 then .moderate else if score < 75 then .high else .critical

/-- The factors of a change, by what `assess_change` looks at. -/
def riskFactors (graph : ServiceGraph) (blast : List String) (ctx : ChangeContext) : List RiskFactor :=
  (if graph.maxTier blast = 1 then [⟨"critical-service", 20, "blast radius includes tier-1 service"⟩] else []) ++
  (if 5 ≤ blast.length then
      [⟨"wide-blast-radius", 20, toString blast.length ++ " services may be impacted"⟩]
    else if 2 ≤ blast.length then
      [⟨"multi-service-impact", 10, toString blast.length ++ " services may be impacted"⟩]
    else []) ++
  (if 25 ≤ ctx.filesChanged then [⟨"large-diff", 15, toString ctx.filesChanged ++ " files changed"⟩]
    else if 10 ≤ ctx.filesChanged then [⟨"medium-diff", 8, toString ctx.filesChanged ++ " files changed"⟩]
    else []) ++
  (if ctx.touchesIac then [⟨"infrastructure-change", 12, "IaC or deployment infrastructure changed"⟩] else []) ++
  (if ctx.touchesDeliveryPipeline then
    [⟨"delivery-control-change", 15, "CI/CD or repository automation changed"⟩] else []) ++
  (if ctx.touchesIdentityOrSecurity then
    [⟨"security-boundary-change", 20, "identity/security controls changed"⟩] else []) ++
  (if ctx.unmappedServiceChange then
    [⟨"unmapped-service-change", 12,
      "non-documentation code/control files changed but could not be mapped to an owned service"⟩] else []) ++
  (if ctx.weakTestEvidence then [⟨"weak-test-evidence", 10, "test evidence is missing or weak"⟩] else []) ++
  (if ctx.similarFailedChanges ≠ 0 then
    [⟨"historical-regression", min 20 (8 * ctx.similarFailedChanges),
      toString ctx.similarFailedChanges ++ " similar failed changes"⟩] else [])

def totalPoints (factors : List RiskFactor) : Int := (factors.map (·.points)).sum

def assessChange (l : Listing String) (graph : ServiceGraph) (ctx : ChangeContext) : RiskAssessment :=
  let blast := graph.blastRadius l ctx.changedServices
  let factors := riskFactors graph blast ctx
  let score := min 100 (totalPoints factors)
  ⟨score, bandOf score, blast, factors⟩

structure PRPolicyDecision where
  requireExtendedTests : Bool
  requireAdditionalApproval : Bool
  blockMerge : Bool
  deriving DecidableEq

def policyFor (assessment : RiskAssessment) : PRPolicyDecision where
  requireExtendedTests := 55 ≤ assessment.score
  requireAdditionalApproval := 70 ≤ assessment.score
  blockMerge := 90 ≤ assessment.score

/-! ### Orders -/

/-- The second context has at least as much changed. -/
structure ChangeContext.Within (ctx ctx' : ChangeContext) : Prop where
  changedServices : ctx.changedServices ⊆ ctx'.changedServices
  filesChanged : ctx.filesChanged ≤ ctx'.filesChanged
  touchesIac : ctx.touchesIac ≤ ctx'.touchesIac
  touchesIdentityOrSecurity : ctx.touchesIdentityOrSecurity ≤ ctx'.touchesIdentityOrSecurity
  touchesDeliveryPipeline : ctx.touchesDeliveryPipeline ≤ ctx'.touchesDeliveryPipeline
  unmappedServiceChange : ctx.unmappedServiceChange ≤ ctx'.unmappedServiceChange
  weakTestEvidence : ctx.weakTestEvidence ≤ ctx'.weakTestEvidence
  similarFailedChanges : ctx.similarFailedChanges ≤ ctx'.similarFailedChanges

/-- The second decision asks for all that the first asks for. -/
structure PRPolicyDecision.Within (p p' : PRPolicyDecision) : Prop where
  requireExtendedTests : p.requireExtendedTests ≤ p'.requireExtendedTests
  requireAdditionalApproval : p.requireAdditionalApproval ≤ p'.requireAdditionalApproval
  blockMerge : p.blockMerge ≤ p'.blockMerge

/-- A score, its band and its policy are at least those of another. -/
structure RiskAssessment.AtMost (a a' : RiskAssessment) : Prop where
  score : a.score ≤ a'.score
  band : a.band.level ≤ a'.band.level
  policy : (policyFor a).Within (policyFor a')

/-! ### Points -/

theorem totalPoints_append (xs ys : List RiskFactor) : totalPoints (xs ++ ys) = totalPoints xs + totalPoints ys := by
  rw [totalPoints, List.map_append, List.sum_append]
  rfl

@[simp] theorem totalPoints_nil : totalPoints [] = 0 := rfl

@[simp] theorem totalPoints_singleton (f : RiskFactor) : totalPoints [f] = f.points := by
  simp [totalPoints]

theorem bandOf_mono {score score' : Int} (h : score ≤ score') : (bandOf score).level ≤ (bandOf score').level := by
  unfold bandOf
  split_ifs <;> simp only [RiskBand.level] <;> omega

theorem atLeast_mono {bound score score' : Int} (h : score ≤ score') :
    decide (bound ≤ score) ≤ decide (bound ≤ score') := by
  rw [Bool.le_iff_imp, decide_eq_true_eq, decide_eq_true_eq]
  exact fun hbound => hbound.trans h

/-- A factor that stays where there is more. -/
theorem points_of_imp {p q : Prop} [Decidable p] [Decidable q] (h : p → q) {f f' : RiskFactor}
    (hpoints : 0 ≤ f'.points) (hle : f.points ≤ f'.points) :
    totalPoints (if p then [f] else []) ≤ totalPoints (if q then [f'] else []) := by
  by_cases hp : p
  · rwa [if_pos hp, if_pos (h hp), totalPoints_singleton, totalPoints_singleton]
  · rw [if_neg hp, totalPoints_nil]
    split
    · rwa [totalPoints_singleton]
    · rfl

/-- Two factors of which the one for more weighs more. -/
theorem points_of_threshold {m m' low high : Nat} (h : m ≤ m') {f g f' g' : RiskFactor}
    (hf : f'.points = f.points) (hg : g'.points = g.points) (hpoints : 0 ≤ g.points) (hle : g.points ≤ f.points) :
    totalPoints (if high ≤ m then [f] else if low ≤ m then [g] else []) ≤
      totalPoints (if high ≤ m' then [f'] else if low ≤ m' then [g'] else []) := by
  split_ifs <;> simp only [totalPoints_singleton, totalPoints_nil, hf, hg] <;> omega

theorem points_nonneg {p : Prop} [Decidable p] {f : RiskFactor} (h : 0 ≤ f.points) :
    0 ≤ totalPoints (if p then [f] else []) := by
  split
  · rwa [totalPoints_singleton]
  · rfl

theorem threshold_nonneg {m low high : Nat} {f g : RiskFactor} (hf : 0 ≤ f.points) (hg : 0 ≤ g.points) :
    0 ≤ totalPoints (if high ≤ m then [f] else if low ≤ m then [g] else []) := by
  split
  · rwa [totalPoints_singleton]
  · exact points_nonneg hg

theorem totalPoints_nonneg (graph : ServiceGraph) (blast : List String) (ctx : ChangeContext) :
    0 ≤ totalPoints (riskFactors graph blast ctx) := by
  have hregression : 0 ≤ min (20 : Int) (8 * (ctx.similarFailedChanges : Int)) := by omega
  simp only [riskFactors, totalPoints_append]
  repeat' apply Int.add_nonneg
  · exact points_nonneg (by decide)
  · exact threshold_nonneg (by simp) (by simp)
  · exact threshold_nonneg (by simp) (by simp)
  · exact points_nonneg (by decide)
  · exact points_nonneg (by decide)
  · exact points_nonneg (by decide)
  · exact points_nonneg (by decide)
  · exact points_nonneg (by decide)
  · exact points_nonneg hregression

/-- Nothing weighs less where there is more. -/
theorem totalPoints_mono {graph graph' : ServiceGraph} {blast blast' : List String} {ctx ctx' : ChangeContext}
    (hcritical : graph.maxTier blast = 1 → graph'.maxTier blast' = 1) (hblast : blast.length ≤ blast'.length)
    (hctx : ctx.Within ctx') :
    totalPoints (riskFactors graph blast ctx) ≤ totalPoints (riskFactors graph' blast' ctx') := by
  have hregression : 0 ≤ min (20 : Int) (8 * (ctx'.similarFailedChanges : Int)) := by omega
  have hfailures := hctx.similarFailedChanges
  simp only [riskFactors, totalPoints_append]
  repeat' apply Int.add_le_add
  · exact points_of_imp hcritical (by decide) (by decide)
  · exact points_of_threshold hblast rfl rfl (by simp) (by simp)
  · exact points_of_threshold hctx.filesChanged rfl rfl (by simp) (by simp)
  · exact points_of_imp (Bool.le_iff_imp.mp hctx.touchesIac) (by decide) (by decide)
  · exact points_of_imp (Bool.le_iff_imp.mp hctx.touchesDeliveryPipeline) (by decide) (by decide)
  · exact points_of_imp (Bool.le_iff_imp.mp hctx.touchesIdentityOrSecurity) (by decide) (by decide)
  · exact points_of_imp (Bool.le_iff_imp.mp hctx.unmappedServiceChange) (by decide) (by decide)
  · exact points_of_imp (Bool.le_iff_imp.mp hctx.weakTestEvidence) (by decide) (by decide)
  · refine points_of_imp (fun hne => by omega) hregression ?_
    show min (20 : Int) (8 * (ctx.similarFailedChanges : Int)) ≤ min 20 (8 * (ctx'.similarFailedChanges : Int))
    omega

/-! ### The assessment -/

theorem score_eq (l : Listing String) (graph : ServiceGraph) (ctx : ChangeContext) :
    (assessChange l graph ctx).score =
      min 100 (totalPoints (riskFactors graph (graph.blastRadius l ctx.changedServices) ctx)) := by
  rw [assessChange]

theorem band_eq (l : Listing String) (graph : ServiceGraph) (ctx : ChangeContext) :
    (assessChange l graph ctx).band = bandOf (assessChange l graph ctx).score := by
  rw [assessChange]

theorem score_bounds (l : Listing String) (graph : ServiceGraph) (ctx : ChangeContext) :
    0 ≤ (assessChange l graph ctx).score ∧ (assessChange l graph ctx).score ≤ 100 := by
  have hpoints := totalPoints_nonneg graph (graph.blastRadius l ctx.changedServices) ctx
  rw [score_eq]
  omega

theorem policyFor_mono {a a' : RiskAssessment} (h : a.score ≤ a'.score) : (policyFor a).Within (policyFor a') where
  requireExtendedTests := atLeast_mono h
  requireAdditionalApproval := atLeast_mono h
  blockMerge := atLeast_mono h

theorem atMost_of_points {l l' : Listing String} {graph graph' : ServiceGraph} {ctx ctx' : ChangeContext}
    (h : totalPoints (riskFactors graph (graph.blastRadius l ctx.changedServices) ctx) ≤
      totalPoints (riskFactors graph' (graph'.blastRadius l' ctx'.changedServices) ctx')) :
    (assessChange l graph ctx).AtMost (assessChange l' graph' ctx') := by
  have hscore : (assessChange l graph ctx).score ≤ (assessChange l' graph' ctx').score := by
    rw [score_eq, score_eq]
    exact min_le_min_left 100 h
  refine ⟨hscore, ?_, policyFor_mono hscore⟩
  rw [band_eq, band_eq]
  exact bandOf_mono hscore

/-- The score is between 0 and 100 and is about the changed services and their transitive dependents; with
more changed, or more dependencies, it does not go down, and neither do the band and what the policy asks. -/
theorem assess_change_monotone :
    (∀ (l : Listing String) (graph : ServiceGraph) (ctx : ChangeContext),
      0 ≤ (assessChange l graph ctx).score ∧ (assessChange l graph ctx).score ≤ 100 ∧
      (assessChange l graph ctx).blastRadius.Pairwise (· < ·) ∧
      ∀ x, x ∈ (assessChange l graph ctx).blastRadius ↔ graph.Impacted ctx.changedServices x) ∧
    ∀ (l l' : Listing String) (graph graph' : ServiceGraph) (ctx ctx' : ChangeContext),
      graph.TiersFromOne → graph'.TiersFromOne → graph.Extends graph' → ctx.Within ctx' →
        (assessChange l graph ctx).AtMost (assessChange l' graph' ctx') := by
  constructor
  · intro l graph ctx
    exact ⟨(score_bounds l graph ctx).1, (score_bounds l graph ctx).2, pairwise_sortedSet _,
      fun x => ServiceGraph.mem_blastRadius⟩
  · intro l l' graph graph' ctx ctx' _ htiers hgraph hctx
    have hsub : graph.blastRadius l ctx.changedServices ⊆ graph'.blastRadius l' ctx'.changedServices :=
      hgraph.blastRadius_subset hctx.changedServices
    have hnodup : (graph.blastRadius l ctx.changedServices).Nodup := (pairwise_sortedSet _).imp fun hlt => ne_of_lt hlt
    exact atMost_of_points (totalPoints_mono (hgraph.maxTier_eq_one htiers hsub)
      (List.subperm_of_subset hnodup hsub).length_le hctx)

/-- Two services that depend on each other, and one that stands alone. -/
def storefront : ServiceGraph :=
  ((ServiceGraph.empty.add ⟨"auth", 2, none, ["ledger"]⟩).add ⟨"ledger", 1, some "payments", ["auth"]⟩).add
    ⟨"web", 3, none, []⟩

/-- The services change, and one more comes to depend on them. -/
theorem storefront_monotone :
    (assessChange ⟨id, fun _ => .refl _⟩ storefront ⟨["auth"], 3, false, false, false, false, false, 0⟩).AtMost
      (assessChange ⟨List.reverse, List.reverse_perm⟩ (storefront.add ⟨"web", 3, none, [] ++ ["auth"]⟩)
        ⟨["auth"], 12, true, false, false, false, false, 1⟩) := by
  have hweb : storefront.nodes.get (ServiceNode.mk "web" 3 none []).name = some ⟨"web", 3, none, []⟩ := rfl
  have htiers : storefront.TiersFromOne := by
    unfold ServiceGraph.TiersFromOne
    decide
  have htiers' : (storefront.add ⟨"web", 3, none, [] ++ ["auth"]⟩).TiersFromOne := by
    unfold ServiceGraph.TiersFromOne
    decide
  have hgraph := ServiceGraph.extends_add hweb ["auth"]
  exact assess_change_monotone.2 _ _ _ _ _ _ htiers htiers' hgraph
    ⟨fun _ hc => hc, by decide, by decide, by decide, by decide, by decide, by decide, by decide⟩

example : (assessChange ⟨List.reverse, List.reverse_perm⟩ storefront
    ⟨["auth"], 12, true, false, false, false, false, 1⟩).score = 58 := by decide

end EngineeringIntelligence.Intelligence
