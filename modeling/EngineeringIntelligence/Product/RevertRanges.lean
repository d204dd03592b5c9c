import EngineeringIntelligence.Product.L2Proposals

namespace EngineeringIntelligence.Product

open EngineeringIntelligence.Framework EngineeringIntelligence.Intelligence

/-! The range of commits that a corrective pull request reverts. -/

/-- The deployment that the analysis is about. -/
def anchorDeployment (timeline : List EvidenceEvent) (service : String) (anchorId : Option String) :
    Option EvidenceEvent :=
  (anchorIndex (deploymentsOf timeline service) anchorId).bind fun index => (deploymentsOf timeline service)[index]?

/-- The range is of the anchor's deployment and of nothing after it, and it is not empty. -/
structure SoundRange (timeline : List EvidenceEvent) (service : String) (anchorId : Option String)
    (range : RevertRange) : Prop where
  anchored : ∃ before after, deploymentsOf timeline service = before ++ range.current :: after ∧
    (∀ id, anchorId = some id → range.current.id = id) ∧
    (anchorId = none → ∀ e ∈ deploymentsOf timeline service, e.timestamp ≤ range.current.timestamp) ∧
    (attributeOf range.current lastGoodKeys = some range.lastGoodCommit ∧ range.lastGoodEvent = none ∨
      ∃ earlier candidate between, before = earlier ++ candidate :: between ∧
        range.lastGoodEvent = some candidate ∧ attributeOf candidate commitKeys = some range.lastGoodCommit ∧
        ∀ e ∈ between, ∀ commit, attributeOf e commitKeys = some commit → commit = range.currentCommit) ∧
    ∀ id ∈ range.evidenceRefs, ∃ e ∈ before ++ [range.current], e.id = id
  commit : attributeOf range.current commitKeys = some range.currentCommit
  differs : range.lastGoodCommit ≠ range.currentCommit

/-- Every corrective pull request that is proposed is for such a range. -/
def RangesSound (analysis : L1Analysis) (service environment : String) (evidence : List EvidenceEvent) : Prop :=
  ∀ p ∈ buildProposals analysis service environment evidence, p.kind = .correctivePr →
    ∃ range, revertRange (proposalTimeline analysis evidence) service analysis.anchorDeploymentId = some range ∧
      p = range.proposal service environment analysis.subject ∧
      SoundRange (proposalTimeline analysis evidence) service analysis.anchorDeploymentId range

/-- The anchor's deployment is not its own last known-good one. -/
def GoodDiffers (timeline : List EvidenceEvent) (service : String) (anchorId : Option String) : Prop :=
  ∀ current commit, anchorDeployment timeline service anchorId = some current →
    attributeOf current commitKeys = some commit → attributeOf current lastGoodKeys ≠ some commit

section
variable {timeline : List EvidenceEvent} {service : String} {anchorId : Option String}

theorem revertRange_eq_some {range : RevertRange} : revertRange timeline service anchorId = some range ↔
    ∃ index, anchorIndex (deploymentsOf timeline service) anchorId = some index ∧
      (deploymentsOf timeline service)[index]? = some range.current ∧
      attributeOf range.current commitKeys = some range.currentCommit ∧
      (attributeOf range.current lastGoodKeys = some range.lastGoodCommit ∧ range.lastGoodEvent = none ∨
        attributeOf range.current lastGoodKeys = none ∧ ∃ candidate,
          precedingCommit ((deploymentsOf timeline service).take index) range.currentCommit =
            some (range.lastGoodCommit, candidate) ∧ range.lastGoodEvent = some candidate) := by
  obtain ⟨current, currentCommit, lastGood, lastGoodEvent⟩ := range
  simp only [revertRange, Option.bind_eq_bind, Option.bind_eq_some_iff]
  refine exists_congr fun index => and_congr_right fun _ => ?_
  constructor
  · rintro ⟨e, he, commit, hcommit, hrange⟩
    split at hrange
    · next good hgood =>
      obtain ⟨rfl, rfl, rfl, rfl⟩ := RevertRange.mk.inj (Option.some.inj hrange)
      exact ⟨he, hcommit, Or.inl ⟨hgood, rfl⟩⟩
    · next hnone =>
      obtain ⟨⟨good, candidate⟩, hpreceding, hrange⟩ := Option.bind_eq_some_iff.mp hrange
      obtain ⟨rfl, rfl, rfl, rfl⟩ := RevertRange.mk.inj (Option.some.inj hrange)
      exact ⟨he, hcommit, Or.inr ⟨hnone, candidate, hpreceding, rfl⟩⟩
  · rintro ⟨he, hcommit, ⟨hgood, rfl⟩ | ⟨hnone, candidate, hpreceding, rfl⟩⟩
    · refine ⟨current, he, currentCommit, hcommit, ?_⟩
      rw [hgood]
    · refine ⟨current, he, currentCommit, hcommit, ?_⟩
      rw [hnone]
      exact Option.bind_eq_some_iff.mpr ⟨(lastGood, candidate), hpreceding, rfl⟩

theorem precedingCommit_eq_some {earlier : List EvidenceEvent} {currentCommit commit : String}
    {candidate : EvidenceEvent} (h : precedingCommit earlier currentCommit = some (commit, candidate)) :
    ∃ before between, earlier = before ++ candidate :: between ∧ attributeOf candidate commitKeys = some commit ∧
      commit ≠ currentCommit ∧
      ∀ e ∈ between, ∀ c, attributeOf e commitKeys = some c → c = currentCommit := by
  obtain ⟨later, x, earlier', hsplit, hx, hlater⟩ := List.findSome?_eq_some_iff.mp h
  obtain ⟨found, hfound, hpair⟩ := Option.map_eq_some_iff.mp hx
  obtain ⟨rfl, rfl⟩ := Prod.mk.inj hpair
  obtain ⟨hcommit, hne⟩ := Option.filter_eq_some_iff.mp hfound
  refine ⟨earlier'.reverse, later.reverse, ?_, hcommit, of_decide_eq_true hne, fun e he c hc => ?_⟩
  · have hreverse := congrArg List.reverse hsplit
    simpa using hreverse
  · have hnone := hlater e (List.mem_reverse.mp he)
    rw [Option.map_eq_none_iff, hc, Option.filter_eq_none_iff] at hnone
    simpa using hnone c rfl

theorem split_at {l : List EvidenceEvent} {index : Nat} {e : EvidenceEvent} (h : l[index]? = some e) :
    l = l.take index ++ e :: l.drop (index + 1) := by
  obtain ⟨hlt, rfl⟩ := List.getElem?_eq_some_iff.mp h
  rw [List.getElem_cons_drop, List.take_append_drop]

/-- The place that is found is the anchor's, or the newest deployment's. -/
theorem anchorIndex_spec {deployments : List EvidenceEvent}
    (hsorted : deployments.Pairwise (·.timestamp ≤ ·.timestamp)) {index : Nat}
    (hindex : anchorIndex deployments anchorId = some index) {current : EvidenceEvent}
    (hcurrent : deployments[index]? = some current) :
    (∀ id, anchorId = some id → current.id = id) ∧
      (anchorId = none → ∀ e ∈ deployments, e.timestamp ≤ current.timestamp) := by
  unfold anchorIndex at hindex
  split at hindex
  · next id =>
    obtain ⟨hlt, hid, -⟩ := List.findIdx?_eq_some_iff_getElem.mp hindex
    obtain ⟨_, rfl⟩ := List.getElem?_eq_some_iff.mp hcurrent
    exact ⟨fun _ h => Option.some.inj h ▸ of_decide_eq_true hid, nofun⟩
  · split at hindex
    · cases hindex
    · next hne =>
      obtain rfl := Option.some.inj hindex
      refine ⟨nofun, fun _ e he => ?_⟩
      have hlast : deployments = deployments.dropLast ++ [current] := by
        have hget := List.getLast?_eq_getElem? (l := deployments)
        rw [hcurrent] at hget
        exact (List.dropLast_append_getLast? current hget).symm
      rw [hlast] at he hsorted
      rcases List.mem_append.mp he with he | he
      · exact (List.pairwise_append.mp hsorted).2.2 e he current (List.mem_singleton.mpr rfl)
      · rw [List.mem_singleton.mp he]

/-- The range is sound if and only if it is not empty. -/
theorem soundRange_iff {range : RevertRange} (h : revertRange timeline service anchorId = some range) :
    SoundRange timeline service anchorId range ↔ range.lastGoodCommit ≠ range.currentCommit := by
  refine ⟨fun hsound => hsound.differs, fun hdiffers => ⟨?_, ?_, hdiffers⟩⟩
  · obtain ⟨index, hindex, hcurrent, -, hgood⟩ := revertRange_eq_some.mp h
    have hsorted : (deploymentsOf timeline service).Pairwise (·.timestamp ≤ ·.timestamp) := pairwise_sortedBy _ _
    obtain ⟨hanchor, hnewest⟩ := anchorIndex_spec hsorted hindex hcurrent
    refine ⟨_, _, split_at hcurrent, hanchor, hnewest, ?_, ?_⟩
    · rcases hgood with hgood | ⟨-, candidate, hpreceding, hevent⟩
      · exact Or.inl hgood
      · obtain ⟨before, between, hsplit, hcommit, -, hbetween⟩ := precedingCommit_eq_some hpreceding
        exact Or.inr ⟨before, candidate, between, hsplit, hevent, hcommit, hbetween⟩
    · intro id hid
      rcases List.mem_cons.mp hid with rfl | hid
      · exact ⟨range.current, by simp, rfl⟩
      · obtain ⟨e, he, rfl⟩ := List.mem_map.mp hid
        rcases hgood with ⟨-, hnone⟩ | ⟨-, candidate, hpreceding, hevent⟩
        · rw [hnone] at he
          cases he
        · rw [hevent, Option.toList_some, List.mem_singleton] at he
          obtain ⟨before, between, hsplit, -⟩ := precedingCommit_eq_some hpreceding
          refine ⟨e, List.mem_append_left _ ?_, rfl⟩
          rw [hsplit, he]
          simp
  · obtain ⟨-, -, -, hcommit, -⟩ := revertRange_eq_some.mp h
    exact hcommit

/-- The range is empty only where the anchor's deployment names its own commit as the last good one. -/
theorem differs_iff : (∀ range, revertRange timeline service anchorId = some range →
    range.lastGoodCommit ≠ range.currentCommit) ↔ GoodDiffers timeline service anchorId := by
  constructor
  · intro h current commit hanchor hcommit hgood
    obtain ⟨index, hindex, hcurrent⟩ := Option.bind_eq_some_iff.mp hanchor
    have hrange : revertRange timeline service anchorId = some ⟨current, commit, commit, none⟩ :=
      revertRange_eq_some.mpr ⟨index, hindex, hcurrent, hcommit, Or.inl ⟨hgood, rfl⟩⟩
    exact h _ hrange rfl
  · intro h range hrange heq
    obtain ⟨index, hindex, hcurrent, hcommit, ⟨hgood, -⟩ | ⟨-, candidate, hpreceding, -⟩⟩ :=
      revertRange_eq_some.mp hrange
    · refine h range.current range.currentCommit ?_ hcommit (heq ▸ hgood)
      exact Option.bind_eq_some_iff.mpr ⟨index, hindex, hcurrent⟩
    · obtain ⟨_, _, -, -, hne, -⟩ := precedingCommit_eq_some hpreceding
      exact hne heq

end

section
variable {analysis : L1Analysis} {service environment : String} {evidence : List EvidenceEvent}

theorem differs_of_rangesSound (h : RangesSound analysis service environment evidence) {range : RevertRange}
    (hrange : revertRange (proposalTimeline analysis evidence) service analysis.anchorDeploymentId = some range) :
    range.lastGoodCommit ≠ range.currentCommit := by
  have hproposed : correctivePr (proposalTimeline analysis evidence) service environment analysis.subject
      analysis.anchorDeploymentId = some (range.proposal service environment analysis.subject) := by
    rw [correctivePr, hrange]
    rfl
  obtain ⟨hmem, hkind⟩ := mem_proposals_correctivePr.mpr hproposed
  obtain ⟨range', hrange', -, hsound⟩ := h _ hmem hkind
  obtain rfl := Option.some.inj (hrange.symm.trans hrange')
  exact hsound.differs

end

/-- Every corrective pull request is for a sound range if and only if the deployment that the analysis is about
does not name its own commit as the last known-good one. -/
theorem rangesSound_iff (analysis : L1Analysis) (service environment : String) (evidence : List EvidenceEvent) :
    RangesSound analysis service environment evidence ↔
      GoodDiffers (proposalTimeline analysis evidence) service analysis.anchorDeploymentId := by
  rw [← differs_iff]
  constructor
  · intro h range hrange
    exact differs_of_rangesSound h hrange
  · intro h p hmem hkind
    obtain ⟨range, hrange, hp⟩ := Option.map_eq_some_iff.mp (mem_proposals_correctivePr.mp ⟨hmem, hkind⟩)
    exact ⟨range, hrange, hp.symm, (soundRange_iff hrange).mpr (h range hrange)⟩

/-- A deployment whose last known-good commit is its own. -/
def selfGoodDeployment : EvidenceEvent :=
  { id := "d1", kind := .deployment, service := "web", timestamp := 0, summary := "", source := ""
    attributes := [("commit", "abc"), ("last_good_commit", "abc")] }

def selfGoodAnalysis : L1Analysis := .incident ⟨[selfGoodDeployment], []⟩

/-- The empty range `abc..abc` is proposed. -/
theorem empty_range_proposed : ¬RangesSound selfGoodAnalysis "web" "prod" [] := by
  intro h
  have hrange : revertRange (proposalTimeline selfGoodAnalysis []) "web" selfGoodAnalysis.anchorDeploymentId =
      some ⟨selfGoodDeployment, "abc", "abc", none⟩ := by
    decide
  exact differs_of_rangesSound h hrange rfl

end EngineeringIntelligence.Product
