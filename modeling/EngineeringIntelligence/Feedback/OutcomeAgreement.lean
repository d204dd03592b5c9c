import EngineeringIntelligence.Feedback.OutcomeCapture

namespace EngineeringIntelligence.Feedback

open EngineeringIntelligence.Framework EngineeringIntelligence.PrGuardian

/-! Where the webhook and the record for calibration agree on a closed pull request. -/

/-- A payload that the webhook can read, with the names of its labels. -/
structure Readable (payload repository pullRequest : List (String × Json)) (fullName : String) (number : Int)
    (merged : Bool) (items : List Json) (names : List String) : Prop where
  repositoryAt : Json.get payload "repository" = .obj repository
  pullRequestAt : Json.get payload "pull_request" = .obj pullRequest
  fullNameAt : Json.get repository "full_name" = .str fullName
  named : strip fullName ≠ ""
  numberAt : Json.get payload "number" = .int number
  positive : 0 < number
  mergedAt : Json.get pullRequest "merged" = .bool merged
  labelsAt : (pullRequest.lookup "labels").getD (.arr []) = .arr items
  namesAt : List.Forall₂ (fun item name => reviewerLabel item = .ok name) items names

theorem capturedRepository_eq_ok {value : Json} {name : String} :
    capturedRepository value = .ok name ↔ ∃ s, value = .str s ∧ strip s ≠ "" ∧ strip s = name := by
  cases value <;> simp [capturedRepository, ite_error_eq_ok_iff]

theorem capturedNumber_eq_ok {value : Json} {n : Int} :
    capturedNumber value = .ok n ↔ value = .int n ∧ 0 < n := by
  cases value <;> simp [capturedNumber, ite_error_eq_ok_iff]
  constructor
  · rintro ⟨hpos, rfl⟩
    exact ⟨rfl, hpos⟩
  · rintro ⟨rfl, hpos⟩
    exact ⟨hpos, rfl⟩

theorem capturedMerged_eq_ok {value : Json} {b : Bool} : capturedMerged value = .ok b ↔ value = .bool b := by
  cases value <;> simp [capturedMerged]

theorem capturedLabels_eq_ok {value : Option Json} {names : List String} :
    capturedLabels value = .ok names ↔
      ∃ items, value.getD (.arr []) = .arr items ∧
        List.Forall₂ (fun item name => reviewerLabel item = .ok name) items names := by
  rw [capturedLabels]
  generalize value.getD (.arr []) = labels
  cases labels <;> simp [mapM_eq_ok]

theorem normalize_eq_ok {payload : List (String × Json)} {a : GitHubPullRequestOutcome}
    (hclosed : equalsText "closed" (Json.get payload "action") = true) :
    normalizeGithubPrOutcome payload = .ok (some a) ↔
      ∃ repository pullRequest fullName number merged items names,
        Readable payload repository pullRequest fullName number merged items names ∧
        a = ⟨strip fullName, number, merged, firstSignal names (riskLabels.map (·.1)),
          firstSignal names (utilityLabels.map (·.1))⟩ := by
  rw [normalizeGithubPrOutcome, hclosed, if_neg Bool.noConfusion]
  split
  · next repository pullRequest hrepository hpull =>
    simp only [bind_eq_ok_iff, capturedRepository_eq_ok, capturedNumber_eq_ok, capturedMerged_eq_ok,
      capturedLabels_eq_ok]
    constructor
    · rintro ⟨_, ⟨fullName, hname, hne, rfl⟩, number, ⟨hnumber, hpos⟩, merged, hmerged, names,
        ⟨items, hitems, hall⟩, ha⟩
      exact ⟨repository, pullRequest, fullName, number, merged, items, names,
        ⟨hrepository, hpull, hname, hne, hnumber, hpos, hmerged, hitems, hall⟩,
        (Option.some.inj (Except.ok.inj ha)).symm⟩
    · rintro ⟨repository', pullRequest', fullName, number, merged, items, names, h, rfl⟩
      obtain rfl : repository = repository' := Json.obj.inj (hrepository.symm.trans h.repositoryAt)
      obtain rfl : pullRequest = pullRequest' := Json.obj.inj (hpull.symm.trans h.pullRequestAt)
      exact ⟨_, ⟨fullName, h.fullNameAt, h.named, rfl⟩, number, ⟨h.numberAt, h.positive⟩, merged, h.mergedAt, names,
        ⟨items, h.labelsAt, h.namesAt⟩, rfl⟩
  · next hno =>
    refine ⟨nofun, ?_⟩
    rintro ⟨repository, pullRequest, fullName, number, merged, items, names, h, -⟩
    exact absurd h.pullRequestAt (hno repository pullRequest h.repositoryAt)

theorem reviewerLabel_of_labelName {item : Json} {name : String} (h : labelName item = .ok name) :
    reviewerLabel item = .ok name := by
  simp only [labelName, bind_eq_ok_iff, mapping_eq_ok, string_eq_ok_iff] at h
  obtain ⟨fields, rfl, text, ⟨htext, -⟩, hname⟩ := h
  rw [reviewerLabel, htext]
  exact hname

/-- The names of the labels that a payload has. -/
def namesOf (payload : List (String × Json)) : List String :=
  match Json.get payload "pull_request" with
  | .obj pullRequest =>
    match Json.get pullRequest "labels" with
    | .arr items => items.filterMap fun item => (reviewerLabel item).toOption
    | _ => []
  | _ => []

theorem mem_names_of_forall₂ {items : List Json} {names : List String} {f : Json → Except String String}
    (h : List.Forall₂ (fun item name => f item = .ok name) items names) (a : String) :
    a ∈ names ↔ ∃ item ∈ items, f item = .ok a := by
  induction h with
  | nil => simp
  | cons hfirst _ ih => simp [ih, hfirst, eq_comm]

theorem Readable.mem_names {payload repository pullRequest : List (String × Json)} {fullName : String}
    {number : Int} {merged : Bool} {items : List Json} {names : List String}
    (h : Readable payload repository pullRequest fullName number merged items names) (a : String) :
    a ∈ names ↔ a ∈ namesOf payload := by
  rw [mem_names_of_forall₂ h.namesAt, namesOf, h.pullRequestAt]
  have hlabels := h.labelsAt
  cases hlookup : pullRequest.lookup "labels" with
  | none =>
    rw [hlookup] at hlabels
    obtain rfl : [] = items := Json.arr.inj hlabels
    simp [Json.get, hlookup]
  | some value =>
    rw [hlookup, Option.getD_some] at hlabels
    simp [Json.get, hlookup, hlabels, toOption_eq_some]

/-- What calibration accepts has one signal of each kind. -/
theorem closure_signals {utcNow : String} {payload : List (String × Json)} {recordedAt : Option String}
    {b : ShadowOutcome} (h : closureOutcome utcNow payload none recordedAt = .ok b) :
    HasSignal riskLabels (namesOf payload) b.reviewerSignal.risk ∧
      HasSignal utilityLabels (namesOf payload) b.reviewerSignal.utility := by
  simp only [closureOutcome, bind_eq_ok_iff, ensure_eq_ok, mapping_eq_ok, exists_const] at h
  obtain ⟨-, repository, -, pullRequest, hpull, name, -, -, number, -, head, -, sha, -, -, labels, hlabels, risk,
    hrisk, utility, hutility, source, -, merged, -, hb⟩ := h
  obtain rfl := Except.ok.inj hb
  cases hvalue : Json.get pullRequest "labels" with
  | arr items =>
    rw [hvalue] at hlabels
    have hnames (a : String) : a ∈ namesOf payload ↔ ∃ item ∈ items, labelName item = .ok a := by
      rw [namesOf, hpull]
      simp only [hvalue, List.mem_filterMap, toOption_eq_some]
      constructor
      · rintro ⟨item, hitem, ha⟩
        obtain ⟨name, hname⟩ := isOk_iff.mp ((recognizedLabels_eq_ok.mp hlabels).1 item hitem)
        obtain rfl : name = a := Except.ok.inj ((reviewerLabel_of_labelName hname).symm.trans ha)
        exact ⟨item, hitem, hname⟩
      · rintro ⟨item, hitem, ha⟩
        exact ⟨item, hitem, reviewerLabel_of_labelName ha⟩
    exact ⟨(singleSignal_recognized riskLabels_spelled hlabels hnames).mp hrisk,
      (singleSignal_recognized utilityLabels_spelled hlabels hnames).mp hutility⟩
  | null | bool b | int n | float r | str s | obj fields =>
    rw [hvalue] at hlabels
    cases hlabels

/-- The same payload with its labels in another order. -/
structure Relabelled (payload payload' : List (String × Json)) : Prop where
  others : ∀ key, key ≠ "pull_request" → Json.get payload' key = Json.get payload key
  reordered : ∃ pullRequest pullRequest' items items',
    Json.get payload "pull_request" = .obj pullRequest ∧ Json.get payload' "pull_request" = .obj pullRequest' ∧
    (∀ key, key ≠ "labels" → Json.get pullRequest' key = Json.get pullRequest key) ∧
    pullRequest.lookup "labels" = some (.arr items) ∧ pullRequest'.lookup "labels" = some (.arr items') ∧
    items'.Perm items

theorem Relabelled.symm {payload payload' : List (String × Json)} (h : Relabelled payload payload') :
    Relabelled payload' payload where
  others key hkey := (h.others key hkey).symm
  reordered := by
    obtain ⟨pullRequest, pullRequest', items, items', hpull, hpull', hothers, hlabels, hlabels', hperm⟩ :=
      h.reordered
    exact ⟨pullRequest', pullRequest, items', items, hpull', hpull, fun key hkey => (hothers key hkey).symm,
      hlabels', hlabels, hperm.symm⟩

theorem Relabelled.mem_namesOf {payload payload' : List (String × Json)} (h : Relabelled payload payload')
    (a : String) : a ∈ namesOf payload' ↔ a ∈ namesOf payload := by
  obtain ⟨pullRequest, pullRequest', items, items', hpull, hpull', -, hlabels, hlabels', hperm⟩ := h.reordered
  rw [namesOf, namesOf, hpull, hpull']
  simp [Json.get, hlabels, hlabels', hperm.mem_iff]

theorem Relabelled.closure {payload payload' : List (String × Json)} (h : Relabelled payload payload')
    {utcNow : String} {recordedAt : Option String} {b : ShadowOutcome}
    (hb : closureOutcome utcNow payload none recordedAt = .ok b) :
    closureOutcome utcNow payload' none recordedAt = .ok b := by
  obtain ⟨pullRequest, pullRequest', items, items', hpull, hpull', hothers, hlabels, hlabels', hperm⟩ := h.reordered
  have hget : Json.get pullRequest "labels" = .arr items := by rw [Json.get, hlabels, Option.getD_some]
  have hget' : Json.get pullRequest' "labels" = .arr items' := by rw [Json.get, hlabels', Option.getD_some]
  have hrecognized {labels : List String} (hl : recognizedLabels (.arr items) = .ok labels) :
      recognizedLabels (.arr items') = .ok labels := by
    obtain ⟨hall, rfl⟩ := recognizedLabels_eq_ok.mp hl
    refine recognizedLabels_eq_ok.mpr ⟨fun item hitem => hall item (hperm.mem_iff.mp hitem), ?_⟩
    refine sortedSet_congr fun a => ?_
    simp only [List.mem_filter, List.mem_filterMap, hperm.mem_iff]
  simp only [closureOutcome, bind_eq_ok_iff, ensure_eq_ok, mapping_eq_ok, exists_const] at hb ⊢
  obtain ⟨hclosed, repository, hrepository, pullRequest₁, hpull₁, name, hname, hvalid, number, hnumber, head,
    hhead, sha, hsha, hvalidSha, labels, hl, hrest⟩ := hb
  obtain rfl : pullRequest = pullRequest₁ := Json.obj.inj (hpull.symm.trans hpull₁)
  rw [hget] at hl
  rw [h.others "action" (by decide), h.others "repository" (by decide), h.others "number" (by decide)]
  refine ⟨hclosed, repository, hrepository, pullRequest', hpull', name, hname, hvalid, number, hnumber, head, ?_,
    sha, hsha, hvalidSha, labels, ?_, ?_⟩
  · rw [hothers "head" (by decide), hhead]
  · rw [hget', hrecognized hl]
  · rw [hothers "merged" (by decide)]
    exact hrest

theorem Relabelled.readable {payload payload' : List (String × Json)} (h : Relabelled payload payload')
    {repository pullRequest : List (String × Json)} {fullName : String}
    {number : Int} {merged : Bool} {items : List Json} {names : List String}
    (hread : Readable payload repository pullRequest fullName number merged items names) :
    ∃ pullRequest' items' names',
      Readable payload' repository pullRequest' fullName number merged items' names' := by
  obtain ⟨pullRequest₁, pullRequest', items₁, items', hpull, hpull', hothers, hlabels, hlabels', hperm⟩ :=
    h.reordered
  obtain rfl : pullRequest₁ = pullRequest := Json.obj.inj (hpull.symm.trans hread.pullRequestAt)
  obtain rfl : items₁ = items := by
    have hitems := hread.labelsAt
    rw [hlabels] at hitems
    exact Json.arr.inj hitems
  have hok : items'.mapM reviewerLabel |>.isOk := by
    rw [mapM_isOk_iff]
    intro item hitem
    have hall := mapM_isOk_iff.mp (isOk_iff.mpr ⟨names, mapM_eq_ok.mpr hread.namesAt⟩)
    exact hall item (hperm.mem_iff.mp hitem)
  obtain ⟨names', hnames'⟩ := isOk_iff.mp hok
  exact ⟨pullRequest', items', names',
    { repositoryAt := (h.others _ (by decide)).trans hread.repositoryAt
      pullRequestAt := hpull'
      fullNameAt := hread.fullNameAt
      named := hread.named
      numberAt := (h.others _ (by decide)).trans hread.numberAt
      positive := hread.positive
      mergedAt := (hothers _ (by decide)).trans hread.mergedAt
      labelsAt := by rw [hlabels', Option.getD_some]
      namesAt := mapM_eq_ok.mp hnames' }⟩

/-- The signals of a payload that the webhook accepts. -/
def webhookSignals (payload : List (String × Json)) : Option (String × String) :=
  match normalizeGithubPrOutcome payload with
  | .ok (some a) => some (a.riskSignal, a.utilitySignal)
  | _ => none

/-- The signals of a payload that calibration accepts. -/
def closureSignals (utcNow : String) (payload : List (String × Json)) (recordedAt : Option String) :
    Option (String × String) :=
  match closureOutcome utcNow payload none recordedAt with
  | .ok b => some (b.reviewerSignal.risk, b.reviewerSignal.utility)
  | .error _ => none

/-- The two paths agree on a payload, refuse two different labels of one kind, and do not depend on the
order of the labels. -/
structure SignalsAgree (payload : List (String × Json)) : Prop where
  same : ∀ utcNow recordedAt a b, normalizeGithubPrOutcome payload = .ok (some a) →
    closureOutcome utcNow payload none recordedAt = .ok b →
    a.riskSignal = b.reviewerSignal.risk ∧ a.utilitySignal = b.reviewerSignal.utility
  refused : Conflicting riskLabels (namesOf payload) ∨ Conflicting utilityLabels (namesOf payload) →
    (∀ a, normalizeGithubPrOutcome payload ≠ .ok (some a)) ∧
      ∀ utcNow recordedAt b, closureOutcome utcNow payload none recordedAt ≠ .ok b
  order : ∀ payload', Relabelled payload payload' →
    webhookSignals payload' = webhookSignals payload ∧
      ∀ utcNow recordedAt, closureSignals utcNow payload' recordedAt = closureSignals utcNow payload recordedAt

/-- A payload that the webhook can read. -/
def WellFormed (payload : List (String × Json)) : Prop :=
  ∃ repository pullRequest fullName number merged items names,
    Readable payload repository pullRequest fullName number merged items names

theorem Relabelled.wellFormed {payload payload' : List (String × Json)} (h : Relabelled payload payload')
    (hread : WellFormed payload) : WellFormed payload' := by
  obtain ⟨repository, pullRequest, fullName, number, merged, items, names, hread⟩ := hread
  obtain ⟨pullRequest', items', names', hread'⟩ := h.readable hread
  exact ⟨repository, pullRequest', fullName, number, merged, items', names', hread'⟩

section
variable {payload : List (String × Json)} (hclosed : equalsText "closed" (Json.get payload "action") = true)
include hclosed

theorem accepted_iff : (∃ a, normalizeGithubPrOutcome payload = .ok (some a)) ↔ WellFormed payload := by
  constructor
  · rintro ⟨a, ha⟩
    obtain ⟨repository, pullRequest, fullName, number, merged, items, names, hread, -⟩ :=
      (normalize_eq_ok hclosed).mp ha
    exact ⟨repository, pullRequest, fullName, number, merged, items, names, hread⟩
  · rintro ⟨repository, pullRequest, fullName, number, merged, items, names, hread⟩
    exact ⟨_, (normalize_eq_ok hclosed).mpr
      ⟨repository, pullRequest, fullName, number, merged, items, names, hread, rfl⟩⟩

/-- Where there is one signal of each kind, the webhook gives these. -/
theorem webhook_signals {a : GitHubPullRequestOutcome} (ha : normalizeGithubPrOutcome payload = .ok (some a))
    {risk utility : String} (hrisk : HasSignal riskLabels (namesOf payload) risk)
    (hutility : HasSignal utilityLabels (namesOf payload) utility) :
    a.riskSignal = risk ∧ a.utilitySignal = utility := by
  obtain ⟨repository, pullRequest, fullName, number, merged, items, names, hread, rfl⟩ :=
    (normalize_eq_ok hclosed).mp ha
  exact ⟨firstSignal_of_hasSignal ((hasSignal_congr hread.mem_names).mpr hrisk),
    firstSignal_of_hasSignal ((hasSignal_congr hread.mem_names).mpr hutility)⟩

theorem webhookSignals_of_wellFormed (h : WellFormed payload) {risk utility : String}
    (hrisk : HasSignal riskLabels (namesOf payload) risk)
    (hutility : HasSignal utilityLabels (namesOf payload) utility) :
    webhookSignals payload = some (risk, utility) := by
  obtain ⟨a, ha⟩ := (accepted_iff hclosed).mpr h
  obtain ⟨rfl, rfl⟩ := webhook_signals hclosed ha hrisk hutility
  rw [webhookSignals, ha]

theorem webhookSignals_eq_none (h : ¬WellFormed payload) : webhookSignals payload = none := by
  rw [webhookSignals]
  split
  · next a ha => exact absurd ((accepted_iff hclosed).mp ⟨a, ha⟩) h
  · rfl

end

theorem Relabelled.closureSignals {payload payload' : List (String × Json)} (h : Relabelled payload payload')
    (utcNow : String) (recordedAt : Option String) :
    closureSignals utcNow payload' recordedAt = closureSignals utcNow payload recordedAt := by
  rw [Feedback.closureSignals, Feedback.closureSignals]
  cases hb : closureOutcome utcNow payload none recordedAt with
  | ok b => rw [h.closure hb]
  | error message =>
    cases hb' : closureOutcome utcNow payload' none recordedAt with
    | ok b =>
      rw [h.symm.closure hb'] at hb
      cases hb
    | error message' => rfl

/-- On a closed pull request the two paths agree if and only if the webhook cannot read it, or it has no two
different labels of one kind. -/
theorem signalsAgree_iff (payload : List (String × Json))
    (hclosed : equalsText "closed" (Json.get payload "action") = true) :
    SignalsAgree payload ↔
      (WellFormed payload →
        ¬Conflicting riskLabels (namesOf payload) ∧ ¬Conflicting utilityLabels (namesOf payload)) := by
  constructor
  · intro h hread
    obtain ⟨a, ha⟩ := (accepted_iff hclosed).mpr hread
    exact ⟨fun hconflict => (h.refused (Or.inl hconflict)).1 a ha,
      fun hconflict => (h.refused (Or.inr hconflict)).1 a ha⟩
  · intro h
    refine ⟨?_, ?_, ?_⟩
    · intro utcNow recordedAt a b ha hb
      obtain ⟨hrisk, hutility⟩ := closure_signals hb
      exact webhook_signals hclosed ha hrisk hutility
    · intro hconflict
      constructor
      · intro a ha
        obtain ⟨hrisk, hutility⟩ := h ((accepted_iff hclosed).mp ⟨a, ha⟩)
        exact hconflict.elim hrisk hutility
      · intro utcNow recordedAt b hb
        obtain ⟨hrisk, hutility⟩ := closure_signals hb
        rcases hconflict with hconflict | hconflict
        · exact exists_signal_iff.mp ⟨_, hrisk⟩ hconflict
        · exact exists_signal_iff.mp ⟨_, hutility⟩ hconflict
    · intro payload' hlabels
      refine ⟨?_, hlabels.closureSignals⟩
      have hclosed' : equalsText "closed" (Json.get payload' "action") = true := by
        rw [hlabels.others "action" (by decide), hclosed]
      by_cases hread : WellFormed payload
      · obtain ⟨hrisk, hutility⟩ := h hread
        obtain ⟨risk, hrisk⟩ := exists_signal_iff.mpr hrisk
        obtain ⟨utility, hutility⟩ := exists_signal_iff.mpr hutility
        rw [webhookSignals_of_wellFormed hclosed hread hrisk hutility,
          webhookSignals_of_wellFormed hclosed' (hlabels.wellFormed hread)
            ((hasSignal_congr hlabels.mem_namesOf).mpr hrisk) ((hasSignal_congr hlabels.mem_namesOf).mpr hutility)]
      · rw [webhookSignals_eq_none hclosed hread,
          webhookSignals_eq_none hclosed' fun hread' => hread (hlabels.symm.wellFormed hread')]

/-- A closed pull request with the labels of the given names. -/
def closedPayload (names : List String) : List (String × Json) :=
  [("action", .str "closed"), ("number", .int 7), ("repository", .obj [("full_name", .str "acme/web")]),
    ("pull_request", .obj [("merged", .bool true), ("head", .obj [("sha", .str "abcd1234")]),
      ("labels", .arr (names.map fun name => .obj [("name", .str name)]))])]

theorem unlabelled_agrees : SignalsAgree (closedPayload []) :=
  (signalsAgree_iff (closedPayload []) rfl).mpr fun _ =>
    ⟨fun ⟨_, ha, _⟩ => List.not_mem_nil ha, fun ⟨_, ha, _⟩ => List.not_mem_nil ha⟩

/-- The webhook takes the first of two labels that contradict each other. -/
theorem contradiction_captured :
    ¬SignalsAgree (closedPayload ["eip-pr-guardian/false-positive", "eip-pr-guardian/confirmed-risk"]) := by
  intro h
  have hconflict : Conflicting riskLabels
      (namesOf (closedPayload ["eip-pr-guardian/false-positive", "eip-pr-guardian/confirmed-risk"])) :=
    ⟨"eip-pr-guardian/false-positive", by decide, "eip-pr-guardian/confirmed-risk", by decide,
      by decide, by decide, by decide⟩
  have hsignals : webhookSignals (closedPayload ["eip-pr-guardian/false-positive",
      "eip-pr-guardian/confirmed-risk"]) = some ("false-positive", "not-reviewed") := by
    decide
  rw [webhookSignals] at hsignals
  split at hsignals
  · next a ha => exact (h.refused (Or.inl hconflict)).1 a ha
  · cases hsignals

end EngineeringIntelligence.Feedback
