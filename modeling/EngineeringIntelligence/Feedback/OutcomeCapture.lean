import EngineeringIntelligence.PrGuardian.Outcomes

namespace EngineeringIntelligence.Feedback

open EngineeringIntelligence.Framework EngineeringIntelligence.PrGuardian

/-! A closed pull request as the webhook reads it, and the signals that its labels give. -/

structure GitHubPullRequestOutcome where
  repository : String
  prNumber : Int
  merged : Bool
  riskSignal : String
  utilitySignal : String
  deriving DecidableEq, Repr

/-- `name.removeprefix("eip-pr-guardian/")`. -/
def signalName (label : String) : String :=
  if "eip-pr-guardian/".toList.isPrefixOf label.toList then
    String.ofList (label.toList.drop "eip-pr-guardian/".toList.length)
  else label

def reviewerLabel (label : Json) : Except String String :=
  match label with
  | .obj fields =>
    match Json.get fields "name" with
    | .str name => .ok (lower name)
    | _ => .error "GitHub pull_request label name must be a string"
  | _ => .error "GitHub pull_request labels must contain objects"

/-- The first of the labels that is one of the choices. -/
def firstSignal (labels choices : List String) : String :=
  match labels.filter (· ∈ choices) with
  | [] => "not-reviewed"
  | label :: _ => signalName label

def capturedRepository (fullName : Json) : Except String String :=
  match fullName with
  | .str name => if strip name = "" then .error "missing GitHub repository or PR number" else .ok (strip name)
  | _ => .error "missing GitHub repository or PR number"

def capturedNumber (number : Json) : Except String Int :=
  match number with
  | .int n => if n ≤ 0 then .error "missing GitHub repository or PR number" else .ok n
  | _ => .error "missing GitHub repository or PR number"

def capturedMerged (merged : Json) : Except String Bool :=
  match merged with
  | .bool b => .ok b
  | _ => .error "GitHub pull_request merged must be a boolean"

/-- The labels' names; a pull request without the field has none. -/
def capturedLabels (labels : Option Json) : Except String (List String) :=
  match labels.getD (.arr []) with
  | .arr items => items.mapM reviewerLabel
  | _ => .error "GitHub pull_request labels must be an array"

/-- `normalize_github_pr_outcome`. -/
def normalizeGithubPrOutcome (payload : List (String × Json)) :
    Except String (Option GitHubPullRequestOutcome) :=
  if equalsText "closed" (Json.get payload "action") = false then .ok none
  else
    match Json.get payload "repository", Json.get payload "pull_request" with
    | .obj repository, .obj pullRequest => do
      let fullName ← capturedRepository (Json.get repository "full_name")
      let number ← capturedNumber (Json.get payload "number")
      let merged ← capturedMerged (Json.get pullRequest "merged")
      let labels ← capturedLabels (pullRequest.lookup "labels")
      .ok (some
        { repository := fullName
          prNumber := number
          merged
          riskSignal := firstSignal labels ["eip-pr-guardian/confirmed-risk", "eip-pr-guardian/false-positive"]
          utilitySignal := firstSignal labels ["eip-pr-guardian/useful", "eip-pr-guardian/not-useful"] })
    | _, _ => .error "invalid GitHub pull_request outcome payload"

/-! ### Labels and signals -/

/-- The labels of one kind: each gives the signal of its own name. -/
structure Spelled (choices : List (String × String)) : Prop where
  known : ∀ label ∈ choices.map (·.1), label ∈ knownLabels
  lookup : ∀ label, choices.lookup label = if label ∈ choices.map (·.1) then some (signalName label) else none
  injective : ∀ a ∈ choices.map (·.1), ∀ b ∈ choices.map (·.1), signalName a = signalName b → a = b

theorem lookup_two {a b u v label : String} (ha : signalName a = u) (hb : signalName b = v) :
    [(a, u), (b, v)].lookup label =
      if label ∈ [(a, u), (b, v)].map (·.1) then some (signalName label) else none := by
  by_cases h : label = a
  · subst h
    simp [ha]
  · by_cases h' : label = b
    · subst h'
      simp [List.lookup, beq_eq_false_iff_ne.mpr h, hb]
    · simp [List.lookup, beq_eq_false_iff_ne.mpr h, beq_eq_false_iff_ne.mpr h', h, h']

theorem riskLabels_spelled : Spelled riskLabels where
  known := by decide
  lookup _ := lookup_two (by decide) (by decide)
  injective := by decide

theorem utilityLabels_spelled : Spelled utilityLabels where
  known := by decide
  lookup _ := lookup_two (by decide) (by decide)
  injective := by decide

/-- The one signal that the labels of a kind give. -/
def HasSignal (choices : List (String × String)) (names : List String) (signal : String) : Prop :=
  (∀ a ∈ names, a ∉ choices.map (·.1)) ∧ signal = "not-reviewed" ∨
    ∃ a ∈ names, a ∈ choices.map (·.1) ∧ signal = signalName a ∧ ∀ b ∈ names, b ∈ choices.map (·.1) → b = a

/-- Two different labels of one kind. -/
def Conflicting (choices : List (String × String)) (names : List String) : Prop :=
  ∃ a ∈ names, ∃ b ∈ names, a ∈ choices.map (·.1) ∧ b ∈ choices.map (·.1) ∧ a ≠ b

theorem exists_signal_iff {choices : List (String × String)} {names : List String} :
    (∃ signal, HasSignal choices names signal) ↔ ¬Conflicting choices names := by
  constructor
  · rintro ⟨signal, ⟨hnone, -⟩ | ⟨c, -, -, -, hall⟩⟩ ⟨a, ha, b, hb, hmem, hmem', hne⟩
    · exact hnone a ha hmem
    · exact hne ((hall a ha hmem).trans (hall b hb hmem').symm)
  · intro h
    by_cases hsome : ∃ a ∈ names, a ∈ choices.map (·.1)
    · obtain ⟨a, ha, hmem⟩ := hsome
      refine ⟨signalName a, Or.inr ⟨a, ha, hmem, rfl, fun b hb hmem' => ?_⟩⟩
      by_contra hne
      exact h ⟨b, hb, a, ha, hmem', hmem, hne⟩
    · exact ⟨"not-reviewed", Or.inl ⟨fun a ha hmem => hsome ⟨a, ha, hmem⟩, rfl⟩⟩

theorem hasSignal_congr {choices : List (String × String)} {names names' : List String} {signal : String}
    (h : ∀ a, a ∈ names ↔ a ∈ names') : HasSignal choices names signal ↔ HasSignal choices names' signal := by
  simp only [HasSignal, h]

/-- The webhook takes the one signal where there is one. -/
theorem firstSignal_of_hasSignal {choices : List (String × String)} {names : List String} {signal : String}
    (h : HasSignal choices names signal) : firstSignal names (choices.map (·.1)) = signal := by
  rw [firstSignal]
  rcases h with ⟨hnone, rfl⟩ | ⟨a, ha, hmem, rfl, hall⟩
  · have hnil : names.filter (· ∈ choices.map (·.1)) = [] := by
      rw [List.filter_eq_nil_iff]
      intro b hb
      simpa using hnone b hb
    rw [hnil]
  · cases hfilter : names.filter (· ∈ choices.map (·.1)) with
    | nil =>
      rw [List.filter_eq_nil_iff] at hfilter
      exact absurd (decide_eq_true hmem) (hfilter a ha)
    | cons b bs =>
      obtain ⟨hb, hmem'⟩ := List.mem_filter.mp (hfilter ▸ List.mem_cons_self ..)
      rw [hall b hb (of_decide_eq_true hmem')]

theorem sortedSet_eq_singleton {xs : List String} {s : String} :
    sortedSet xs = [s] ↔ s ∈ xs ∧ ∀ t ∈ xs, t = s := by
  constructor
  · intro h
    have hmem (t : String) : t ∈ xs ↔ t = s := by
      rw [← mem_sortedSet, h, List.mem_singleton]
    exact ⟨(hmem s).mpr rfl, fun t => (hmem t).mp⟩
  · rintro ⟨hs, hall⟩
    refine increasing_ext (pairwise_sortedSet xs) (List.pairwise_singleton _ s) fun t => ?_
    rw [mem_sortedSet, List.mem_singleton]
    exact ⟨hall t, fun ht => ht ▸ hs⟩

theorem singleSignal_eq_ok {labels : List String} {choices : List (String × String)} {name signal : String} :
    singleSignal labels choices name = .ok signal ↔
      (labels.filterMap (fun label => choices.lookup label) = [] ∧ signal = "not-reviewed") ∨
        (signal ∈ labels.filterMap (fun label => choices.lookup label) ∧
          ∀ t ∈ labels.filterMap (fun label => choices.lookup label), t = signal) := by
  rw [← sortedSet_eq_singleton, singleSignal]
  generalize labels.filterMap (fun label => choices.lookup label) = xs
  have hnil : sortedSet xs = [] ↔ xs = [] := by
    rw [List.eq_nil_iff_forall_not_mem, List.eq_nil_iff_forall_not_mem]
    simp only [mem_sortedSet]
  rw [← hnil]
  cases sortedSet xs with
  | nil => simp [eq_comm]
  | cons first rest =>
    cases rest with
    | nil => simp
    | cons second rest => simp

/-- The recognized labels are those of the items, each of which has a name. -/
theorem recognizedLabels_eq_ok {items : List Json} {labels : List String} :
    recognizedLabels (.arr items) = .ok labels ↔ (∀ item ∈ items, (labelName item).isOk = true) ∧
      labels = sortedSet ((items.filterMap fun item => (labelName item).toOption).filter (· ∈ knownLabels)) := by
  have hnames {names : List String} (h : items.mapM labelName = .ok names) :
      items.filterMap (fun item => (labelName item).toOption) = names := by
    have hall := mapM_eq_ok.mp h
    clear h
    induction hall with
    | nil => rfl
    | cons hfirst _ ih => rw [List.filterMap_cons, toOption_eq_some.mpr hfirst, ih]
  rw [recognizedLabels, bind_eq_ok_iff, ← mapM_isOk_iff, isOk_iff]
  constructor
  · rintro ⟨names, hmap, hlabels⟩
    rw [hnames hmap]
    exact ⟨⟨names, hmap⟩, (Except.ok.inj hlabels).symm⟩
  · rintro ⟨⟨names, hmap⟩, rfl⟩
    exact ⟨names, hmap, by rw [hnames hmap]⟩

/-- Calibration takes the one signal where there is one, and refuses the labels where there is not. -/
theorem singleSignal_recognized {choices : List (String × String)} (hchoices : Spelled choices) {items : List Json}
    {labels names : List String} (h : recognizedLabels (.arr items) = .ok labels)
    (hnames : ∀ a, a ∈ names ↔ ∃ item ∈ items, labelName item = .ok a) {name signal : String} :
    singleSignal labels choices name = .ok signal ↔ HasSignal choices names signal := by
  obtain ⟨-, rfl⟩ := recognizedLabels_eq_ok.mp h
  have hmem (v : String) : v ∈ (sortedSet ((items.filterMap fun item => (labelName item).toOption).filter
      (· ∈ knownLabels))).filterMap (fun label => choices.lookup label) ↔
        ∃ a ∈ names, a ∈ choices.map (·.1) ∧ v = signalName a := by
    simp only [List.mem_filterMap, mem_sortedSet, List.mem_filter, toOption_eq_some, hchoices.lookup,
      decide_eq_true_eq, hnames]
    constructor
    · rintro ⟨a, ⟨ha, -⟩, hv⟩
      split at hv
      · next hkey => exact ⟨a, ha, hkey, (Option.some.inj hv).symm⟩
      · cases hv
    · rintro ⟨a, ha, hkey, rfl⟩
      exact ⟨a, ⟨ha, hchoices.known a hkey⟩, if_pos hkey⟩
  rw [singleSignal_eq_ok, List.eq_nil_iff_forall_not_mem, HasSignal]
  simp only [hmem]
  constructor
  · rintro (⟨hnone, rfl⟩ | ⟨⟨a, ha, hkey, rfl⟩, hall⟩)
    · exact Or.inl ⟨fun a ha hkey => hnone (signalName a) ⟨a, ha, hkey, rfl⟩, rfl⟩
    · refine Or.inr ⟨a, ha, hkey, rfl, fun b hb hkey' => ?_⟩
      exact hchoices.injective b hkey' a hkey (hall (signalName b) ⟨b, hb, hkey', rfl⟩)
  · rintro (⟨hnone, rfl⟩ | ⟨a, ha, hkey, rfl, hall⟩)
    · refine Or.inl ⟨fun v hv => ?_, rfl⟩
      obtain ⟨a, ha, hkey, -⟩ := hv
      exact hnone a ha hkey
    · refine Or.inr ⟨⟨a, ha, hkey, rfl⟩, ?_⟩
      rintro t ⟨b, hb, hkey', rfl⟩
      rw [hall b hb hkey']

end EngineeringIntelligence.Feedback
