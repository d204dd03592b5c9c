import EngineeringIntelligence.Validation.ProductionReadiness
import Mathlib.Computability.Primrec.List
import Mathlib.Data.List.Forall2
import Mathlib.Data.List.Perm.Basic

namespace EngineeringIntelligence.Validation

open EngineeringIntelligence.Framework

/-! Where a report of readiness rests on valid measured records, and not on the order of the registry. -/

/-- The records of a registry, in the order they are read. -/
def registryRecords (directory : Option (List RegistryFile)) : List Json :=
  (sortedBy (·.name) (directory.getD [])).flatMap (·.records)

def recordEvidence (record : Json) : Option ReadinessEvidence := (readRecord record).toOption

/-- What a registry's records say of readiness. -/
def registryEvidence (records : List Json) : List ReadinessEvidence := records.filterMap recordEvidence

/-- What an item cites, if it passes with an artifact. -/
def citation (item : ReadinessEvidence) : Option String :=
  if item.passed && strip item.evidenceRef ≠ "" then some item.evidenceRef else none

/-- The item of a key that stays: the last. -/
def latest (evidence : List ReadinessEvidence) (key : String) : Option ReadinessEvidence :=
  (evidence.filter (·.key = key)).getLast?

/-- The record proves the key: it passes with an artifact, is valid, and was measured. -/
def Proven (key : String) (record : Json) : Prop :=
  ∃ item valid, recordEvidence record = some item ∧ item.key = key ∧ (citation item).isSome = true ∧
    validateRecord record = .ok valid ∧ valid.basis = "measured"

/-- However the registry's records are ordered: a report is ready only where each key is proven by a record and
failed by none, and it is always the same report. -/
structure FailClosed (score : Nat → Nat → PyFloat) (directory : Option (List RegistryFile)) : Prop where
  proven : ∀ directory', (registryRecords directory').Perm (registryRecords directory) → ∀ inputs,
    (evaluateProductionReadiness score (loadReadinessEvidence directory').evidence inputs).ready = true →
      ∀ key ∈ requiredKeys, (∃ record ∈ registryRecords directory, Proven key record) ∧
        ∀ item ∈ registryEvidence (registryRecords directory), item.key = key → item.passed = true
  order : ∀ directory', (registryRecords directory').Perm (registryRecords directory) → ∀ inputs,
    evaluateProductionReadiness score (loadReadinessEvidence directory').evidence inputs =
      evaluateProductionReadiness score (loadReadinessEvidence directory).evidence inputs

/-- The records of one key agree on whether they pass with an artifact; where they cite different ones, each is
cited by all records of some other key; and keys that all have a record which passes with an artifact all have
one that is valid and measured besides. -/
structure Coherent (records : List Json) : Prop where
  measured : (∀ key ∈ requiredKeys, ∃ item ∈ registryEvidence records, item.key = key ∧ (citation item).isSome = true) →
    ∀ key ∈ requiredKeys, ∃ record ∈ records, Proven key record
  agreed : ∀ a ∈ registryEvidence records, ∀ b ∈ registryEvidence records, a.key = b.key →
    (citation a).isSome = true → (citation b).isSome = true
  shared : ∀ a ∈ registryEvidence records, ∀ b ∈ registryEvidence records, a.key = b.key → ∀ x y,
    citation a = some x → citation b = some y → x ≠ y → ∃ key, (∃ c ∈ registryEvidence records, c.key = key) ∧
      ∀ c ∈ registryEvidence records, c.key = key → citation c = some x

theorem evidence_load (directory : Option (List RegistryFile)) :
    (loadReadinessEvidence directory).evidence = registryEvidence (registryRecords directory) := rfl

/-! ### The latest item of a key -/

theorem cited_eq (evidence : List ReadinessEvidence) (key : String) :
    cited evidence key = (latest evidence key).bind citation := by
  unfold cited latest
  cases (evidence.filter (·.key = key)).getLast? <;> rfl

theorem latest_mem {evidence : List ReadinessEvidence} {key : String} {item : ReadinessEvidence}
    (h : latest evidence key = some item) : item ∈ evidence ∧ item.key = key := by
  have hmem := List.mem_of_getLast? h
  rw [List.mem_filter] at hmem
  exact ⟨hmem.1, by simpa using hmem.2⟩

theorem latest_exists {evidence : List ReadinessEvidence} {item : ReadinessEvidence} (h : item ∈ evidence) :
    ∃ last, latest evidence item.key = some last := by
  cases hlast : latest evidence item.key with
  | some last => exact ⟨last, rfl⟩
  | none =>
    unfold latest at hlast
    rw [List.getLast?_eq_none_iff, List.filter_eq_nil_iff] at hlast
    exact absurd (hlast item h) (by simp)

theorem latest_append (first second : List ReadinessEvidence) (key : String) :
    latest (first ++ second) key = (latest second key).or (latest first key) := by
  unfold latest
  rw [List.filter_append, List.getLast?_append]

theorem latest_singleton (item : ReadinessEvidence) (key : String) :
    latest [item] key = if item.key = key then some item else none := by
  unfold latest
  by_cases h : item.key = key <;> simp [h]

/-- Every item is of a required key. -/
theorem key_required {records : List Json} {item : ReadinessEvidence} (h : item ∈ registryEvidence records) :
    item.key ∈ requiredKeys := by
  obtain ⟨record, -, hrecord⟩ := List.mem_filterMap.mp h
  cases record with
  | obj fields =>
    unfold recordEvidence readRecord readinessEvidenceFromRecord at hrecord
    cases hkey : recordKey fields with
    | none => simp [hkey, Except.toOption] at hrecord
    | some key =>
      have hrequired : key ∈ requiredKeys := by
        unfold recordKey at hkey
        split at hkey
        · split_ifs at hkey with hmem
          rw [← Option.some.inj hkey]
          exact hmem
        · cases hkey
      cases harea : readinessAreas.lookup key with
      | none => simp [hkey, harea, Except.toOption] at hrecord
      | some area =>
        simp only [hkey, harea, Option.bind_some, Option.map_some, Except.toOption, Option.some.injEq] at hrecord
        rw [← hrecord]
        exact hrequired
  | null | bool | int | float | str | arr => simp [recordEvidence, readRecord, Except.toOption] at hrecord

theorem cited_eq_some {evidence : List ReadinessEvidence} {key x : String} :
    cited evidence key = some x ↔ ∃ item, latest evidence key = some item ∧ citation item = some x := by
  rw [cited_eq, Option.bind_eq_some_iff]

/-! ### Where the registry is coherent -/

section

variable {records : List Json} {evidence : List ReadinessEvidence}

theorem cited_isSome_iff (h : Coherent records) (hperm : evidence.Perm (registryEvidence records)) (key : String) :
    (cited evidence key).isSome = true ↔
      ∃ item ∈ registryEvidence records, item.key = key ∧ (citation item).isSome = true := by
  constructor
  · intro hsome
    obtain ⟨x, hcited⟩ := Option.isSome_iff_exists.mp hsome
    obtain ⟨item, hlast, hcites⟩ := cited_eq_some.mp hcited
    obtain ⟨hmem, hkey⟩ := latest_mem hlast
    exact ⟨item, hperm.mem_iff.mp hmem, hkey, by rw [hcites]; rfl⟩
  · intro hitem
    obtain ⟨item, hmem, hkey, hcites⟩ := hitem
    obtain ⟨last, hlast⟩ := latest_exists (hperm.mem_iff.mpr hmem)
    rw [hkey] at hlast
    obtain ⟨hlastMem, hlastKey⟩ := latest_mem hlast
    have hagreed := h.agreed item hmem last (hperm.mem_iff.mp hlastMem) (hkey.trans hlastKey.symm) hcites
    rw [cited_eq, hlast]
    exact hagreed

/-- In another order every artifact is still cited. -/
theorem cited_of_perm {evidence' : List ReadinessEvidence} (h : Coherent records)
    (hperm : evidence.Perm (registryEvidence records)) (hperm' : evidence'.Perm (registryEvidence records))
    {key x : String} (hcited : cited evidence key = some x) :
    ∃ key' ∈ requiredKeys, cited evidence' key' = some x := by
  obtain ⟨a, hlast, ha⟩ := cited_eq_some.mp hcited
  obtain ⟨hmem, hkey⟩ := latest_mem hlast
  have hmemRecords := hperm.mem_iff.mp hmem
  obtain ⟨b, hlast'⟩ := latest_exists (hperm'.mem_iff.mpr hmemRecords)
  obtain ⟨hmem', hkey'⟩ := latest_mem hlast'
  have hmemRecords' := hperm'.mem_iff.mp hmem'
  obtain ⟨y, hb⟩ := Option.isSome_iff_exists.mp
    (h.agreed a hmemRecords b hmemRecords' hkey'.symm (by rw [ha]; rfl))
  by_cases hxy : x = y
  · subst hxy
    exact ⟨a.key, key_required hmemRecords, cited_eq_some.mpr ⟨b, hlast', hb⟩⟩
  · obtain ⟨other, ⟨c, hc, hcKey⟩, hall⟩ := h.shared a hmemRecords b hmemRecords' hkey'.symm x y ha hb hxy
    obtain ⟨d, hd⟩ := latest_exists (hperm'.mem_iff.mpr hc)
    obtain ⟨hdMem, hdKey⟩ := latest_mem hd
    refine ⟨c.key, key_required hc, cited_eq_some.mpr ⟨d, hd, ?_⟩⟩
    exact hall d (hperm'.mem_iff.mp hdMem) (hdKey.trans hcKey)

theorem evaluate_of_perm {evidence' : List ReadinessEvidence} (score : Nat → Nat → PyFloat) (h : Coherent records)
    (hperm : evidence.Perm (registryEvidence records)) (hperm' : evidence'.Perm (registryEvidence records))
    (inputs : GateInputs) :
    evaluateProductionReadiness score evidence inputs = evaluateProductionReadiness score evidence' inputs := by
  have hsome : ∀ key, (cited evidence key).isSome = (cited evidence' key).isSome := by
    intro key
    rw [Bool.eq_iff_iff, cited_isSome_iff h hperm, cited_isSome_iff h hperm']
  have hpassed : (requiredKeys.filter fun key => (cited evidence key).isSome) =
      requiredKeys.filter fun key => (cited evidence' key).isSome := by
    simp only [hsome]
  have hmissing : (requiredKeys.filter fun key => (cited evidence key).isNone) =
      requiredKeys.filter fun key => (cited evidence' key).isNone := by
    simp only [← Option.not_isSome, hsome]
  have hrefs : sortedSet (requiredKeys.filterMap (cited evidence) ++ inputs.findings.2.2) =
      sortedSet (requiredKeys.filterMap (cited evidence') ++ inputs.findings.2.2) := by
    refine sortedSet_congr fun x => ?_
    rw [List.mem_append, List.mem_append, List.mem_filterMap, List.mem_filterMap]
    refine or_congr_left ⟨fun hx => ?_, fun hx => ?_⟩
    · obtain ⟨key, -, hcited⟩ := hx
      exact cited_of_perm h hperm hperm' hcited
    · obtain ⟨key, -, hcited⟩ := hx
      exact cited_of_perm h hperm' hperm hcited
  unfold evaluateProductionReadiness
  simp only [hpassed, hmissing, hrefs]

end

/-- A report that is ready has an item with an artifact for each key. -/
theorem cited_of_ready {score : Nat → Nat → PyFloat} {evidence : List ReadinessEvidence} {inputs : GateInputs}
    (h : (evaluateProductionReadiness score evidence inputs).ready = true) :
    ∀ key ∈ requiredKeys, (cited evidence key).isSome = true := by
  intro key hkey
  unfold evaluateProductionReadiness at h
  simp only [List.isEmpty_iff, List.append_eq_nil_iff, List.filter_eq_nil_iff] at h
  have hnone := h.1 key hkey
  rw [Option.isSome_iff_ne_none]
  simpa using hnone

theorem failClosed_of_coherent (score : Nat → Nat → PyFloat) {directory : Option (List RegistryFile)}
    (h : Coherent (registryRecords directory)) : FailClosed score directory where
  proven := by
    intro directory' hperm inputs hready key hkey
    have hevidence : (loadReadinessEvidence directory').evidence.Perm
        (registryEvidence (registryRecords directory)) := hperm.filterMap recordEvidence
    have hitems : ∀ key ∈ requiredKeys, ∃ item ∈ registryEvidence (registryRecords directory), item.key = key ∧
        (citation item).isSome = true :=
      fun key hkey => (cited_isSome_iff h hevidence key).mp (cited_of_ready hready key hkey)
    refine ⟨h.measured hitems key hkey, fun item hitem hitemKey => ?_⟩
    obtain ⟨other, hother, hotherKey, hcites⟩ := hitems key hkey
    have hagreed := h.agreed other hother item hitem (hotherKey.trans hitemKey.symm) hcites
    unfold citation at hagreed
    by_contra hfailed
    simp [hfailed] at hagreed
  order := fun directory' hperm inputs =>
    evaluate_of_perm score h (hperm.filterMap recordEvidence) (List.Perm.refl _) inputs

/-! ### Where the law holds -/

theorem forall₂_evidence (records : List Json) : List.Forall₂ (fun item record => recordEvidence record = some item)
    (registryEvidence records) (records.filter fun record => (recordEvidence record).isSome) := by
  induction records with
  | nil => exact .nil
  | cons record rest ih =>
    unfold registryEvidence at ih ⊢
    cases hrecord : recordEvidence record with
    | none =>
      rw [List.filterMap_cons_none hrecord, List.filter_cons_of_neg (by simp [hrecord])]
      exact ih
    | some item =>
      rw [List.filterMap_cons_some hrecord, List.filter_cons_of_pos (by simp [hrecord])]
      exact .cons hrecord ih

theorem evidence_of_forall₂ {evidence : List ReadinessEvidence} {records : List Json}
    (h : List.Forall₂ (fun item record => recordEvidence record = some item) evidence records) :
    registryEvidence records = evidence := by
  induction h with
  | nil => rfl
  | cons hrecord _ ih => exact (List.filterMap_cons_some hrecord).trans (congrArg _ ih)

/-- Any order of the evidence is that of some registry. -/
theorem registry_of_perm {records : List Json} {evidence : List ReadinessEvidence}
    (h : evidence.Perm (registryEvidence records)) : ∃ directory, (registryRecords directory).Perm records ∧
      (loadReadinessEvidence directory).evidence = evidence := by
  obtain ⟨chosen, hchosen, hperm⟩ := List.perm_comp_forall₂ h (forall₂_evidence records)
  let others := records.filter fun record => !(recordEvidence record).isSome
  have hrecords : registryRecords (some [⟨"records.json", .ok (.arr (chosen ++ others))⟩]) = chosen ++ others := by
    simp [registryRecords, sortedBy, RegistryFile.records]
  have hothers : registryEvidence others = [] := by
    unfold registryEvidence
    rw [List.filterMap_eq_nil_iff]
    intro record hrecord
    simpa using (List.mem_filter.mp hrecord).2
  refine ⟨some [⟨"records.json", .ok (.arr (chosen ++ others))⟩], ?_, ?_⟩
  · rw [hrecords]
    exact (hperm.append_right others).trans (List.filter_append_perm _ records)
  · rw [evidence_load, hrecords, registryEvidence, List.filterMap_append]
    change registryEvidence chosen ++ registryEvidence others = evidence
    rw [hothers, List.append_nil, evidence_of_forall₂ hchosen]

/-- Inputs by which nothing else is missing. -/
def otherwiseReady : GateInputs where
  l3Report := some ⟨true, ""⟩
  soakHours := .finite 0
  soakReport := none
  minimumSoakHours := .finite 0
  minimumText := "0"
  observedMetrics := [("control_plane_success_rate", .finite 1), ("audit_write_success_rate", .finite 1)]

/-- Inputs that cite nothing of their own. -/
def citeNothing : GateInputs where
  l3Report := none
  soakHours := .finite 0
  soakReport := none
  minimumSoakHours := .finite 0
  minimumText := "0"
  observedMetrics := []

theorem otherwiseReady_findings : otherwiseReady.findings.2.1 = [] := by decide +kernel

theorem citeNothing_findings : citeNothing.findings = (["soak-duration"],
    ["l3-certification-evidence", "control-plane-success-rate>=0.99", "audit-write-success-rate=1.0"], []) := by
  decide +kernel

/-- Two reports that are the same have the same keys with an artifact. -/
theorem cited_isSome_of_eq {score : Nat → Nat → PyFloat} {first second : List ReadinessEvidence}
    (h : evaluateProductionReadiness score first citeNothing = evaluateProductionReadiness score second citeNothing)
    {key : String} (hkey : key ∈ requiredKeys) (hcited : (cited first key).isSome = true) :
    (cited second key).isSome = true := by
  have hnot : ∀ k ∈ requiredKeys, k ∉ citeNothing.findings.2.1 := by decide +kernel
  have hmissing := congrArg ProductionReadinessReport.missing h
  simp only [evaluateProductionReadiness] at hmissing
  by_contra hsome
  have hnone : (cited second key).isNone = true := by
    rw [← Option.not_isSome]
    simpa using hsome
  have hmem : key ∈ sortedSet (requiredKeys.filter (fun k => (cited second k).isNone) ++ citeNothing.findings.2.1) :=
    mem_sortedSet.mpr (List.mem_append_left _ (List.mem_filter.mpr ⟨hkey, hnone⟩))
  rw [← hmissing, mem_sortedSet, List.mem_append] at hmem
  rcases hmem with hfirst | hother
  · have hnone' := (List.mem_filter.mp hfirst).2
    rw [← Option.not_isSome, hcited] at hnone'
    cases hnone'
  · exact hnot key hkey hother

/-- Two reports that are the same cite the same artifacts. -/
theorem cited_of_eq {score : Nat → Nat → PyFloat} {first second : List ReadinessEvidence}
    (h : evaluateProductionReadiness score first citeNothing = evaluateProductionReadiness score second citeNothing)
    {key x : String} (hkey : key ∈ requiredKeys) (hcited : cited first key = some x) :
    ∃ key' ∈ requiredKeys, cited second key' = some x := by
  have hrefs := congrArg ProductionReadinessReport.evidenceRefs h
  simp only [evaluateProductionReadiness, citeNothing_findings, List.append_nil] at hrefs
  have hmem : x ∈ sortedSet (requiredKeys.filterMap (cited first)) :=
    mem_sortedSet.mpr (List.mem_filterMap.mpr ⟨key, hkey, hcited⟩)
  rw [hrefs, mem_sortedSet, List.mem_filterMap] at hmem
  exact hmem

/-- Two different items of one key can come last in either order, after any order of the others. -/
theorem exists_rest {evidence : List ReadinessEvidence} {a b : ReadinessEvidence} (ha : a ∈ evidence)
    (hb : b ∈ evidence) (hne : a ≠ b) : ∃ rest, (rest ++ [b, a]).Perm evidence := by
  obtain ⟨before, after, rfl⟩ := List.append_of_mem ha
  have hb' : b ∈ before ++ after := by
    rcases List.mem_append.mp hb with h | h
    · exact List.mem_append_left _ h
    · exact List.mem_append_right _ ((List.mem_cons.mp h).resolve_left hne.symm)
  obtain ⟨before', after', hsplit⟩ := List.append_of_mem hb'
  refine ⟨before' ++ after', ?_⟩
  have hwithout : (before' ++ after' ++ [b]).Perm (before ++ after) := by
    rw [hsplit]
    exact (List.perm_append_singleton b _).trans List.perm_middle.symm
  have hwith : (before' ++ after' ++ [b] ++ [a]).Perm (before ++ after ++ [a]) := hwithout.append_right [a]
  rw [List.append_assoc] at hwith
  exact hwith.trans ((List.perm_append_singleton a _).trans List.perm_middle.symm)

theorem coherent_of_failClosed {score : Nat → Nat → PyFloat} {directory : Option (List RegistryFile)}
    (h : FailClosed score directory) : Coherent (registryRecords directory) := by
  -- every order of the evidence gives one report
  have horder : ∀ first second : List ReadinessEvidence,
      first.Perm (registryEvidence (registryRecords directory)) →
        second.Perm (registryEvidence (registryRecords directory)) →
          evaluateProductionReadiness score first citeNothing = evaluateProductionReadiness score second citeNothing := by
    intro first second hfirst hsecond
    obtain ⟨directory₁, hperm₁, hevidence₁⟩ := registry_of_perm hfirst
    obtain ⟨directory₂, hperm₂, hevidence₂⟩ := registry_of_perm hsecond
    rw [← hevidence₁, ← hevidence₂, h.order directory₁ hperm₁, h.order directory₂ hperm₂]
  have hswap : ∀ a b : ReadinessEvidence, ∀ rest : List ReadinessEvidence, (rest ++ [a, b]).Perm (rest ++ [b, a]) :=
    fun a b rest => List.Perm.append_left rest (List.Perm.swap b a [])
  have hlast : ∀ a b : ReadinessEvidence, ∀ rest key, latest (rest ++ [b, a]) key =
      if a.key = key then some a else if b.key = key then some b else latest rest key := by
    intro a b rest key
    rw [show rest ++ [b, a] = rest ++ [b] ++ [a] by simp, latest_append, latest_append, latest_singleton,
      latest_singleton]
    by_cases hakey : a.key = key
    · rw [if_pos hakey, if_pos hakey]
      rfl
    · rw [if_neg hakey, if_neg hakey]
      by_cases hbkey : b.key = key
      · rw [if_pos hbkey, if_pos hbkey]
        rfl
      · rw [if_neg hbkey, if_neg hbkey]
        rfl
  refine ⟨?_, ?_, ?_⟩
  · intro hitems key hkey
    -- the items without an artifact come first
    have hperm : ((registryEvidence (registryRecords directory)).filter (fun item => !(citation item).isSome) ++
        (registryEvidence (registryRecords directory)).filter fun item => !!(citation item).isSome).Perm
          (registryEvidence (registryRecords directory)) := List.filter_append_perm _ _
    obtain ⟨directory', hperm', hevidence'⟩ := registry_of_perm hperm
    have hcited : ∀ k ∈ requiredKeys, (cited (loadReadinessEvidence directory').evidence k).isSome = true := by
      intro k hk
      obtain ⟨item, hitem, hitemKey, hcites⟩ := hitems k hk
      have hmem : item ∈ (registryEvidence (registryRecords directory)).filter fun item => !!(citation item).isSome :=
        List.mem_filter.mpr ⟨hitem, by simpa using hcites⟩
      obtain ⟨last, hlastItem⟩ := latest_exists hmem
      rw [hitemKey] at hlastItem
      have hlastCites := (List.mem_filter.mp (latest_mem hlastItem).1).2
      rw [hevidence', cited_eq, latest_append, hlastItem]
      simpa using hlastCites
    refine (h.proven directory' hperm' otherwiseReady ?_ key hkey).1
    unfold evaluateProductionReadiness
    simp only [otherwiseReady_findings, List.append_nil, List.isEmpty_iff, List.filter_eq_nil_iff]
    intro k hk hnone
    rw [← Option.not_isSome, hcited k hk] at hnone
    cases hnone
  · intro a ha b hb hkeys hcites
    by_cases hab : a = b
    · rw [← hab]
      exact hcites
    · obtain ⟨rest, hrest⟩ := exists_rest ha hb hab
      have hsame := horder (rest ++ [b, a]) (rest ++ [a, b]) hrest ((hswap a b rest).trans hrest)
      have hfirst : cited (rest ++ [b, a]) a.key = citation a := by
        rw [cited_eq, hlast a b rest, if_pos rfl]
        rfl
      have hsecond : cited (rest ++ [a, b]) a.key = citation b := by
        rw [cited_eq, hlast b a rest, if_pos hkeys.symm]
        rfl
      rw [← hsecond]
      exact cited_isSome_of_eq hsame (key_required ha) (by rw [hfirst]; exact hcites)
  · intro a ha b hb hkeys x y hx hy hxy
    have hab : a ≠ b := by
      intro heq
      rw [heq, hy] at hx
      exact hxy (Option.some.inj hx).symm
    obtain ⟨rest, hrest⟩ := exists_rest ha hb hab
    -- of the other items those that cite `x` come first
    let citing := rest.filter fun item => citation item = some x
    let others := rest.filter fun item => !decide (citation item = some x)
    have hparts : (citing ++ others).Perm rest := List.filter_append_perm _ rest
    have hperm : (citing ++ others ++ [b, a]).Perm (registryEvidence (registryRecords directory)) :=
      (hparts.append_right [b, a]).trans hrest
    have hsame := horder (citing ++ others ++ [b, a]) (citing ++ others ++ [a, b]) hperm
      ((hswap a b _).trans hperm)
    have hfirst : cited (citing ++ others ++ [b, a]) a.key = some x := by
      rw [cited_eq, hlast a b _, if_pos rfl]
      exact hx
    obtain ⟨key, hkey, hcited⟩ := cited_of_eq hsame (key_required ha) hfirst
    obtain ⟨last, hlastItem, hlastCites⟩ := cited_eq_some.mp hcited
    rw [hlast b a _] at hlastItem
    have hb' : b.key ≠ key := by
      intro heq
      rw [if_pos heq] at hlastItem
      rw [← Option.some.inj hlastItem, hy] at hlastCites
      exact hxy (Option.some.inj hlastCites).symm
    have ha' : a.key ≠ key := fun heq => hb' (hkeys.symm.trans heq)
    rw [if_neg hb', if_neg ha', latest_append] at hlastItem
    have hnone : latest others key = none := by
      cases hother : latest others key with
      | none => rfl
      | some item =>
        rw [hother] at hlastItem
        have hitem := (List.mem_filter.mp (latest_mem hother).1).2
        rw [Option.some.inj hlastItem, hlastCites] at hitem
        simp at hitem
    rw [hnone] at hlastItem
    obtain ⟨hlastMem, hlastKey⟩ := latest_mem hlastItem
    have hmem : ∀ c, c ∈ registryEvidence (registryRecords directory) ↔ c ∈ rest ∨ c = b ∨ c = a := by
      intro c
      rw [← hrest.mem_iff]
      simp
    refine ⟨key, ⟨last, (hmem last).mpr (.inl (List.mem_filter.mp hlastMem).1), hlastKey⟩, fun c hc hcKey => ?_⟩
    rcases (hmem c).mp hc with hcRest | hcb | hca
    · by_contra hcites
      have hcOthers : c ∈ others := List.mem_filter.mpr ⟨hcRest, by simpa using hcites⟩
      obtain ⟨item, hitem⟩ := latest_exists hcOthers
      rw [hcKey, hnone] at hitem
      cases hitem
    · exact absurd (hcb ▸ hcKey) hb'
    · exact absurd (hca ▸ hcKey) ha'

/-- The gate fails closed, in every order, exactly over coherent registries. -/
theorem failClosed_iff (score : Nat → Nat → PyFloat) (directory : Option (List RegistryFile)) :
    FailClosed score directory ↔ Coherent (registryRecords directory) :=
  ⟨coherent_of_failClosed, failClosed_of_coherent score⟩

theorem basis_of_valid {fields : List (String × Json)} {record : EvidenceRecord}
    (h : validateRecord (.obj fields) = .ok record) : record.basis = textOf fields "basis" := by
  by_cases hviolations : violations fields ≠ []
  · simp only [validateRecord, if_pos hviolations] at h
    cases h
  · simp only [validateRecord, if_neg hviolations] at h
    cases h
    rfl

namespace Rehearsal

/-- What a rehearsal retains for a key. -/
def fields (key : String) : List (String × Json) :=
  [("evidence_id", .str key), ("scope", .str "payments"), ("change", .str "main"), ("claim", .str "rehearsed"),
    ("method", .str "digital twin"), ("result", .str "pass"), ("independence", .str "none"),
    ("artifacts", .arr [.str "run://twin/1"]), ("approval", .str "platform"), ("basis", .str "modeled"),
    ("decision", .str "l4-promotion"), ("readiness_key", .str key)]

def registry : List RegistryFile :=
  [⟨"rehearsal.json", .ok (.arr (requiredKeys.map fun key => .obj (fields key)))⟩]

theorem violations_fields : ∀ key ∈ requiredKeys, violations (fields key) = [] := by
  intro key hkey
  have hnames : ((fields key).map (·.1)).filter (· ∉ allFields) = [] := by
    simp [fields, allFields, requiredFields]
  have hrest : ∀ key ∈ requiredKeys,
      (requiredFields.filter (· ≠ "artifacts")).flatMap (textViolations (fields key)) = [] ∧
        matchesEvidenceId key = true ∧ artifactViolations (fields key) = [] ∧
          basisAndDecisionViolations (fields key) = [] ∧ sourceRunUrlViolations (fields key) = [] ∧
            readinessKeyViolations (fields key) = [] ∧ (controlsOf (fields key)).2 = [] := by
    decide +kernel
  obtain ⟨htext, hid, hartifacts, hbasis, hurl, hreadiness, hcontrols⟩ := hrest key hkey
  unfold violations
  rw [hnames, htext, hartifacts, hbasis, hurl, hreadiness, hcontrols]
  simp [sortedSet, fields, Json.get, hid]

end Rehearsal

open Rehearsal in
/-- Twelve valid records of rehearsals make a system ready, though nothing was measured. -/
theorem rehearsals_are_ready :
    (∀ key ∈ requiredKeys, (validateRecord (.obj (fields key))).isOk = true) ∧ ∀ score : Nat → Nat → PyFloat,
      (evaluateProductionReadiness score (loadReadinessEvidence (some registry)).evidence otherwiseReady).ready = true ∧
        ¬ FailClosed score (some registry) := by
  have hrecords : registryRecords (some registry) = requiredKeys.map fun key => .obj (fields key) := by
    simp [registryRecords, registry, sortedBy, RegistryFile.records]
  have hcited : ∀ key ∈ requiredKeys, (cited (loadReadinessEvidence (some registry)).evidence key).isSome = true := by
    rw [evidence_load, hrecords]
    decide +kernel
  have hready (score : Nat → Nat → PyFloat) : (evaluateProductionReadiness score
      (loadReadinessEvidence (some registry)).evidence otherwiseReady).ready = true := by
    unfold evaluateProductionReadiness
    simp only [otherwiseReady_findings, List.append_nil, List.isEmpty_iff, List.filter_eq_nil_iff]
    intro key hkey hnone
    rw [← Option.not_isSome, hcited key hkey] at hnone
    cases hnone
  have hvalid : ∀ key ∈ requiredKeys, (validateRecord (.obj (fields key))).isOk = true := by
    intro key hkey
    simp only [validateRecord, violations_fields key hkey, ne_eq, not_true_eq_false, if_false]
    rfl
  refine ⟨hvalid, fun score => ⟨hready score, fun h => ?_⟩⟩
  obtain ⟨⟨record, hrecord, hproven⟩, -⟩ := h.proven _ (List.Perm.refl _) otherwiseReady (hready score)
    "audit-export" (by decide)
  rw [hrecords] at hrecord
  obtain ⟨key, -, heq⟩ := List.mem_map.mp hrecord
  obtain ⟨item, valid, -, -, -, hvalid, hbasis⟩ := hproven
  rw [← heq] at hvalid
  rw [basis_of_valid hvalid] at hbasis
  exact absurd hbasis (by simp [fields, textOf, Json.get, List.lookup])

end EngineeringIntelligence.Validation
