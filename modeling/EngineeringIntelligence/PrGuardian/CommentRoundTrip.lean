import Mathlib.Data.Bool.AllAny
import EngineeringIntelligence.Framework.JsonMentions
import EngineeringIntelligence.PrGuardian.Conclusion
import EngineeringIntelligence.PrGuardian.ObservationComment
import EngineeringIntelligence.PrGuardian.ShadowNormal

namespace EngineeringIntelligence.PrGuardian

open EngineeringIntelligence.Framework

/-! What the comment hides is read back, unless a text of the observation closes the marker. -/

/-! ### Validation does not look at the order of keys -/

/-- An object's entries with the keys sorted, at every depth. -/
def sortedFields (fields : List (String × Json)) : List (String × Json) :=
  (Json.sortKeysFields fields).insertionSort (fun a b => a.1 ≤ b.1)

theorem sortKeys_obj (fields : List (String × Json)) : Json.sortKeys (.obj fields) = .obj (sortedFields fields) := by
  rw [Json.sortKeys, sortedFields]

theorem keys_sortedFields {fields : List (String × Json)} {key : String} :
    key ∈ (sortedFields fields).map Prod.fst ↔ key ∈ fields.map Prod.fst := by
  have hperm := ((Json.sortKeysFields fields).perm_insertionSort (fun a b => a.1 ≤ b.1)).map Prod.fst
  rw [sortedFields, hperm.mem_iff, Json.sortKeysFields_keys]

theorem exactKeys_congr {a b : List (String × Json)} (h : ∀ key, key ∈ a.map Prod.fst ↔ key ∈ b.map Prod.fst)
    (expected : List String) (name : String) : exactKeys a expected name = exactKeys b expected name := by
  have hiff : exactKeys a expected name = .ok () ↔ exactKeys b expected name = .ok () := by
    rw [exactKeys_eq_ok_iff, exactKeys_eq_ok_iff]
    simp only [h]
  unfold exactKeys at hiff ⊢
  split_ifs at hiff ⊢ with ha hb hb
  · rfl
  · exact hiff.mp rfl
  · exact (hiff.mpr rfl).elim
  · rfl

@[simp] theorem exactKeys_sortedFields (fields : List (String × Json)) (expected : List String) (name : String) :
    exactKeys (sortedFields fields) expected name = exactKeys fields expected name :=
  exactKeys_congr (fun _ => keys_sortedFields) expected name

theorem get_sortedFields {fields : List (String × Json)} (h : (fields.map Prod.fst).Nodup) (key : String) :
    Json.get (sortedFields fields) key = Json.sortKeys (Json.get fields key) := Json.get_sorted h key

@[simp] theorem string_sortKeys (value : Json) (name : String) (maximum : Nat) :
    string (Json.sortKeys value) name maximum = string value name maximum := by
  cases value <;> rfl

@[simp] theorem optionalString_sortKeys (value : Json) (name : String) (maximum : Nat) :
    optionalString (Json.sortKeys value) name maximum = optionalString value name maximum := by
  cases value <;> rfl

@[simp] theorem integer_sortKeys (value : Json) (name : String) (minimum maximum : Int) :
    integer (Json.sortKeys value) name minimum maximum = integer value name minimum maximum := by
  cases value <;> rfl

@[simp] theorem boolean_sortKeys (value : Json) (name : String) :
    boolean (Json.sortKeys value) name = boolean value name := by
  cases value <;> rfl

section
variable {α : Type} {read : String → Json → Except String α}

theorem records_sortKeys {items : List Json}
    (h : ∀ item ∈ items, ∀ name, read name (Json.sortKeys item) = read name item) (name : String) (index : Nat) :
    records read name index (items.map Json.sortKeys) = records read name index items := by
  induction items generalizing index with
  | nil => rfl
  | cons item items ih =>
    have hrest := ih (fun i hi => h i (List.mem_cons_of_mem item hi)) (index + 1)
    rw [List.map_cons, records, records, h item List.mem_cons_self, hrest]

theorem recordList_sortKeys {floatRepr : String → String}
    (h : ∀ item, item.Readable floatRepr → ∀ name, read name (Json.sortKeys item) = read name item) {value : Json}
    (hvalue : value.Readable floatRepr) (name : String) (maximum : Nat) :
    recordList read name maximum (Json.sortKeys value) = recordList read name maximum value := by
  cases value with
  | arr items =>
    have hitems := (Json.readableItems_iff floatRepr).mp hvalue
    have hrecords := records_sortKeys (fun item hitem => h item (hitems item hitem)) name 0
    rw [Json.sortKeys, Json.sortKeysItems_eq_map, recordList, recordList, hrecords, List.length_map]
  | _ => rfl

end

section
variable {floatRepr : String → String}

theorem readable_get {fields : List (String × Json)} (h : (Json.obj fields).Readable floatRepr) (key : String) :
    (Json.get fields key).Readable floatRepr := by
  unfold Json.get
  cases hlookup : fields.lookup key with
  | none => trivial
  | some value =>
    have hmem := (Json.lookup_eq_some_iff h.1).mp hlookup
    exact (Json.readableFields_iff floatRepr).mp h.2 _ hmem

theorem validateEnforcement_sortKeys {value : Json} (h : value.Readable floatRepr) (mode : ProductMode) :
    validateEnforcement (Json.sortKeys value) mode = validateEnforcement value mode := by
  cases value with
  | obj fields =>
    simp only [sortKeys_obj, validateEnforcement, mapping_obj, ok_bind, exactKeys_sortedFields,
      get_sortedFields h.1, boolean_sortKeys, string_sortKeys, optionalString_sortKeys]
  | _ => rfl

theorem validateArchitectureViolation_sortKeys {item : Json} (h : item.Readable floatRepr) (name : String) :
    validateArchitectureViolation name (Json.sortKeys item) = validateArchitectureViolation name item := by
  cases item with
  | obj fields =>
    simp only [sortKeys_obj, validateArchitectureViolation, mapping_obj, ok_bind, exactKeys_sortedFields,
      get_sortedFields h.1, string_sortKeys, integer_sortKeys]
  | _ => rfl

theorem validateArchitectureSkip_sortKeys {item : Json} (h : item.Readable floatRepr) (name : String) :
    validateArchitectureSkip name (Json.sortKeys item) = validateArchitectureSkip name item := by
  cases item with
  | obj fields =>
    simp only [sortKeys_obj, validateArchitectureSkip, mapping_obj, ok_bind, exactKeys_sortedFields,
      get_sortedFields h.1, string_sortKeys]
  | _ => rfl

theorem validateObservationSubject_sortKeys {value : Json} (h : value.Readable floatRepr) :
    validateObservationSubject (Json.sortKeys value) = validateObservationSubject value := by
  cases value with
  | obj fields =>
    simp only [sortKeys_obj, validateObservationSubject, mapping_obj, ok_bind, exactKeys_sortedFields,
      get_sortedFields h.1, string_sortKeys, integer_sortKeys]
  | _ => rfl

theorem validateRiskFactor_sortKeys {item : Json} (h : item.Readable floatRepr) (name : String) :
    validateRiskFactor name (Json.sortKeys item) = validateRiskFactor name item := by
  cases item with
  | obj fields =>
    simp only [sortKeys_obj, validateRiskFactor, mapping_obj, ok_bind, exactKeys_sortedFields,
      get_sortedFields h.1, string_sortKeys, integer_sortKeys]
  | _ => rfl

theorem validateAssessment_sortKeys {value : Json} (h : value.Readable floatRepr) :
    validateAssessment (Json.sortKeys value) = validateAssessment value := by
  cases value with
  | obj fields =>
    have hfactors := recordList_sortKeys  
      (fun item hitem => validateRiskFactor_sortKeys hitem) (readable_get h "factors") "assessment.factors" 32
    simp only [sortKeys_obj, validateAssessment, mapping_obj, ok_bind, exactKeys_sortedFields,
      get_sortedFields h.1, string_sortKeys, integer_sortKeys, hfactors]
  | _ => rfl

theorem validateSimulatedPolicy_sortKeys {value : Json} (h : value.Readable floatRepr) :
    validateSimulatedPolicy (Json.sortKeys value) = validateSimulatedPolicy value := by
  cases value with
  | obj fields =>
    simp only [sortKeys_obj, validateSimulatedPolicy, mapping_obj, ok_bind, exactKeys_sortedFields,
      get_sortedFields h.1, boolean_sortKeys]
  | _ => rfl

theorem validateWorkflow_sortKeys {value : Json} (h : value.Readable floatRepr) :
    validateWorkflow (Json.sortKeys value) = validateWorkflow value := by
  cases value with
  | obj fields =>
    simp only [sortKeys_obj, validateWorkflow, mapping_obj, ok_bind, exactKeys_sortedFields,
      get_sortedFields h.1, string_sortKeys, boolean_sortKeys]
  | _ => rfl

theorem validateChangedServices_sortKeys (value : Json) :
    validateChangedServices (Json.sortKeys value) = validateChangedServices value := by
  cases value with
  | arr items =>
    have hitems : ∀ item, string (Json.sortKeys item) "changed_services item" 120 =
        string item "changed_services item" 120 := fun item => string_sortKeys item _ _
    rw [Json.sortKeys, Json.sortKeysItems_eq_map, validateChangedServices, validateChangedServices]
    simp only [List.length_map, List.mapM_map, Function.comp_def, hitems]
  | _ => rfl

theorem get_withDefaults_of_notMem {defaults fields : List (String × Json)} {key : String}
    (h : key ∉ fields.map Prod.fst) : Json.get (withDefaults defaults fields) key = Json.get defaults key := by
  have hlookup : fields.lookup key = none := by
    rw [List.lookup_eq_none_iff]
    intro f hf
    rw [bne_iff_ne]
    intro heq
    exact h (heq ▸ List.mem_map_of_mem hf)
  rw [Json.get, Json.get, withDefaults, List.lookup_append, lookup_map_defaults, hlookup]
  cases hdefault : defaults.lookup key with
  | some value => rfl
  | none =>
    rw [lookup_filter_defaults _ _ _ hdefault, hlookup]
    rfl

theorem get_withDefaults_sortedFields {defaults fields : List (String × Json)} (h : (fields.map Prod.fst).Nodup)
    (hdefaults : ∀ key, Json.sortKeys (Json.get defaults key) = Json.get defaults key) (key : String) :
    Json.get (withDefaults defaults (sortedFields fields)) key =
      Json.sortKeys (Json.get (withDefaults defaults fields) key) := by
  by_cases hkey : key ∈ fields.map Prod.fst
  · rw [get_withDefaults hkey, get_withDefaults (keys_sortedFields.mpr hkey), get_sortedFields h]
  · have hsorted : key ∉ (sortedFields fields).map Prod.fst := fun hmem => hkey (keys_sortedFields.mp hmem)
    rw [get_withDefaults_of_notMem hkey, get_withDefaults_of_notMem hsorted, hdefaults]

theorem exactKeys_withDefaults_sortedFields (defaults fields : List (String × Json)) (expected : List String)
    (name : String) : exactKeys (withDefaults defaults (sortedFields fields)) expected name =
      exactKeys (withDefaults defaults fields) expected name := by
  apply exactKeys_congr
  intro key
  rw [mem_keys_withDefaults, mem_keys_withDefaults, keys_sortedFields]

theorem coverageDefaults_sorted (key : String) :
    Json.sortKeys (Json.get coverageDefaults key) = Json.get coverageDefaults key := by
  unfold Json.get coverageDefaults
  simp only [List.lookup]
  split
  · rfl
  · split
    · rfl
    · split <;> rfl

theorem readable_coverage {fields : List (String × Json)} (h : (Json.obj fields).Readable floatRepr) (key : String) :
    (Json.get (withDefaults coverageDefaults fields) key).Readable floatRepr := by
  by_cases hkey : key ∈ fields.map Prod.fst
  · rw [get_withDefaults hkey]
    exact readable_get h key
  · rw [get_withDefaults_of_notMem hkey]
    unfold Json.get coverageDefaults
    simp only [List.lookup]
    have hzero : (Json.int 0).Readable floatRepr := by
      show (Nat.toDigits 10 0).length ≤ Json.maxIntDigits
      decide
    split
    · exact hzero
    · split
      · exact hzero
      · split <;> trivial

theorem validateArchitecture_sortKeys {value : Json} (h : value.Readable floatRepr) :
    validateArchitecture (Json.sortKeys value) = validateArchitecture value := by
  cases value with
  | obj fields =>
    have hviolations := recordList_sortKeys (fun item hitem => validateArchitectureViolation_sortKeys hitem)
      (readable_coverage h "violations") "architecture.violations" 64
    have hskipped := recordList_sortKeys (fun item hitem => validateArchitectureSkip_sortKeys hitem)
      (readable_coverage h "skipped") "architecture.skipped" 64
    simp only [sortKeys_obj, validateArchitecture, mapping_obj, ok_bind, exactKeys_withDefaults_sortedFields,
      get_withDefaults_sortedFields h.1 coverageDefaults_sorted, hviolations, hskipped, string_sortKeys,
      integer_sortKeys]
  | _ => rfl

/-! ### The normalized observation can be written and read -/

theorem readable_integer {value : Json} {name : String} {minimum maximum n : Int}
    (h : integer value name minimum maximum = .ok n) (hminimum : 0 ≤ minimum) (hmaximum : maximum ≤ 10 ^ 9) :
    (Json.int n).Readable floatRepr := by
  obtain ⟨-, hlow, hhigh⟩ := integer_eq_ok_iff.mp h
  exact Json.readable_int floatRepr (by omega)

/-- An object of distinct keys is readable when its values are. -/
theorem readable_obj {fields : List (String × Json)} (hkeys : (fields.map Prod.fst).Nodup)
    (h : ∀ f ∈ fields, f.2.Readable floatRepr) : (Json.obj fields).Readable floatRepr :=
  ⟨hkeys, (Json.readableFields_iff floatRepr).mpr h⟩

theorem records_mem {α : Type} {read : String → Json → Except String α} {name : String} {index : Nat}
    {items : List Json} {xs : List α} (h : records read name index items = .ok xs) :
    ∀ x ∈ xs, ∃ name item, read name item = .ok x := by
  induction items generalizing index xs with
  | nil =>
    cases h
    simp
  | cons item items ih =>
    obtain ⟨first, hfirst, h⟩ := bind_eq_ok_iff.mp h
    obtain ⟨rest, hrest, h⟩ := bind_eq_ok_iff.mp h
    cases h
    intro x hx
    rcases List.mem_cons.mp hx with rfl | hx
    · exact ⟨_, _, hfirst⟩
    · exact ih hrest x hx

theorem readable_recordList {α : Type} {read : String → Json → Except String α} {asDict : α → Json} {name : String}
    {maximum : Nat} {value : Json} {xs : List α} (h : recordList read name maximum value = .ok xs)
    (hread : ∀ name item x, read name item = .ok x → (asDict x).Readable floatRepr) :
    (Json.arr (xs.map asDict)).Readable floatRepr := by
  apply (Json.readableItems_iff floatRepr).mpr
  intro j hj
  obtain ⟨x, hx, rfl⟩ := List.mem_map.mp hj
  cases value with
  | arr items =>
    obtain ⟨-, hrecords⟩ := ite_error_eq_ok_iff.mp h
    obtain ⟨name, item, hitem⟩ := records_mem hrecords x hx
    exact hread name item x hitem
  | null | bool _ | int _ | float _ | str _ | obj _ => cases h

theorem readable_violation (name : String) (item : Json) (v : ArchitectureViolation)
    (h : validateArchitectureViolation name item = .ok v) : v.asDict.Readable floatRepr := by
  simp only [validateArchitectureViolation, bind_eq_ok_iff] at h
  obtain ⟨raw, -, -, -, ruleId, -, path, -, marker, -, rationale, -, severity, hseverity, h⟩ := h
  cases h
  have hreadable : (Json.int severity).Readable floatRepr := readable_integer hseverity (by decide) (by decide)
  refine readable_obj (by simp) ?_
  simp only [List.mem_cons, List.not_mem_nil, or_false, forall_eq_or_imp, forall_eq]
  exact ⟨trivial, trivial, trivial, trivial, hreadable⟩

theorem readable_skip (s : ArchitectureSkip) : s.asDict.Readable floatRepr := by
  refine readable_obj (by simp) ?_
  simp only [List.mem_cons, List.not_mem_nil, or_false, forall_eq_or_imp, forall_eq]
  exact ⟨trivial, trivial⟩

theorem readable_architecture {value : Json} {r : ArchitectureReview} (h : validateArchitecture value = .ok r) :
    r.asDict.Readable floatRepr := by
  simp only [validateArchitecture, bind_eq_ok_iff, ite_error_eq_ok_iff] at h
  obtain ⟨given, -, -, -, violations, hviolations, skipped, hskipped, reviewed, hreviewed,
    inScope, hscope, -, -, summary, -, h⟩ := h
  cases h
  refine readable_obj (by simp) ?_
  simp only [List.mem_cons, List.not_mem_nil, or_false, forall_eq_or_imp, forall_eq]
  exact ⟨readable_recordList hviolations readable_violation, readable_integer hscope (by decide) (by decide),
    readable_integer hreviewed (by decide) (by decide),
    readable_recordList hskipped fun _ _ s _ => readable_skip s, trivial⟩

theorem readable_subject {value : Json} {s : ShadowSubject} (h : validateObservationSubject value = .ok s) :
    s.asDict.Readable floatRepr := by
  simp only [validateObservationSubject, bind_eq_ok_iff, ite_else_error_eq_ok_iff] at h
  obtain ⟨raw, -, -, -, repository, -, -, sha, -, -, number, hnumber, action, -, h⟩ := h
  cases h
  have hreadable : (Json.int number).Readable floatRepr := readable_integer hnumber (by decide) (by decide)
  refine readable_obj (by simp) ?_
  simp only [List.mem_cons, List.not_mem_nil, or_false, forall_eq_or_imp, forall_eq]
  exact ⟨trivial, hreadable, trivial, trivial⟩

theorem readable_factor (name : String) (item : Json) (f : ShadowRiskFactor)
    (h : validateRiskFactor name item = .ok f) : f.asDict.Readable floatRepr := by
  simp only [validateRiskFactor, bind_eq_ok_iff] at h
  obtain ⟨raw, -, -, -, factor, -, points, hpoints, evidence, -, h⟩ := h
  cases h
  have hreadable : (Json.int points).Readable floatRepr := readable_integer hpoints (by decide) (by decide)
  refine readable_obj (by simp) ?_
  simp only [List.mem_cons, List.not_mem_nil, or_false, forall_eq_or_imp, forall_eq]
  exact ⟨trivial, hreadable, trivial⟩

theorem readable_assessment {value : Json} {a : ShadowAssessment} (h : validateAssessment value = .ok a) :
    a.asDict.Readable floatRepr := by
  simp only [validateAssessment, bind_eq_ok_iff, ite_else_error_eq_ok_iff] at h
  obtain ⟨raw, -, -, -, band, -, -, score, hscore, factors, hfactors, h⟩ := h
  cases h
  refine readable_obj (by simp) ?_
  simp only [List.mem_cons, List.not_mem_nil, or_false, forall_eq_or_imp, forall_eq]
  exact ⟨readable_integer hscore (by decide) (by decide), trivial, readable_recordList hfactors readable_factor⟩

/-- Everything an accepted observation says can be written as JSON and read back. -/
theorem readable_asDict {raw : List (String × Json)} {o : ShadowObservation} (h : validateObservation raw = .ok o) :
    (Json.obj o.asDict).Readable floatRepr := by
  simp only [validateObservation, bind_eq_ok_iff] at h
  obtain ⟨envelope, -, mode, -, enforcement, -, architecture, harchitecture, observedAt, -, subject, hsubject,
    assessment, hassessment, services, -, policy, -, workflow, -, h⟩ := h
  cases h
  have henforcement : enforcement.asDict.Readable floatRepr := by
    refine readable_obj (by simp) ?_
    simp only [List.mem_cons, List.not_mem_nil, or_false, forall_eq_or_imp, forall_eq]
    exact ⟨trivial, trivial, Json.readable_optStr floatRepr _, Json.readable_optStr floatRepr _⟩
  have hpolicy : policy.asDict.Readable floatRepr := by
    refine readable_obj (by simp) ?_
    simp only [List.mem_cons, List.not_mem_nil, or_false, forall_eq_or_imp, forall_eq]
    exact ⟨trivial, trivial, trivial⟩
  have hworkflow : workflow.asDict.Readable floatRepr := by
    refine readable_obj (by simp) ?_
    simp only [List.mem_cons, List.not_mem_nil, or_false, forall_eq_or_imp, forall_eq]
    exact ⟨trivial, trivial⟩
  have hversion : (Json.int schemaVersion).Readable floatRepr := by
    show (Nat.toDigits 10 1).length ≤ Json.maxIntDigits
    decide
  refine readable_obj (by simp [ShadowObservation.asDict]) ?_
  simp only [ShadowObservation.asDict, List.mem_cons, List.not_mem_nil, or_false, forall_eq_or_imp, forall_eq]
  exact ⟨hversion, trivial, trivial, henforcement, readable_architecture harchitecture, trivial,
    readable_subject hsubject, readable_assessment hassessment, Json.readable_texts floatRepr services, hpolicy, hworkflow⟩

/-! ### The round trip -/

/-- The record read back from its own text is the record. -/
theorem validateObservation_sortedFields {raw : List (String × Json)} {o : ShadowObservation}
    (h : validateObservation raw = .ok o) : validateObservation (sortedFields o.asDict) = .ok o := by
  have hreadable : (Json.obj o.asDict).Readable id := readable_asDict h
  have hkeys : o.asDict.map Prod.fst = observationFields := rfl
  have hnormal := validateObservation_asDict h
  have hmem : ∀ {key}, key ∈ observationFields → key ∈ (sortedFields o.asDict).map Prod.fst := by
    intro key hkey
    rw [keys_sortedFields, hkeys]
    exact hkey
  have hget : ∀ {key}, key ∈ observationFields →
      Json.get (withDefaults envelopeDefaults (sortedFields o.asDict)) key =
        Json.sortKeys (Json.get (withDefaults envelopeDefaults o.asDict) key) := by
    intro key hkey
    rw [get_withDefaults (hmem hkey), get_withDefaults (by rw [hkeys]; exact hkey), get_sortedFields hreadable.1]
  have hinner : ∀ {key}, key ∈ observationFields →
      (Json.get (withDefaults envelopeDefaults o.asDict) key).Readable id := by
    intro key hkey
    rw [get_withDefaults (by rw [hkeys]; exact hkey)]
    exact readable_get hreadable key
  have hversion : ∀ value, equalsSchemaVersion (Json.sortKeys value) = equalsSchemaVersion value := by
    intro value
    cases value <;> rfl
  have hkind : ∀ text value, equalsText text (Json.sortKeys value) = equalsText text value := by
    intro text value
    cases value <;> rfl
  have hmode : ∀ value, shadowMode (Json.sortKeys value) = shadowMode value := by
    intro value
    simp only [shadowMode, string_sortKeys]
  have henvelope : observationEnvelope (sortedFields o.asDict) =
      .ok (withDefaults envelopeDefaults (sortedFields o.asDict)) := by
    have hown := observationEnvelope_asDict o
    unfold observationEnvelope at hown ⊢
    dsimp only at hown ⊢
    obtain ⟨_, hexact, hown⟩ := bind_eq_ok_iff.mp hown
    obtain ⟨hschema, -⟩ := ite_else_error_eq_ok_iff.mp hown
    rw [exactKeys_withDefaults_sortedFields, hexact, ok_bind, hget (show "schema_version" ∈ observationFields by decide),
      hget (show "kind" ∈ observationFields by decide), hversion, hkind, if_pos hschema]
  rw [← hnormal, validateObservation, validateObservation, henvelope, observationEnvelope_asDict, ok_bind, ok_bind]
  simp only [hget (show "mode" ∈ observationFields by decide),
    hget (show "enforcement" ∈ observationFields by decide),
    hget (show "architecture" ∈ observationFields by decide),
    hget (show "observed_at" ∈ observationFields by decide),
    hget (show "subject" ∈ observationFields by decide),
    hget (show "assessment" ∈ observationFields by decide),
    hget (show "changed_services" ∈ observationFields by decide),
    hget (show "simulated_policy" ∈ observationFields by decide),
    hget (show "workflow" ∈ observationFields by decide), hmode, string_sortKeys,
    validateEnforcement_sortKeys (hinner (show "enforcement" ∈ observationFields by decide)),
    validateArchitecture_sortKeys (hinner (show "architecture" ∈ observationFields by decide)),
    validateObservationSubject_sortKeys (hinner (show "subject" ∈ observationFields by decide)),
    validateAssessment_sortKeys (hinner (show "assessment" ∈ observationFields by decide)),
    validateChangedServices_sortKeys,
    validateSimulatedPolicy_sortKeys (hinner (show "simulated_policy" ∈ observationFields by decide)),
    validateWorkflow_sortKeys (hinner (show "workflow" ∈ observationFields by decide))]

theorem dataSuffix_toList : dataSuffix.toList = [' ', '-', '-', '>'] := by decide

theorem dataSuffix_textual : Json.Textual dataSuffix.toList := by
  rw [dataSuffix_toList]
  exact ⟨by decide, List.all_iff_forall_prop.mp (by decide)⟩

/-- No escape of the canonical text makes or breaks the end of the marker. -/
theorem dataSuffix_kept : Keeps Json.escapeChar dataSuffix.toList := by
  rw [dataSuffix_toList]
  have hhex : ∀ n, Json.hexDigit (n % 16) ∉ [' ', '-', '-', '>'] := by
    intro n
    have hdigits : ∀ m < 16, Json.hexDigit m ∉ [' ', '-', '-', '>'] := by decide
    exact hdigits _ (Nat.mod_lt n (by decide))
  have hunit : ∀ n, ∀ d ∈ Json.unicodeEscape n, d ∉ [' ', '-', '-', '>'] := by
    intro n d hd
    simp only [Json.unicodeEscape, List.mem_cons, List.not_mem_nil, or_false] at hd
    rcases hd with rfl | rfl | rfl | rfl | rfl | rfl
    · decide
    · decide
    · exact hhex _
    · exact hhex _
    · exact hhex _
    · exact hhex _
  have hprintable : ∀ c ∈ [' ', '-', '-', '>'], 0x20 ≤ c.toNat ∧ c.toNat ≤ 0x7e := by
    intro c hc
    simp only [List.mem_cons, List.not_mem_nil, or_false] at hc
    obtain rfl | rfl | rfl | rfl := hc <;> decide
  intro c
  obtain hown | ⟨-, -, -, hesc⟩ | ⟨h8, -, hesc⟩ | ⟨h9, hesc⟩ := Json.escapeChar_cases c
  · simp only [List.mem_cons, List.not_mem_nil, or_false] at hown
    obtain rfl | rfl | rfl | rfl | rfl | rfl | rfl := hown <;>
      exact .inr ⟨by decide, List.all_iff_forall_prop.mp (by decide), by decide⟩
  · exact .inl hesc
  · rw [hesc]
    exact .inr ⟨by simp [Json.unicodeEscape], hunit _, fun hc => h8 (hprintable c hc)⟩
  · rw [hesc]
    refine .inr ⟨by simp [Json.unicodeEscape], fun d hd => ?_, fun hc => ?_⟩
    · obtain hd | hd := List.mem_append.mp hd
      · exact hunit _ d hd
      · exact hunit _ d hd
    · have hsmall := (hprintable c hc).2
      omega

theorem commentMarker_toList : commentMarker.toList =
    ['<', '!', '-', '-', ' ', 'e', 'i', 'p', '-', 'p', 'r', '-', 'g', 'u', 'a', 'r', 'd', 'i', 'a', 'n', '-', 's',
      'h', 'a', 'd', 'o', 'w', ' ', '-', '-', '>'] := String.toList_ofList

theorem dataMarker_toList : dataMarker.toList =
    ['<', '!', '-', '-', ' ', 'e', 'i', 'p', '-', 'p', 'r', '-', 'g', 'u', 'a', 'r', 'd', 'i', 'a', 'n', '-', 's',
      'h', 'a', 'd', 'o', 'w', '-', 'o', 'b', 's', 'e', 'r', 'v', 'a', 't', 'i', 'o', 'n', ':'] := String.toList_ofList

/-- The hidden text of a comment begins after the marker. -/
theorem find_dataMarker (rest : List Char) :
    find dataMarker.toList (commentMarker.toList ++ '\n' :: (dataMarker.toList ++ rest)) =
      some (commentMarker.toList ++ ['\n']).length := by
  have hearlier : ¬ dataMarker.toList <:+: (commentMarker.toList ++ ['\n']) ++ dataMarker.toList.dropLast := by
    rw [commentMarker_toList, dataMarker_toList]
    decide +kernel
  have hfind := @find_eq Char _ _ _ rest hearlier
  simpa [List.append_assoc] using hfind

/-- The marker is taken to hide what follows it. -/
theorem observationFromComment_render (floatRepr : String → String) (o : ShadowObservation)
    (conclusion reason : Option String) :
    ∃ after, observationFromComment floatRepr (renderComment o conclusion reason) =
      hiddenObservation floatRepr ((Json.dumps (.obj o.asDict)).toList ++ dataSuffix.toList ++ after) := by
  have htext : (renderComment o conclusion reason).toList = commentMarker.toList ++ '\n' ::
      (dataMarker.toList ++ ((Json.dumps (.obj o.asDict)).toList ++ dataSuffix.toList ++
        '\n' :: (visibleText o conclusion reason).toList)) := by
    simp [renderComment, String.toList_append, List.append_assoc]
  refine ⟨'\n' :: (visibleText o conclusion reason).toList, ?_⟩
  have hdrop : ∀ rest, (commentMarker.toList ++ '\n' :: (dataMarker.toList ++ rest)).drop
      ((commentMarker.toList ++ ['\n']).length + dataMarker.toList.length) = rest := by
    intro rest
    have hsplit : commentMarker.toList ++ '\n' :: (dataMarker.toList ++ rest) =
        (commentMarker.toList ++ ['\n'] ++ dataMarker.toList) ++ rest := by simp [List.append_assoc]
    rw [hsplit, ← List.length_append, List.drop_left]
  unfold observationFromComment
  rw [htext, find_dataMarker]
  exact congrArg (hiddenObservation floatRepr) (hdrop _)

/-- A text that closes the marker from inside leaves a part of the record, which is no JSON. -/
theorem hiddenObservation_of_infix {o : ShadowObservation} (hreadable : (Json.obj o.asDict).Readable floatRepr)
    (h : dataSuffix.toList <:+: (Json.dumps (.obj o.asDict)).toList) (after : List Char) (r : Option ShadowObservation) :
    hiddenObservation floatRepr ((Json.dumps (.obj o.asDict)).toList ++ dataSuffix.toList ++ after) ≠ .ok r := by
  obtain ⟨before, behind, htext⟩ := h
  obtain ⟨stop, hstop, hfind⟩ := find_le dataSuffix.toList before (behind ++ dataSuffix.toList ++ after)
  have hwhole : before ++ dataSuffix.toList ++ (behind ++ dataSuffix.toList ++ after) =
      (Json.dumps (.obj o.asDict)).toList ++ dataSuffix.toList ++ after := by
    rw [← htext]
    simp [List.append_assoc]
  rw [hwhole] at hfind
  have hlength := congrArg List.length htext
  have hpositive : 0 < dataSuffix.toList.length := by decide
  simp only [List.length_append] at hlength
  have htake : ((Json.dumps (.obj o.asDict)).toList ++ dataSuffix.toList ++ after).take stop =
      (Json.dumps (.obj o.asDict)).toList.take stop := by
    rw [List.append_assoc, List.take_append_of_le_length (by omega)]
  have hmore : (Json.dumps (.obj o.asDict)).toList.drop stop ≠ [] := by
    intro hnil
    have hle := List.drop_eq_nil_iff.mp hnil
    omega
  have hpart := Json.loads_part hreadable (List.take_append_drop stop _).symm hmore
  intro hback
  unfold hiddenObservation at hback
  rw [hfind] at hback
  dsimp only at hback
  rw [htake] at hback
  cases hloads : Json.loads floatRepr (String.ofList ((Json.dumps (.obj o.asDict)).toList.take stop)) with
  | ok j => exact hpart j hloads
  | error x =>
    rw [hloads] at hback
    cases x <;> cases hback

theorem hiddenObservation_of_not_infix {raw : List (String × Json)} {o : ShadowObservation}
    (hvalid : validateObservation raw = .ok o) (hreadable : (Json.obj o.asDict).Readable floatRepr)
    (h : ¬ dataSuffix.toList <:+: (Json.dumps (.obj o.asDict)).toList) (after : List Char) :
    hiddenObservation floatRepr ((Json.dumps (.obj o.asDict)).toList ++ dataSuffix.toList ++ after) =
      .ok (some o) := by
  obtain ⟨inside, htext⟩ := Json.dumps_obj_closing o.asDict
  have hearlier : ¬ dataSuffix.toList <:+: (Json.dumps (.obj o.asDict)).toList ++ dataSuffix.toList.dropLast := by
    have hbrace := dataSuffix_textual.punctuation '\x7d' (by decide)
    rw [htext] at h ⊢
    rw [List.append_assoc, List.singleton_append, infix_append_cons hbrace, not_or]
    constructor
    · exact fun hinside => h (hinside.trans (List.infix_append [] inside ['\x7d']))
    · decide
  have hfind := @find_eq Char _ _ _ after hearlier
  have htake : ((Json.dumps (.obj o.asDict)).toList ++ dataSuffix.toList ++ after).take
      (Json.dumps (.obj o.asDict)).toList.length = (Json.dumps (.obj o.asDict)).toList := by
    rw [List.append_assoc, List.take_left]
  have hloads := Json.loads_dumps hreadable
  rw [sortKeys_obj] at hloads
  unfold hiddenObservation
  rw [hfind]
  dsimp only
  rw [htake, String.ofList_toList, hloads]
  dsimp only
  rw [validateObservation_sortedFields hvalid]

/-- The comment gives back the observation it was made of, exactly if no text of the observation holds the end
of the hidden marker. -/
theorem comment_round_trip_iff {raw : List (String × Json)} {o : ShadowObservation}
    (h : validateObservation raw = .ok o) (floatRepr : String → String) (conclusion reason : Option String) :
    (∃ comment, observationComment raw conclusion reason = .ok comment ∧
      observationFromComment floatRepr comment = .ok (some o)) ↔
        ¬ Json.Mentions dataSuffix.toList (.obj o.asDict) := by
  have hrender : observationComment raw conclusion reason = .ok (renderComment o conclusion reason) := by
    rw [observationComment, h]
    rfl
  have hreadable : (Json.obj o.asDict).Readable floatRepr := readable_asDict h
  obtain ⟨after, hread⟩ := observationFromComment_render floatRepr o conclusion reason
  rw [hrender]
  simp only [Except.ok.injEq, exists_eq_left']
  rw [hread, ← Json.infix_dumps dataSuffix_kept dataSuffix_textual]
  constructor
  · intro hback hwithin
    exact hiddenObservation_of_infix hreadable hwithin after _ hback
  · intro hclean
    exact hiddenObservation_of_not_infix h hreadable hclean after

theorem terraform_comment_reads_back :
    ∃ comment, observationComment TerraformChange.observation.asDict none none = .ok comment ∧
      observationFromComment id comment = .ok (some TerraformChange.observation) := by
  have hvalid : validateObservation TerraformChange.observation.asDict = .ok TerraformChange.observation := by
    decide +kernel
  exact (comment_round_trip_iff hvalid id none none).mpr (by decide +kernel)

/-- The same change, with a file that could not be read. -/
def skippedFile : ShadowObservation :=
  { TerraformChange.observation with
    architecture := ⟨[], 1, 0, [⟨"infra/a --> b.tf", "contents API returned 404"⟩],
      "Architecture Guard did not run: content was unavailable for all 1 in-scope file(s), so nothing was reviewed."⟩ }

/-- A file whose name holds the end of the hidden marker makes the comment unreadable. -/
theorem skipped_file_comment_is_lost : validateObservation skippedFile.asDict = .ok skippedFile ∧
    ¬ ∃ comment, observationComment skippedFile.asDict none none = .ok comment ∧
      observationFromComment id comment = .ok (some skippedFile) := by
  have hvalid : validateObservation skippedFile.asDict = .ok skippedFile := by decide +kernel
  have hmentions : Json.Mentions dataSuffix.toList (.obj skippedFile.asDict) := by decide +kernel
  refine ⟨hvalid, ?_⟩
  rintro ⟨comment, hcomment, hback⟩
  have hrender : renderComment skippedFile none none = comment := by
    rw [observationComment, hvalid] at hcomment
    exact Except.ok.inj hcomment
  obtain ⟨after, hread⟩ := observationFromComment_render id skippedFile none none
  rw [← hrender, hread] at hback
  exact hiddenObservation_of_infix (readable_asDict hvalid)
    ((Json.infix_dumps dataSuffix_kept dataSuffix_textual _).mpr hmentions) after _ hback

end

end EngineeringIntelligence.PrGuardian
