import EngineeringIntelligence.Framework.Fallible
import EngineeringIntelligence.PrGuardian.Shadow
import Mathlib.Computability.Primrec.List

namespace EngineeringIntelligence.PrGuardian

open EngineeringIntelligence.Framework

/-! Validation is a normalisation: what it returns is accepted again and left as it is. -/

theorem string_eq_ok_iff {value : Json} {name s : String} {maximum : Nat} :
    string value name maximum = .ok s ↔ value = .str s ∧ s ≠ "" ∧ s.length ≤ maximum := by
  cases value <;> simp [string, ite_error_eq_ok_iff]
  constructor
  · rintro ⟨⟨hne, hlen⟩, rfl⟩
    exact ⟨rfl, hne, hlen⟩
  · rintro ⟨rfl, hne, hlen⟩
    exact ⟨⟨hne, hlen⟩, rfl⟩

theorem string_str {value : Json} {name s : String} {maximum : Nat}
    (h : string value name maximum = .ok s) (name' : String) :
    string (.str s) name' maximum = .ok s :=
  string_eq_ok_iff.mpr ⟨rfl, (string_eq_ok_iff.mp h).2⟩

theorem optionalString_optStr {value : Json} {name : String} {s : Option String} {maximum : Nat}
    (h : optionalString value name maximum = .ok s) :
    optionalString (Json.optStr s) name maximum = .ok s := by
  cases value with
  | null =>
    cases h
    rfl
  | str t =>
    change (string (.str t) name maximum).map some = .ok s at h
    cases hs : string (.str t) name maximum with
    | error e =>
      rw [hs] at h
      cases h
    | ok u =>
      rw [hs] at h
      cases h
      change (string (.str u) name maximum).map some = .ok (some u)
      rw [string_str hs]
      rfl
  | bool b => cases h
  | int n => cases h
  | float r => cases h
  | arr items => cases h
  | obj fields => cases h

theorem integer_eq_ok_iff {value : Json} {name : String} {minimum maximum n : Int} :
    integer value name minimum maximum = .ok n ↔
      value = .int n ∧ minimum ≤ n ∧ n ≤ maximum := by
  cases value <;> simp [integer, ite_else_error_eq_ok_iff]
  constructor
  · rintro ⟨hrange, rfl⟩
    exact ⟨rfl, hrange⟩
  · rintro ⟨rfl, hrange⟩
    exact ⟨hrange, rfl⟩

theorem integer_int {value : Json} {name : String} {minimum maximum n : Int}
    (h : integer value name minimum maximum = .ok n) (name' : String) :
    integer (.int n) name' minimum maximum = .ok n :=
  integer_eq_ok_iff.mpr ⟨rfl, (integer_eq_ok_iff.mp h).2⟩

@[simp] theorem boolean_bool (b : Bool) (name : String) : boolean (.bool b) name = .ok b := rfl

@[simp] theorem mapping_obj (fields : List (String × Json)) (name : String) :
    mapping (.obj fields) name = .ok fields := rfl

section
variable {α : Type} {read : String → Json → Except String α} {asDict : α → Json}

theorem records_asDict (hread : ∀ name item x, read name item = .ok x → read name (asDict x) = .ok x)
    {name : String} {index : Nat} {items : List Json} {xs : List α}
    (h : records read name index items = .ok xs) :
    records read name index (xs.map asDict) = .ok xs ∧ xs.length = items.length := by
  induction items generalizing index xs with
  | nil =>
    cases h
    exact ⟨rfl, rfl⟩
  | cons item items ih =>
    obtain ⟨x, hx, h⟩ := bind_eq_ok_iff.mp h
    obtain ⟨rest, hrest, h⟩ := bind_eq_ok_iff.mp h
    cases h
    obtain ⟨hdict, hlen⟩ := ih hrest
    refine ⟨?_, congrArg (· + 1) hlen⟩
    rw [List.map_cons, records, hread _ _ _ hx, ok_bind, hdict, ok_bind]

theorem recordList_asDict
    (hread : ∀ name item x, read name item = .ok x → read name (asDict x) = .ok x)
    {name : String} {maximum : Nat} {value : Json} {xs : List α}
    (h : recordList read name maximum value = .ok xs) :
    recordList read name maximum (.arr (xs.map asDict)) = .ok xs := by
  cases value with
  | arr items =>
    obtain ⟨hlen, h⟩ := ite_error_eq_ok_iff.mp h
    obtain ⟨hdict, heq⟩ := records_asDict hread h
    exact ite_error_eq_ok_iff.mpr ⟨by rwa [List.length_map, heq], hdict⟩
  | null => cases h
  | bool b => cases h
  | int n => cases h
  | float r => cases h
  | str s => cases h
  | obj fields => cases h

end

theorem exactKeys_eq_ok_iff {value : List (String × Json)} {expected : List String}
    {name : String} :
    exactKeys value expected name = .ok () ↔ ∀ k, k ∈ value.map Prod.fst ↔ k ∈ expected := by
  rw [exactKeys, ite_else_error_eq_ok_iff, Bool.and_eq_true, List.all_eq_true, List.all_eq_true]
  constructor
  · rintro ⟨⟨hknown, hall⟩, -⟩ k
    constructor
    · intro hk
      obtain ⟨f, hf, rfl⟩ := List.mem_map.mp hk
      exact List.contains_iff_mem.mp (hknown f hf)
    · intro hk
      obtain ⟨f, hf, heq⟩ := List.any_eq_true.mp (hall k hk)
      exact List.mem_map.mpr ⟨f, hf, of_decide_eq_true heq⟩
  · intro h
    refine ⟨⟨fun f hf => ?_, fun k hk => ?_⟩, rfl⟩
    · exact List.contains_iff_mem.mpr ((h f.1).mp (List.mem_map_of_mem hf))
    · obtain ⟨f, hf, heq⟩ := List.mem_map.mp ((h k).mpr hk)
      exact List.any_eq_true.mpr ⟨f, hf, decide_eq_true heq⟩

@[simp] theorem exactKeys_of_keys {value : List (String × Json)} {expected : List String}
    {name : String} (h : value.map Prod.fst = expected) :
    exactKeys value expected name = .ok () :=
  exactKeys_eq_ok_iff.mpr (by simp [h])

/-! A record that has every field is not touched by the defaults. -/

theorem mem_keys_withDefaults {defaults fields : List (String × Json)} {k : String} :
    k ∈ (withDefaults defaults fields).map Prod.fst ↔
      k ∈ defaults.map Prod.fst ∨ k ∈ fields.map Prod.fst := by
  simp only [withDefaults, List.map_append, List.map_map, List.mem_append, List.mem_map,
    List.mem_filter, List.all_eq_true, decide_eq_true_eq, Function.comp_def]
  constructor
  · rintro (h | ⟨f, ⟨hf, -⟩, hk⟩)
    · exact Or.inl h
    · exact Or.inr ⟨f, hf, hk⟩
  · rintro (h | ⟨f, hf, rfl⟩)
    · exact Or.inl h
    · by_cases hd : ∃ d ∈ defaults, d.1 = f.1
      · exact Or.inl hd
      · exact Or.inr ⟨f, ⟨hf, fun d hmem heq => hd ⟨d, hmem, heq⟩⟩, rfl⟩

theorem exactKeys_withDefaults {defaults fields : List (String × Json)} {expected : List String}
    {name : String} (hf : fields.map Prod.fst = expected)
    (hd : defaults.map Prod.fst ⊆ expected) :
    exactKeys (withDefaults defaults fields) expected name = .ok () := by
  refine exactKeys_eq_ok_iff.mpr fun k => ?_
  rw [mem_keys_withDefaults, hf]
  exact ⟨fun h => h.elim (fun hk => hd hk) id, Or.inr⟩

theorem lookup_map_defaults (defaults fields : List (String × Json)) (k : String) :
    (defaults.map (fun d => (d.1, (fields.lookup d.1).getD d.2))).lookup k =
      (defaults.lookup k).map (fun v => (fields.lookup k).getD v) := by
  induction defaults with
  | nil => rfl
  | cons d defaults ih =>
    rw [List.map_cons, List.lookup_cons, List.lookup_cons, ih]
    cases hk : k == d.1 with
    | false => rfl
    | true =>
      rw [eq_of_beq hk]
      rfl

theorem lookup_filter_defaults (defaults fields : List (String × Json)) (k : String)
    (h : defaults.lookup k = none) :
    (fields.filter (fun f => defaults.all fun d => d.1 ≠ f.1)).lookup k = fields.lookup k := by
  induction fields with
  | nil => rfl
  | cons f fields ih =>
    rw [List.filter_cons, List.lookup_cons]
    cases hk : k == f.1 with
    | false =>
      split
      · rw [List.lookup_cons, hk]
        exact ih
      · exact ih
    | true =>
      -- the key is no default, so this field is kept
      have hkeep : (defaults.all fun d => d.1 ≠ f.1) = true := by
        rw [List.all_eq_true]
        intro d hd
        rw [← eq_of_beq hk, decide_eq_true_eq]
        intro heq
        have := List.lookup_eq_none_iff.mp h d hd
        simp [heq] at this
      rw [if_pos hkeep, List.lookup_cons, hk]

theorem get_withDefaults {defaults fields : List (String × Json)} {k : String}
    (h : k ∈ fields.map Prod.fst) :
    Json.get (withDefaults defaults fields) k = Json.get fields k := by
  obtain ⟨v, hv⟩ : ∃ v, fields.lookup k = some v := by
    apply Option.ne_none_iff_exists'.mp
    intro hnone
    obtain ⟨f, hf, rfl⟩ := List.mem_map.mp h
    simpa using List.lookup_eq_none_iff.mp hnone f hf
  rw [Json.get, Json.get, withDefaults, List.lookup_append, lookup_map_defaults, hv]
  cases hd : defaults.lookup k with
  | some d => rfl
  | none =>
    rw [lookup_filter_defaults _ _ _ hd, hv]
    rfl

theorem validateEnforcement_asDict {value : Json} {mode : ProductMode} {e : ShadowEnforcement}
    (h : validateEnforcement value mode = .ok e) : validateEnforcement e.asDict mode = .ok e := by
  simp only [validateEnforcement, bind_eq_ok_iff, ite_error_eq_ok_iff] at h
  obtain ⟨raw, -, -, -, block, -, reason, hreason, rule, hrule, waived, hwaived, hneeds, hmode, h⟩ := h
  cases h
  simp only [validateEnforcement, ShadowEnforcement.asDict, mapping_obj, exactKeys_of_keys,
    List.map_cons, List.map_nil, Json.get, List.lookup, String.reduceBEq,
    Option.getD_some, boolean_bool, ok_bind,
    string_str hreason, optionalString_optStr hrule, optionalString_optStr hwaived]
  exact ite_error_eq_ok_iff.mpr ⟨hneeds, ite_error_eq_ok_iff.mpr ⟨hmode, rfl⟩⟩

theorem validateArchitectureViolation_asDict (name : String) (item : Json)
    (v : ArchitectureViolation) (h : validateArchitectureViolation name item = .ok v) :
    validateArchitectureViolation name v.asDict = .ok v := by
  simp only [validateArchitectureViolation, bind_eq_ok_iff] at h
  obtain ⟨raw, -, -, -, ruleId, hrule, path, hpath, marker, hmarker, rationale, hrationale,
    severity, hseverity, h⟩ := h
  cases h
  simp only [validateArchitectureViolation, ArchitectureViolation.asDict, mapping_obj,
    exactKeys_of_keys, List.map_cons, List.map_nil, Json.get, List.lookup, String.reduceBEq,
    Option.getD_some, ok_bind,
    string_str hrule, string_str hpath, string_str hmarker, string_str hrationale,
    integer_int hseverity]

theorem validateArchitectureSkip_asDict (name : String) (item : Json) (s : ArchitectureSkip)
    (h : validateArchitectureSkip name item = .ok s) :
    validateArchitectureSkip name s.asDict = .ok s := by
  simp only [validateArchitectureSkip, bind_eq_ok_iff] at h
  obtain ⟨raw, -, -, -, path, hpath, reason, hreason, h⟩ := h
  cases h
  simp only [validateArchitectureSkip, ArchitectureSkip.asDict, mapping_obj, exactKeys_of_keys,
    List.map_cons, List.map_nil, Json.get, List.lookup, String.reduceBEq,
    Option.getD_some, ok_bind, string_str hpath,
    string_str hreason]

theorem validateArchitecture_asDict {value : Json} {r : ArchitectureReview}
    (h : validateArchitecture value = .ok r) : validateArchitecture r.asDict = .ok r := by
  simp only [validateArchitecture, bind_eq_ok_iff, ite_error_eq_ok_iff] at h
  obtain ⟨given, -, -, -, violations, hviolations, skipped, hskipped, reviewed, hreviewed,
    inScope, hscope, hle, hsome, summary, hsummary, h⟩ := h
  cases h
  have hdefaults : coverageDefaults.map Prod.fst ⊆
      ["violations", "in_scope", "reviewed", "skipped", "summary"] := by
    simp [coverageDefaults]
  simp only [validateArchitecture, ArchitectureReview.asDict, mapping_obj, exactKeys_withDefaults,
    hdefaults, List.map_cons, List.map_nil, get_withDefaults, List.mem_cons, String.reduceEq, true_or,
    false_or, ok_bind]
  simp only [Json.get, List.lookup, String.reduceBEq, Option.getD_some, ok_bind, recordList_asDict validateArchitectureViolation_asDict hviolations,
    recordList_asDict validateArchitectureSkip_asDict hskipped, integer_int hreviewed,
    integer_int hscope, string_str hsummary]
  exact ite_error_eq_ok_iff.mpr ⟨hle, ite_error_eq_ok_iff.mpr ⟨hsome, rfl⟩⟩

theorem isHexDigit_iff (c : Char) :
    isHexDigit c = true ↔ (48 ≤ c.toNat ∧ c.toNat ≤ 57) ∨ (97 ≤ c.toNat ∧ c.toNat ≤ 102) ∨
      (65 ≤ c.toNat ∧ c.toNat ≤ 70) := by
  simp only [isHexDigit, Char.isDigit, Bool.or_eq_true, Bool.and_eq_true, decide_eq_true_eq,
    or_assoc]
  rfl

theorem isHexDigit_toLower {c : Char} (h : isHexDigit c = true) : isHexDigit c.toLower = true := by
  rw [isHexDigit_iff] at h ⊢
  rw [toNat_toLower]
  split <;> omega

theorem isSha_asciiLower {s : String} (h : isSha s = true) : isSha (asciiLower s) = true := by
  simp only [isSha, Bool.and_eq_true, decide_eq_true_eq, List.all_eq_true, length_asciiLower] at h ⊢
  refine ⟨h.1, fun c hc => ?_⟩
  obtain ⟨d, hd, rfl⟩ : ∃ d ∈ s.toList, d.toLower = c := by simpa [asciiLower] using hc
  exact isHexDigit_toLower (h.2 d hd)

theorem validateObservationSubject_asDict {value : Json} {s : ShadowSubject}
    (h : validateObservationSubject value = .ok s) :
    validateObservationSubject s.asDict = .ok s := by
  simp only [validateObservationSubject, bind_eq_ok_iff, ite_else_error_eq_ok_iff] at h
  obtain ⟨raw, -, -, -, repository, hrepository, hname, sha, hsha, hhex, number, hnumber, action,
    haction, h⟩ := h
  cases h
  have hlower : string (.str (asciiLower sha)) "subject.head_sha" 64 = .ok (asciiLower sha) := by
    obtain ⟨-, hne, hlen⟩ := string_eq_ok_iff.mp hsha
    refine string_eq_ok_iff.mpr ⟨rfl, ?_, by rwa [length_asciiLower]⟩
    rwa [ne_eq, ← String.length_eq_zero_iff, length_asciiLower, String.length_eq_zero_iff]
  simp only [validateObservationSubject, ShadowSubject.asDict, mapping_obj, exactKeys_of_keys,
    List.map_cons, List.map_nil, Json.get, List.lookup, String.reduceBEq,
    Option.getD_some, ok_bind, string_str hrepository, hname, if_true, hlower,
    isSha_asciiLower hhex, integer_int hnumber, string_str haction, asciiLower_asciiLower]

theorem validateRiskFactor_asDict (name : String) (item : Json) (f : ShadowRiskFactor)
    (h : validateRiskFactor name item = .ok f) : validateRiskFactor name f.asDict = .ok f := by
  simp only [validateRiskFactor, bind_eq_ok_iff] at h
  obtain ⟨raw, -, -, -, factor, hfactor, points, hpoints, evidence, hevidence, h⟩ := h
  cases h
  simp only [validateRiskFactor, ShadowRiskFactor.asDict, mapping_obj, exactKeys_of_keys,
    List.map_cons, List.map_nil, Json.get, List.lookup, String.reduceBEq,
    Option.getD_some, ok_bind,
    string_str hfactor, integer_int hpoints, string_str hevidence]

theorem validateAssessment_asDict {value : Json} {a : ShadowAssessment}
    (h : validateAssessment value = .ok a) : validateAssessment a.asDict = .ok a := by
  simp only [validateAssessment, bind_eq_ok_iff, ite_else_error_eq_ok_iff] at h
  obtain ⟨raw, -, -, -, band, hband, hknown, score, hscore, factors, hfactors, h⟩ := h
  cases h
  simp only [validateAssessment, ShadowAssessment.asDict, mapping_obj, exactKeys_of_keys,
    List.map_cons, List.map_nil, Json.get, List.lookup, String.reduceBEq,
    Option.getD_some, ok_bind, string_str hband,
    hknown, if_true, integer_int hscore, recordList_asDict validateRiskFactor_asDict hfactors]

theorem validateSimulatedPolicy_asDict (p : SimulatedPolicy) :
    validateSimulatedPolicy p.asDict = .ok p := by
  simp only [validateSimulatedPolicy, SimulatedPolicy.asDict, mapping_obj, exactKeys_of_keys,
    List.map_cons, List.map_nil, Json.get, List.lookup, String.reduceBEq,
    Option.getD_some, ok_bind, boolean_bool]

theorem validateWorkflow_asDict {value : Json} {w : ShadowWorkflow}
    (h : validateWorkflow value = .ok w) : validateWorkflow w.asDict = .ok w := by
  simp only [validateWorkflow, bind_eq_ok_iff] at h
  obtain ⟨raw, -, -, -, id, hid, verified, -, h⟩ := h
  cases h
  simp only [validateWorkflow, ShadowWorkflow.asDict, mapping_obj, exactKeys_of_keys,
    List.map_cons, List.map_nil, Json.get, List.lookup, String.reduceBEq,
    Option.getD_some, ok_bind, boolean_bool,
    string_str hid]

theorem mapM_string_str {items : List Json} {name : String} {maximum : Nat} {services : List String}
    (h : items.mapM (fun item => string item name maximum) = .ok services) :
    (services.map Json.str).mapM (fun item => string item name maximum) = .ok services ∧
      services.length = items.length := by
  induction items generalizing services with
  | nil =>
    cases h
    exact ⟨rfl, rfl⟩
  | cons item items ih =>
    rw [List.mapM_cons] at h
    obtain ⟨s, hs, h⟩ := bind_eq_ok_iff.mp h
    obtain ⟨rest, hrest, h⟩ := bind_eq_ok_iff.mp h
    cases h
    obtain ⟨hmap, hlen⟩ := ih hrest
    refine ⟨?_, congrArg (· + 1) hlen⟩
    rw [List.map_cons, List.mapM_cons, string_str hs, ok_bind, hmap, ok_bind]
    rfl

theorem validateChangedServices_arr {value : Json} {services : List String}
    (h : validateChangedServices value = .ok services) :
    validateChangedServices (.arr (services.map .str)) = .ok services := by
  cases value with
  | arr items =>
    obtain ⟨hlen, h⟩ := ite_error_eq_ok_iff.mp h
    obtain ⟨texts, htexts, h⟩ := bind_eq_ok_iff.mp h
    obtain ⟨hsorted, h⟩ := ite_else_error_eq_ok_iff.mp h
    cases h
    obtain ⟨hmap, heq⟩ := mapM_string_str htexts
    refine ite_error_eq_ok_iff.mpr ⟨by rwa [List.length_map, heq], ?_⟩
    rw [hmap, ok_bind]
    exact ite_else_error_eq_ok_iff.mpr ⟨hsorted, rfl⟩
  | null => cases h
  | bool b => cases h
  | int n => cases h
  | float r => cases h
  | str s => cases h
  | obj fields => cases h

theorem shadowMode_value (m : ProductMode) : shadowMode (.str m.value) = .ok m := by
  cases m <;> rfl

theorem observationEnvelope_asDict (o : ShadowObservation) :
    observationEnvelope o.asDict = .ok (withDefaults envelopeDefaults o.asDict) := by
  have hkeys : o.asDict.map Prod.fst = observationFields := rfl
  have hdefaults : envelopeDefaults.map Prod.fst ⊆ observationFields := by
    simp [envelopeDefaults, observationFields]
  rw [observationEnvelope, exactKeys_withDefaults hkeys hdefaults, ok_bind]
  refine ite_else_error_eq_ok_iff.mpr ⟨?_, rfl⟩
  simp only [get_withDefaults, ShadowObservation.asDict, List.map_cons, List.map_nil, List.mem_cons,
    String.reduceEq, true_or, false_or]
  simp only [Json.get, List.lookup, String.reduceBEq, Option.getD_some, equalsSchemaVersion,
    equalsText, decide_true, Bool.and_self]

/-- Validation returns a normal form: validating it again changes nothing. -/
theorem validateObservation_asDict {value : List (String × Json)} {o : ShadowObservation}
    (h : validateObservation value = .ok o) : validateObservation o.asDict = .ok o := by
  simp only [validateObservation, bind_eq_ok_iff] at h
  obtain ⟨envelope, -, mode, -, enforcement, henforcement, architecture, harchitecture, observedAt,
    hobserved, subject, hsubject, assessment, hassessment, services, hservices, policy, -, workflow,
    hworkflow, h⟩ := h
  cases h
  rw [validateObservation, observationEnvelope_asDict, ok_bind]
  simp only [get_withDefaults, ShadowObservation.asDict, List.map_cons, List.map_nil, List.mem_cons,
    String.reduceEq, true_or, false_or]
  simp only [Json.get, List.lookup, String.reduceBEq, Option.getD_some, shadowMode_value, ok_bind,
    validateEnforcement_asDict henforcement, validateArchitecture_asDict harchitecture,
    string_str hobserved, validateObservationSubject_asDict hsubject,
    validateAssessment_asDict hassessment, validateChangedServices_arr hservices,
    validateSimulatedPolicy_asDict, validateWorkflow_asDict hworkflow]

end EngineeringIntelligence.PrGuardian
