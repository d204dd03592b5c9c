import EngineeringIntelligence.Framework.JsonTrip
import EngineeringIntelligence.Validation.EvidenceRecords

namespace EngineeringIntelligence.Validation

open EngineeringIntelligence.Framework Json

/-! A record that was validated, as a file name and through JSON. -/

/-- `EvidenceRecord.as_dict`. -/
def EvidenceRecord.asDict (record : EvidenceRecord) : List (String × Json) :=
  [("evidence_id", .str record.evidenceId), ("scope", .str record.scope), ("change", .str record.change),
    ("claim", .str record.claim), ("method", .str record.method), ("result", .str record.result),
    ("independence", .str record.independence), ("artifacts", .arr (record.artifacts.map .str)),
    ("approval", .str record.approval), ("basis", .str record.basis), ("decision", .str record.decision)] ++
  record.sourceRunUrl.toList.map (fun url => ("source_run_url", .str url)) ++
  record.readinessKey.toList.map (fun key => ("readiness_key", .str key)) ++
  if record.controls = [] then [] else [("controls", .arr (record.controls.map .str))]

/-- A character of a file name. -/
def isNameChar (c : Char) : Bool :=
  ('a' ≤ c && c ≤ 'z') || ('0' ≤ c && c ≤ '9') || c = '.' || c = '_' || c = '-'

def SafeFileName (text : String) : Prop := ∀ c ∈ text.toList, isNameChar c = true

/-! ### The identifier -/

theorem safeFileName_iff {text : String} (h : matchesEvidenceId text = true) :
    SafeFileName text ↔ text.toList.getLast? ≠ some '\n' := by
  unfold matchesEvidenceId at h
  unfold SafeFileName
  cases hchars : text.toList with
  | nil => simp
  | cons c rest =>
    simp only [hchars, Bool.and_eq_true, Bool.or_eq_true, decide_eq_true_eq] at h
    obtain ⟨hstart, hrest⟩ := h
    have hfirst : isNameChar c = true := by
      simp only [isNameChar, Bool.or_eq_true, Bool.and_eq_true, decide_eq_true_eq]
      exact .inl (.inl (.inl hstart))
    constructor
    · intro hsafe hlast
      have hnewline := hsafe '\n' (List.mem_of_getLast? hlast)
      exact absurd hnewline (by decide)
    · intro hlast d hd
      rcases hrest with hall | ⟨hnewline, -⟩
      · rcases List.mem_cons.mp hd with rfl | hd
        · exact hfirst
        · have hinside := List.all_eq_true.mp hall d hd
          simpa [isNameChar, or_assoc] using hinside
      · refine absurd ?_ hlast
        rw [List.getLast?_cons, hnewline]
        rfl

/-! ### Names of controls -/

/-- The names of a list, stripped, each at its first place. -/
def distinctNames (items : List String) : List String :=
  items.foldl (fun seen item => if strip item ∈ seen then seen else seen ++ [strip item]) []

theorem distinctNames_fold (items seen : List String) (h : seen.Nodup) :
    (items.foldl (fun seen item => if strip item ∈ seen then seen else seen ++ [strip item]) seen).Nodup := by
  induction items generalizing seen with
  | nil => exact h
  | cons item items ih =>
    rw [List.foldl_cons]
    split
    · exact ih seen h
    · next hnew =>
      refine ih _ (List.nodup_append.mpr ⟨h, List.nodup_singleton _, ?_⟩)
      rintro a ha b hb rfl
      exact hnew (List.mem_singleton.mp hb ▸ ha)

theorem distinctNames_nodup (items : List String) : (distinctNames items).Nodup :=
  distinctNames_fold items [] List.nodup_nil

/-- Names that are stripped and distinct stay as they are. -/
theorem distinctNames_eq {names : List String} (h : names.Nodup) (hstrip : ∀ name ∈ names, strip name = name) :
    distinctNames names = names := by
  have hfold : ∀ seen : List String, (seen ++ names).Nodup →
      names.foldl (fun seen item => if strip item ∈ seen then seen else seen ++ [strip item]) seen =
        seen ++ names := by
    clear h
    induction names with
    | nil => simp
    | cons name names ih =>
      intro seen hseen
      have hname : strip name = name := hstrip name List.mem_cons_self
      have hnew : name ∉ seen := fun hmem => (List.nodup_append.mp hseen).2.2 _ hmem _ List.mem_cons_self rfl
      have hsplit : seen ++ name :: names = seen ++ [name] ++ names := by simp
      rw [List.foldl_cons, hname, if_neg hnew, hsplit]
      exact ih (fun n hn => hstrip n (List.mem_cons_of_mem name hn)) _ (hsplit ▸ hseen)
  exact hfold [] h

theorem attested_stripped : ∀ name ∈ Resilience.attestedControls, strip name = name ∧ name ≠ "" := by
  decide

/-! ### What is accepted -/

/-- The fields of a record that `validate_record` returns. -/
structure Accepted (record : EvidenceRecord) : Prop where
  text : ∀ s ∈ [record.evidenceId, record.scope, record.change, record.claim, record.method, record.result,
    record.independence, record.approval, record.basis, record.decision], strip s ≠ ""
  evidenceId : matchesEvidenceId record.evidenceId = true
  artifacts : record.artifacts ≠ [] ∧ ∀ s ∈ record.artifacts, strip s ≠ ""
  basis : record.basis ∈ bases
  decision : record.decision ∈ decisions
  sourceRunUrl : ∀ url, record.sourceRunUrl = some url → strip url ≠ "" ∧ startsWithAny url ["https://"] = true
  measured : record.basis = "measured" → record.sourceRunUrl ≠ none
  readinessKey : ∀ key, record.readinessKey = some key → strip key ≠ "" ∧ key ∈ requiredKeys
  controls : record.controls.Nodup ∧ ∀ name ∈ record.controls, name ∈ Resilience.attestedControls

variable {fields : List (String × Json)} {record : EvidenceRecord}

theorem text_of_violations {field : String} (h : textViolations fields field = []) :
    ∃ s, Json.get fields field = .str s ∧ strip s ≠ "" := by
  unfold textViolations at h
  split at h
  · cases h
  · next s hs =>
    split at h
    · cases h
    · next hfilled => exact ⟨s, by rw [Json.get, hs]; rfl, hfilled⟩
  · cases h

theorem choice_of_violations {field : String} {choices : List String}
    (h : choiceViolations fields field choices = []) :
    ∃ s, Json.get fields field = .str s ∧ strip s ≠ "" ∧ s ∈ choices := by
  obtain ⟨htext, hchoice⟩ := List.append_eq_nil_iff.mp h
  obtain ⟨s, hs, hfilled⟩ := text_of_violations htext
  simp only [hs] at hchoice
  refine ⟨s, hs, hfilled, not_not.mp fun hnot => ?_⟩
  rw [if_pos ⟨hfilled, hnot⟩] at hchoice
  cases hchoice

theorem texts_map_str (items : List String) : texts (items.map .str) = items := by
  simp [texts, List.filterMap_map]

theorem filled_of_mem {items : List Json} (h : items.any (!filled ·) = false) {s : String}
    (hs : s ∈ texts items) : strip s ≠ "" := by
  obtain ⟨item, hitem, htext⟩ := List.mem_filterMap.mp hs
  have hfilled := List.any_eq_false.mp h item hitem
  cases item with
  | str t =>
    obtain rfl : t = s := by simpa using htext
    simpa [filled] using hfilled
  | _ => simp at htext

theorem artifacts_of_violations (h : artifactViolations fields = []) :
    ∃ items, Json.get fields "artifacts" = .arr items ∧ texts items ≠ [] ∧ ∀ s ∈ texts items, strip s ≠ "" := by
  unfold artifactViolations at h
  split at h
  · cases h
  · next items hitems =>
    split at h
    · cases h
    · next hsome =>
      split at h
      · cases h
      · next hfilled =>
        rw [Bool.not_eq_true] at hfilled
        refine ⟨items, by rw [Json.get, hitems]; rfl, ?_, fun s hs => filled_of_mem hfilled hs⟩
        cases items with
        | nil => simp at hsome
        | cons item items =>
          have hfirst := List.any_eq_false.mp hfilled item List.mem_cons_self
          cases item with
          | str t => simp [texts]
          | _ => simp [filled] at hfirst
  · cases h

theorem sourceRunUrl_of_violations (h : sourceRunUrlViolations fields = []) :
    (∀ url, optTextOf fields "source_run_url" = some url →
      strip url ≠ "" ∧ startsWithAny url ["https://"] = true) ∧
    (isText "measured" (Json.get fields "basis") = true → optTextOf fields "source_run_url" ≠ none) := by
  obtain ⟨hurl, hmeasured⟩ := List.append_eq_nil_iff.mp h
  cases hget : Json.get fields "source_run_url" with
  | str url =>
    simp only [hget] at hurl
    split at hurl
    · cases hurl
    · next hfilled =>
      split at hurl
      · next hsecure => simp [optTextOf, hget, hfilled, hsecure]
      · cases hurl
  | null =>
    refine ⟨by simp [optTextOf, hget], fun hbasis => ?_⟩
    simp [hget, hbasis, filled] at hmeasured
  | _ => simp [hget] at hurl

theorem readinessKey_of_violations (h : readinessKeyViolations fields = []) (key : String)
    (hkey : optTextOf fields "readiness_key" = some key) : strip key ≠ "" ∧ key ∈ requiredKeys := by
  unfold readinessKeyViolations at h
  unfold optTextOf at hkey
  cases hget : Json.get fields "readiness_key" with
  | str text =>
    simp only [hget] at h hkey
    cases hkey
    split at h
    · cases h
    · next hfilled =>
      split at h
      · next hknown => exact ⟨hfilled, hknown⟩
      · cases h
  | _ => simp [hget] at hkey

theorem controls_of_violations (h : (controlsOf fields).2 = []) :
    (controlsOf fields).1.Nodup ∧ ∀ name ∈ (controlsOf fields).1, name ∈ Resilience.attestedControls := by
  unfold controlsOf at h ⊢
  cases hget : Json.get fields "controls" with
  | arr items =>
    simp only [hget] at h ⊢
    split at h
    · cases h
    · next hfilled =>
      rw [if_neg hfilled]
      simp only [ite_eq_left_iff, List.cons_ne_nil, imp_false, not_not, List.filter_eq_nil_iff,
        decide_eq_true_eq] at h
      exact ⟨distinctNames_nodup _, h⟩
  | _ => simp

theorem accepted_of_ok (h : validateRecord (.obj fields) = .ok record) :
    Accepted record ∧ record.evidenceId = textOf fields "evidence_id" := by
  unfold validateRecord at h
  dsimp only at h
  split at h
  · cases h
  next hviolations =>
  cases h
  simp only [violations, not_not, List.append_eq_nil_iff, basisAndDecisionViolations] at hviolations
  obtain ⟨⟨⟨⟨⟨⟨⟨-, htexts⟩, hid⟩, hartifacts⟩, hbasis, hdecision⟩, hurl⟩, hkey⟩, hcontrols⟩ := hviolations
  have htext : ∀ field ∈ requiredFields.filter (· ≠ "artifacts"), strip (textOf fields field) ≠ "" := by
    intro field hfield
    obtain ⟨s, hs, hfilled⟩ := text_of_violations (List.flatMap_eq_nil_iff.mp htexts field hfield)
    rw [textOf, hs]
    exact hfilled
  obtain ⟨basis, hgetBasis, hbasisFilled, hbasisChoice⟩ := choice_of_violations hbasis
  obtain ⟨decision, hgetDecision, hdecisionFilled, hdecisionChoice⟩ := choice_of_violations hdecision
  obtain ⟨items, hitems, hsome, hfilled⟩ := artifacts_of_violations hartifacts
  obtain ⟨hsecure, hmeasured⟩ := sourceRunUrl_of_violations hurl
  have hbasisText : textOf fields "basis" = basis := by rw [textOf, hgetBasis]
  have hdecisionText : textOf fields "decision" = decision := by rw [textOf, hgetDecision]
  refine ⟨⟨?_, ?_, ?_, ?_, ?_, hsecure, ?_, readinessKey_of_violations hkey, controls_of_violations hcontrols⟩, rfl⟩
  · simp only [List.forall_mem_cons, hbasisText, hdecisionText]
    exact ⟨htext _ (by decide), htext _ (by decide), htext _ (by decide), htext _ (by decide), htext _ (by decide),
      htext _ (by decide), htext _ (by decide), htext _ (by decide), hbasisFilled, hdecisionFilled, nofun⟩
  · obtain ⟨id, hgetId, hidFilled⟩ := text_of_violations
      (List.flatMap_eq_nil_iff.mp htexts "evidence_id" (by decide))
    simp only [hgetId, ite_eq_right_iff, Bool.and_eq_true, List.cons_ne_nil, imp_false, not_and,
      decide_eq_true_eq] at hid
    simp only [textOf, hgetId]
    simpa using hid hidFilled
  · simp only [hitems]
    exact ⟨hsome, hfilled⟩
  · rw [hbasisText]
    exact hbasisChoice
  · rw [hdecisionText]
    exact hdecisionChoice
  · intro hbasisMeasured
    refine hmeasured ?_
    rw [hgetBasis, ← hbasisText]
    simpa [isText] using hbasisMeasured

/-! ### The record written out -/

theorem get_asDict_text (record : EvidenceRecord) :
    Json.get record.asDict "evidence_id" = .str record.evidenceId ∧
    Json.get record.asDict "scope" = .str record.scope ∧ Json.get record.asDict "change" = .str record.change ∧
    Json.get record.asDict "claim" = .str record.claim ∧ Json.get record.asDict "method" = .str record.method ∧
    Json.get record.asDict "result" = .str record.result ∧
    Json.get record.asDict "independence" = .str record.independence ∧
    Json.get record.asDict "artifacts" = .arr (record.artifacts.map .str) ∧
    Json.get record.asDict "approval" = .str record.approval ∧
    Json.get record.asDict "basis" = .str record.basis ∧
    Json.get record.asDict "decision" = .str record.decision := by
  simp [Json.get, EvidenceRecord.asDict, List.lookup_cons]

theorem get_asDict_optional (record : EvidenceRecord) :
    Json.get record.asDict "source_run_url" = optStr record.sourceRunUrl ∧
    Json.get record.asDict "readiness_key" = optStr record.readinessKey ∧
    Json.get record.asDict "controls" =
      if record.controls = [] then .null else .arr (record.controls.map .str) := by
  cases hurl : record.sourceRunUrl <;> cases hkey : record.readinessKey <;>
    by_cases hcontrols : record.controls = [] <;>
    simp [Json.get, EvidenceRecord.asDict, List.lookup_cons, hurl, hkey, hcontrols, optStr]

theorem keys_asDict (record : EvidenceRecord) :
    (record.asDict.map Prod.fst).Nodup ∧ ∀ key ∈ record.asDict.map Prod.fst, key ∈ allFields := by
  cases hurl : record.sourceRunUrl <;> cases hkey : record.readinessKey <;>
    by_cases hcontrols : record.controls = [] <;>
    simp [EvidenceRecord.asDict, hurl, hkey, hcontrols, allFields, requiredFields]

theorem lookup_of_get {field : String} {value : Json} (h : Json.get fields field = value) (hvalue : value ≠ .null) :
    fields.lookup field = some value := by
  unfold Json.get at h
  cases hlookup : fields.lookup field with
  | none =>
    rw [hlookup] at h
    exact absurd h.symm hvalue
  | some found =>
    rw [hlookup] at h
    exact congrArg some h

theorem textViolations_eq_nil {field s : String} (h : Json.get fields field = .str s) (hs : strip s ≠ "") :
    textViolations fields field = [] := by
  rw [textViolations, lookup_of_get h nofun]
  exact if_neg hs

theorem choiceViolations_eq_nil {field s : String} {choices : List String} (h : Json.get fields field = .str s)
    (hs : strip s ≠ "") (hchoice : s ∈ choices) : choiceViolations fields field choices = [] := by
  rw [choiceViolations, textViolations_eq_nil h hs, h]
  simp [hchoice]

theorem artifactViolations_asDict (h : Accepted record) : artifactViolations record.asDict = [] := by
  obtain ⟨hsome, hfilled⟩ := h.artifacts
  obtain ⟨-, -, -, -, -, -, -, hget, -⟩ := get_asDict_text record
  rw [artifactViolations, lookup_of_get hget nofun]
  simpa [hsome, filled] using hfilled

theorem sourceRunUrlViolations_asDict (h : Accepted record) : sourceRunUrlViolations record.asDict = [] := by
  obtain ⟨-, -, -, -, -, -, -, -, -, hbasis, -⟩ := get_asDict_text record
  obtain ⟨hget, -⟩ := get_asDict_optional record
  rw [sourceRunUrlViolations, hget, hbasis]
  cases hurl : record.sourceRunUrl with
  | none =>
    have hunmeasured : record.basis ≠ "measured" := fun hmeasured => h.measured hmeasured hurl
    simp [optStr, isText, hunmeasured]
  | some url =>
    obtain ⟨hfilled, hsecure⟩ := h.sourceRunUrl url hurl
    simp [optStr, filled, hfilled, hsecure]

theorem readinessKeyViolations_asDict (h : Accepted record) : readinessKeyViolations record.asDict = [] := by
  obtain ⟨-, hget, -⟩ := get_asDict_optional record
  rw [readinessKeyViolations, hget]
  cases hkey : record.readinessKey with
  | none => rfl
  | some key =>
    obtain ⟨hfilled, hknown⟩ := h.readinessKey key hkey
    simp [optStr, hfilled, hknown]

theorem controlsOf_asDict (h : Accepted record) : controlsOf record.asDict = (record.controls, []) := by
  obtain ⟨hnodup, hattested⟩ := h.controls
  obtain ⟨-, -, hget⟩ := get_asDict_optional record
  have hnames : distinctNames (texts (record.controls.map .str)) = record.controls := by
    rw [texts_map_str]
    exact distinctNames_eq hnodup fun name hname => (attested_stripped name (hattested name hname)).1
  have hfilled : (record.controls.map Json.str).any (!filled ·) = false := by
    simp only [List.any_map, List.any_eq_false, Function.comp_apply, filled, Bool.not_eq_true',
      decide_eq_false_iff_not, not_not]
    intro name hname
    obtain ⟨hstrip, hne⟩ := attested_stripped name (hattested name hname)
    rw [hstrip]
    exact hne
  rw [controlsOf, hget]
  by_cases hcontrols : record.controls = []
  · simp [hcontrols]
  · rw [if_neg hcontrols]
    unfold distinctNames at hnames
    simpa [hfilled, hnames] using hattested

theorem violations_asDict (h : Accepted record) : violations record.asDict = [] := by
  have hknown : (record.asDict.map (·.1)).filter (· ∉ allFields) = [] := by
    have hkeys := (keys_asDict record).2
    simpa [List.filter_eq_nil_iff] using hkeys
  have htext := h.text
  obtain ⟨hid, hscope, hchange, hclaim, hmethod, hresult, hindependence, -, happroval, hbasis, hdecision⟩ :=
    get_asDict_text record
  simp only [List.forall_mem_cons] at htext
  obtain ⟨tid, tscope, tchange, tclaim, tmethod, tresult, tindependence, tapproval, tbasis, tdecision, -⟩ := htext
  have hfields : (requiredFields.filter (· ≠ "artifacts")).flatMap (textViolations record.asDict) = [] := by
    have hlist : requiredFields.filter (· ≠ "artifacts") = ["evidence_id", "scope", "change", "claim", "method",
      "result", "independence", "approval"] := by decide
    simp only [hlist, List.flatMap_cons, List.flatMap_nil, textViolations_eq_nil hid tid,
      textViolations_eq_nil hscope tscope, textViolations_eq_nil hchange tchange, textViolations_eq_nil hclaim tclaim,
      textViolations_eq_nil hmethod tmethod, textViolations_eq_nil hresult tresult,
      textViolations_eq_nil hindependence tindependence, textViolations_eq_nil happroval tapproval, List.append_nil]
  have hchoices : basisAndDecisionViolations record.asDict = [] := by
    rw [basisAndDecisionViolations, choiceViolations_eq_nil hbasis tbasis h.basis,
      choiceViolations_eq_nil hdecision tdecision h.decision]
    rfl
  unfold violations
  rw [hknown, hfields, hid, artifactViolations_asDict h, hchoices, sourceRunUrlViolations_asDict h,
    readinessKeyViolations_asDict h, controlsOf_asDict h]
  simp [sortedSet, h.evidenceId]

theorem optTextOf_of_get {field : String} {text : Option String} (h : Json.get fields field = optStr text) :
    optTextOf fields field = text := by
  rw [optTextOf, h]
  cases text <;> rfl

theorem validate_asDict (h : Accepted record) : validateRecord (.obj record.asDict) = .ok record := by
  obtain ⟨hid, hscope, hchange, hclaim, hmethod, hresult, hindependence, hartifacts, happroval, hbasis, hdecision⟩ :=
    get_asDict_text record
  obtain ⟨hurl, hkey, -⟩ := get_asDict_optional record
  simp only [validateRecord, violations_asDict h, ne_eq, not_true_eq_false, if_false, textOf, hid, hscope, hchange,
    hclaim, hmethod, hresult, hindependence, hartifacts, happroval, hbasis, hdecision, texts_map_str,
    optTextOf_of_get hurl, optTextOf_of_get hkey, controlsOf_asDict h]

/-! ### Through JSON -/

/-- What is promised of a record: its identifier is a safe file name, and it comes back through JSON. -/
def Retained (floatRepr : String → String) (record : EvidenceRecord) : Prop :=
  SafeFileName record.evidenceId ∧
    RoundTrips floatRepr validateRecord (fun back => back = record) (.obj record.asDict)

theorem texts_written (floatRepr : String → String) (items : List String) :
    Convertible (.arr (items.map .str)) ∧ Held floatRepr (.arr (items.map .str)) := by
  refine ⟨convertibleItems_iff.mpr ?_, (heldItems_iff floatRepr).mpr ?_⟩
  · simp [Convertible]
  · simp [Held]

theorem asDict_written (floatRepr : String → String) (record : EvidenceRecord) :
    Convertible (.obj record.asDict) ∧ Held floatRepr (.obj record.asDict) := by
  have hartifacts := texts_written floatRepr record.artifacts
  have hcontrols := texts_written floatRepr record.controls
  have hkeys := (keys_asDict record).1
  have hfields : ConvertibleFields record.asDict ∧ HeldFields floatRepr record.asDict := by
    cases hurl : record.sourceRunUrl <;> cases hkey : record.readinessKey <;>
      by_cases hempty : record.controls = [] <;>
      simp [EvidenceRecord.asDict, hurl, hkey, hempty, ConvertibleFields, HeldFields, hartifacts, hcontrols,
        Convertible.eq_def, Held.eq_def]
  exact ⟨hfields.1, hkeys, hfields.2⟩

/-- A record that is accepted is retained exactly if its identifier does not end in a newline. -/
theorem retained_iff (floatRepr : String → String) (h : validateRecord (.obj fields) = .ok record) :
    Retained floatRepr record ↔ (textOf fields "evidence_id").toList.getLast? ≠ some '\n' := by
  obtain ⟨haccepted, hid⟩ := accepted_of_ok h
  obtain ⟨hconvertible, hheld⟩ := asDict_written floatRepr record
  rw [← hid, ← safeFileName_iff haccepted.evidenceId]
  refine ⟨fun hretained => hretained.1, fun hsafe => ⟨hsafe, ?_⟩⟩
  exact (roundTrips_iff floatRepr validateRecord hheld).mpr ⟨hconvertible, record, validate_asDict haccepted, rfl⟩

/-- The record of a drill, under an identifier. -/
def drillRecord (id : String) : EvidenceRecord :=
  { evidenceId := id, scope := "payments/prod", change := "main@1a2b", claim := "rollback works", method := "drill"
    result := "pass; 3/3", independence := "second team", artifacts := ["sha256:1a2b"], approval := "platform"
    basis := "measured", decision := "l4-promotion", sourceRunUrl := some "https://ci/runs/1"
    readinessKey := some "rollback-drill", controls := ["security-review"] }

theorem drill_accepted : ∀ id ∈ ["drill-1", "drill-1\n"], Accepted (drillRecord id) := by
  intro id hid
  have hchecks : ∀ id ∈ ["drill-1", "drill-1\n"], strip id ≠ "" ∧ matchesEvidenceId id = true := by decide
  obtain ⟨hfilled, hmatches⟩ := hchecks id hid
  have htexts : ∀ s ∈ ["payments/prod", "main@1a2b", "rollback works", "drill", "pass; 3/3", "second team",
      "platform", "measured", "l4-promotion", "sha256:1a2b"], strip s ≠ "" := by decide
  refine ⟨?_, hmatches, ⟨nofun, ?_⟩, by simp [drillRecord, bases], by simp [drillRecord, decisions], ?_,
    fun _ => nofun, ?_, by simp [drillRecord, Resilience.attestedControls]⟩
  · exact List.forall_mem_cons.mpr ⟨hfilled, fun s hs => htexts s (List.mem_append_left ["sha256:1a2b"] hs)⟩
  · exact fun s hs => htexts s (by simp_all [drillRecord])
  · rintro url ⟨⟩
    decide
  · rintro key ⟨⟩
    decide

theorem drill_retained :
    validateRecord (.obj (drillRecord "drill-1").asDict) = .ok (drillRecord "drill-1") ∧
      Retained id (drillRecord "drill-1") := by
  have haccepted := drill_accepted "drill-1" (by simp)
  have hid : textOf (drillRecord "drill-1").asDict "evidence_id" = "drill-1" := by
    rw [textOf, (get_asDict_text _).1]
    rfl
  refine ⟨validate_asDict haccepted, (retained_iff id (validate_asDict haccepted)).mpr ?_⟩
  rw [hid]
  decide

/-- The dollar of the pattern stands before a newline at the end as well. -/
theorem newline_id_accepted :
    validateRecord (.obj (drillRecord "drill-1\n").asDict) = .ok (drillRecord "drill-1\n") ∧
      ∀ floatRepr, ¬ Retained floatRepr (drillRecord "drill-1\n") := by
  refine ⟨validate_asDict (drill_accepted "drill-1\n" (by simp)), fun floatRepr hretained => ?_⟩
  exact absurd (hretained.1 '\n' (by decide)) (by decide)

end EngineeringIntelligence.Validation
