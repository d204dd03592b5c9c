import EngineeringIntelligence.Framework.JsonReader
import EngineeringIntelligence.PrGuardian.Config

namespace EngineeringIntelligence.PrGuardian

open EngineeringIntelligence.Framework
open EngineeringIntelligence.Framework.FromIsoFormat (parseDate)

/-! `load_effective_config` from the bytes of the file on: when it returns, and what it takes for an
approval. -/

/-! ### Dates -/

/-- An ISO week date, with a `-` behind the year or without. -/
def WeekForm (s : String) : Prop :=
  charAt s.toList 4 = 'W' ∨ charAt s.toList 4 = '-' ∧ charAt s.toList 5 = 'W'

/-- A date in the form `YYYY-MM-DD`. -/
def ExactDate (s : String) : Prop := ∃ day, isoDay s = some day

theorem length_le_bytes (cs : List Char) :
    cs.length ≤ (cs.flatMap fun c => List.replicate c.utf8Size c).length := by
  induction cs with
  | nil => exact Nat.le_refl _
  | cons c cs ih =>
    have hsize := c.utf8Size_pos
    rw [List.flatMap_cons, List.length_append, List.length_replicate, List.length_cons]
    omega

/-- A text of as many bytes as characters is its bytes. -/
theorem bytes_eq_toList {s : String} (h : (FromIsoFormat.bytes s).length = s.length) :
    FromIsoFormat.bytes s = s.toList := by
  have hlist : ∀ cs : List Char,
      (cs.flatMap fun c => List.replicate c.utf8Size c).length = cs.length →
      (cs.flatMap fun c => List.replicate c.utf8Size c) = cs := by
    intro cs
    induction cs with
    | nil => intro; rfl
    | cons c cs ih =>
      intro hlength
      have hsize := c.utf8Size_pos
      have hrest := length_le_bytes cs
      rw [List.flatMap_cons, List.length_append, List.length_replicate, List.length_cons] at hlength
      rw [List.flatMap_cons, ih (by omega), show c.utf8Size = 1 by omega]
      rfl
  exact hlist s.toList (by rw [String.length_toList]; exact h)

/-- Ten characters that `date.fromisoformat` reads are a calendar date or a week date. -/
theorem exactDate_of_fromisoformat {s : String} {day : Nat} (hlength : s.length = 10)
    (h : dateFromisoformat s = some day) (hweek : ¬ WeekForm s) : isoDay s = some day := by
  have hbytes : FromIsoFormat.bytes s = s.toList := by
    apply bytes_eq_toList
    have hle := length_le_bytes s.toList
    rw [String.length_toList] at hle
    rw [dateFromisoformat] at h
    split at h
    · next hlen =>
      simp only [Bool.or_eq_true, decide_eq_true_eq] at hlen
      have hbound : s.length ≤ (FromIsoFormat.bytes s).length := hle
      omega
    · cases h
  have hten : s.toList.length = 10 := by rw [String.length_toList, hlength]
  obtain ⟨hyear, hdash⟩ := not_or.mp hweek
  have hread : parseDate s.toList 10 = some day := by
    rw [dateFromisoformat, hbytes, hten] at h
    exact h
  obtain ⟨y, hy, hread⟩ := Option.bind_eq_some_iff.mp hread
  by_cases hsep : charAt s.toList 4 = '-'
  · have hmonth : charAt s.toList 5 ≠ 'W' := fun hw => hdash ⟨hsep, hw⟩
    simp only [hsep, decide_true, if_true, if_neg hmonth] at hread
    obtain ⟨m, hm, hread⟩ := Option.bind_eq_some_iff.mp hread
    simp only [Bool.true_and, decide_eq_true_eq, ite_not] at hread
    split at hread
    · next hsep' =>
      obtain ⟨d, hd, hread⟩ := Option.bind_eq_some_iff.mp hread
      simp [isoDay, hy, hm, hd, hten, hsep, hsep'] at hread ⊢
      exact hread
    · cases hread
  · simp only [hsep, decide_false, Bool.false_eq_true, if_false, if_neg hyear, Bool.false_and] at hread
    obtain ⟨m, hm, hread⟩ := Option.bind_eq_some_iff.mp hread
    obtain ⟨d, hd, hread⟩ := Option.bind_eq_some_iff.mp hread
    simp at hread

/-- The Monday of the first week of 2026. -/
example : dateField (.str "2026-W01-1") "enforcement.approved_on" = .ok (ordinal 2025 12 29) := rfl

theorem not_exactDate_of_weekForm {s : String} (h : WeekForm s) : ¬ ExactDate s := by
  rintro ⟨day, hday⟩
  obtain ⟨y, hy, hday⟩ := Option.bind_eq_some_iff.mp hday
  obtain ⟨m, hm, hday⟩ := Option.bind_eq_some_iff.mp hday
  obtain ⟨d, hd, hday⟩ := Option.bind_eq_some_iff.mp hday
  have hdigit : (charAt s.toList 5).isDigit = true := by
    by_contra hno
    rw [parseDigits, if_neg hno] at hm
    cases hm
  rcases h with hyear | ⟨-, hmonth⟩
  · simp [hyear] at hday
  · rw [hmonth] at hdigit
    exact absurd hdigit (by decide)

/-! ### What the fields of a configuration say -/

theorem mode_eq_ok {value : Json} {m : ProductMode} (h : mode value = .ok m) : value = .str m.value := by
  cases value with
  | str s =>
    rw [mode] at h
    cases hm : ProductMode.ofValue s with
    | none => simp [hm] at h
    | some m' =>
      have hvalue : m'.value = s := by simpa using List.find?_some hm
      simp only [hm, Except.ok.injEq] at h
      rw [← h, hvalue]
  | null | bool b | int n | float r | arr items | obj fields => cases h

theorem rule_eq_ok {value : Json} {rule : EnforcementRule} (h : enforcementRule value = .ok rule) :
    value = .str rule.value := by
  cases value with
  | str s =>
    rw [enforcementRule] at h
    cases hr : EnforcementRule.ofValue s with
    | none => simp [hr] at h
    | some r =>
      have hvalue : r.value = s := by simpa using List.find?_some hr
      simp only [hr, Except.ok.injEq] at h
      rw [← h, hvalue]
  | null | bool b | int n | float r | arr items | obj fields => cases h

theorem threshold_eq_ok {value : Json} {n : Int} (h : threshold value = .ok n) :
    value = .int n ∧ 0 ≤ n ∧ n ≤ 100 := by
  cases value with
  | int m =>
    rw [threshold, ite_else_error_eq_ok_iff] at h
    obtain ⟨hrange, hm⟩ := h
    cases hm
    exact ⟨rfl, hrange⟩
  | null | bool b | str s | float r | arr items | obj fields => cases h

theorem textField_eq_ok {value : Json} {label s : String} {maximum : Nat}
    (h : textField value label maximum = .ok s) : value = .str s ∧ s ≠ "" := by
  cases value with
  | str t =>
    rw [textField, ite_error_eq_ok_iff] at h
    obtain ⟨hne, ht⟩ := h
    cases ht
    simp only [Bool.or_eq_true, decide_eq_true_eq, not_or] at hne
    exact ⟨rfl, hne.1⟩
  | null | bool b | int n | float r | arr items | obj fields => cases h

theorem exists_mem_of_forall₂ {α β : Type} {r : α → β → Prop} {xs : List α} {ys : List β}
    (h : List.Forall₂ r xs ys) {y : β} (hy : y ∈ ys) : ∃ x ∈ xs, r x y := by
  induction h with
  | nil => simp at hy
  | cons hxy _ ih =>
    rcases List.mem_cons.mp hy with rfl | hy
    · exact ⟨_, List.mem_cons_self, hxy⟩
    · obtain ⟨x, hx, hr⟩ := ih hy
      exact ⟨x, List.mem_cons_of_mem _ hx, hr⟩

theorem identifier_eq_ok {value : Json} {label id : String} (h : identifier label value = .ok id) :
    value = .str id := by
  cases value with
  | str s =>
    rw [identifier, ite_error_eq_ok_iff] at h
    obtain ⟨-, hs⟩ := h
    cases hs
    rfl
  | null | bool b | int n | float r | arr items | obj fields => cases h

theorem identifiers_eq_ok {value : Json} {label : String} {ids : List String}
    (h : identifiers value label = .ok ids) :
    ∃ entries, value = .arr entries ∧ ∀ id ∈ ids, .str id ∈ entries := by
  cases value with
  | arr entries =>
    cases entries with
    | nil => cases h
    | cons entry entries =>
      refine ⟨entry :: entries, rfl, fun id hid => ?_⟩
      obtain ⟨items, hitems, h⟩ := bind_eq_ok_iff.mp h
      rw [ite_else_error_eq_ok_iff] at h
      obtain ⟨-, hsorted⟩ := h
      cases hsorted
      obtain ⟨value, hvalue, hread⟩ :=
        exists_mem_of_forall₂ (mapM_eq_ok.mp hitems) ((List.mem_insertionSort _).mp hid)
      rw [identifier_eq_ok hread] at hvalue
      exact hvalue
  | null | bool b | int n | str s | float r | obj fields => cases h

theorem dateField_eq_ok {value : Json} {label : String} {day : Nat} (h : dateField value label = .ok day) :
    ∃ s, value = .str s ∧ s.length = 10 ∧ dateFromisoformat s = some day := by
  cases value with
  | str s =>
    rw [dateField, ite_else_error_eq_ok_iff] at h
    obtain ⟨hlength, hday⟩ := h
    cases hd : dateFromisoformat s with
    | none => simp [hd] at hday
    | some d =>
      simp only [hd, Except.ok.injEq] at hday
      exact ⟨s, rfl, hlength, hday ▸ hd⟩
  | null | bool b | int n | float r | arr items | obj fields => cases h

theorem create_eq_ok {repository : String} {services owners sources : List String} {version : String}
    {m : ProductMode} {policy : Option EnforcementPolicy} {config : RepositoryConfig}
    (h : RepositoryConfig.create repository services owners sources version m policy = .ok config) :
    required repository "repository" 200 = .ok () ∧ isRepositoryName repository = true ∧
      config.mode = m ∧ (m = .enforce ↔ policy.isSome) := by
  simp only [RepositoryConfig.create, bind_eq_ok_iff, ite_else_error_eq_ok_iff] at h
  obtain ⟨⟨⟩, hrequired, hname, -, -, -, -, -, -, -, -, h⟩ := h
  refine ⟨hrequired, hname, ?_⟩
  cases policy with
  | none =>
    simp only at h
    split at h
    · cases h
    · next hm =>
      cases h
      exact ⟨rfl, by simp [hm]⟩
  | some p =>
    simp only at h
    split at h
    · next hm =>
      split at h
      · split at h
        · cases h
          exact ⟨rfl, by simp [hm]⟩
        · cases h
      · cases h
    · cases h

/-- A name that a configuration may carry. -/
def Acceptable (repository : String) : Prop :=
  required repository "repository" 200 = .ok () ∧ isRepositoryName repository = true

theorem defaultShadowConfig_eq_ok {repository : String} (h : Acceptable repository) :
    ∃ config, defaultShadowConfig repository = .ok config ∧ config.mode = .shadow := by
  obtain ⟨hrequired, hname⟩ := h
  have hundeclared : sortedUnique [undeclared] "service_ids" = .ok () ∧
      sortedUnique [undeclared] "owner_ids" = .ok () ∧
      sortedUnique [undeclared] "evidence_sources" = .ok () ∧
      required undeclared "policy_version" 120 = .ok () := by decide
  obtain ⟨hs, ho, he, hv⟩ := hundeclared
  simp only [defaultShadowConfig, RepositoryConfig.create, hrequired, hname, hs, ho, he, hv, ok_bind, if_true]
  exact ⟨_, rfl, rfl⟩

/-- An approval, field by field: one of the declared owners signs a known rule, a threshold, and
two dates in order. -/
structure Approves (payload : Json) (fields approval : List (String × Json)) (owners : List Json)
    (rule : EnforcementRule) (limit : Int) (approvedBy approvedOn expiresOn : String) (first last : Nat) :
    Prop where
  object : payload = .obj fields
  mode : Json.get fields "mode" = .str "enforce"
  declared : Json.get fields "service_owners" = .arr owners
  section_ : Json.get fields "enforcement" = .obj approval
  rule : Json.get approval "rule" = .str rule.value
  threshold : Json.get approval "threshold" = .int limit ∧ 0 ≤ limit ∧ limit ≤ 100
  signature : Json.get approval "approved_by" = .str approvedBy ∧ approvedBy ≠ ""
  owner : .str approvedBy ∈ owners
  opens : Json.get approval "approved_on" = .str approvedOn ∧ isoDay approvedOn = some first
  closes : Json.get approval "expires_on" = .str expiresOn ∧ isoDay expiresOn = some last
  ordered : first ≤ last

/-- The file carries a complete approval, with dates written `YYYY-MM-DD`. -/
def CompleteApproval (payload : Json) : Prop :=
  ∃ fields approval owners rule limit approvedBy approvedOn expiresOn first last,
    Approves payload fields approval owners rule limit approvedBy approvedOn expiresOn first last

/-- One of the two dates of the approval is in the week form. -/
def WeekDated (payload : Json) : Prop :=
  ∃ fields approval s, payload = .obj fields ∧ Json.get fields "enforcement" = .obj approval ∧
    (Json.get approval "approved_on" = .str s ∨ Json.get approval "expires_on" = .str s) ∧ WeekForm s

theorem CompleteApproval.not_weekDated {payload : Json} (h : CompleteApproval payload) :
    ¬ WeekDated payload := by
  rintro ⟨fields, approval, s, hobject, hsection, hdate, hweek⟩
  obtain ⟨fields', approval', owners, rule, limit, approvedBy, approvedOn, expiresOn, first, last, happroves⟩ := h
  obtain rfl : fields = fields' := Json.obj.inj (hobject.symm.trans happroves.object)
  obtain rfl : approval = approval' := Json.obj.inj (hsection.symm.trans happroves.section_)
  rcases hdate with hdate | hdate
  · obtain rfl : s = approvedOn := Json.str.inj (hdate.symm.trans happroves.opens.1)
    exact not_exactDate_of_weekForm hweek ⟨first, happroves.opens.2⟩
  · obtain rfl : s = expiresOn := Json.str.inj (hdate.symm.trans happroves.closes.1)
    exact not_exactDate_of_weekForm hweek ⟨last, happroves.closes.2⟩

/-- What is accepted as an approval: the fields of one, but for the form of its dates. -/
theorem enforcement_eq_ok {value : Json} {today : Nat} {owners : List String} {strict : Bool}
    {policy : EnforcementPolicy} (h : enforcement value today owners strict = .ok policy) :
    ∃ approval rule limit approvedBy first last, value = .obj approval ∧
      enforcementRule (Json.get approval "rule") = .ok rule ∧
      threshold (Json.get approval "threshold") = .ok limit ∧
      textField (Json.get approval "approved_by") "enforcement.approved_by" 200 = .ok approvedBy ∧
      approvedBy ∈ owners ∧
      dateField (Json.get approval "approved_on") "enforcement.approved_on" = .ok first ∧
      dateField (Json.get approval "expires_on") "enforcement.expires_on" = .ok last ∧ first ≤ last := by
  cases value with
  | obj approval =>
    simp only [enforcement, bind_eq_ok_iff, ite_else_error_eq_ok_iff, ite_error_eq_ok_iff] at h
    obtain ⟨-, -, rule, hrule, limit, hlimit, approvedBy, hby, howner, first, hfirst, last, hlast, hord, -⟩ := h
    exact ⟨approval, rule, limit, approvedBy, first, last, rfl, hrule, hlimit, hby, howner, hfirst, hlast,
      Nat.le_of_not_lt hord⟩
  | null | bool b | int n | str s | float r | arr items => cases h

theorem enforcementSection_obj {approval : List (String × Json)} {declared : ProductMode} {today : Nat}
    {owners : List String} {strict : Bool} {policy : Option EnforcementPolicy}
    (h : enforcementSection (.obj approval) declared today owners strict = .ok policy) :
    declared = .enforce := by
  simp only [enforcementSection, ite_else_error_eq_ok_iff] at h
  exact h.1

theorem enforcementSection_some {value : Json} {declared : ProductMode} {today : Nat}
    {owners : List String} {strict : Bool} {policy : EnforcementPolicy}
    (h : enforcementSection value declared today owners strict = .ok (some policy)) :
    enforcement value today owners strict = .ok policy := by
  have hsome : ∀ value, (if declared = .enforce then (enforcement value today owners strict).map some
      else .error "enforcement is allowed only when mode is enforce") = .ok (some policy) →
      enforcement value today owners strict = .ok policy := by
    intro value h
    rw [ite_else_error_eq_ok_iff] at h
    cases hpolicy : enforcement value today owners strict with
    | error e =>
      rw [hpolicy] at h
      cases h.2
    | ok p =>
      rw [hpolicy] at h
      cases h.2
      rfl
  cases value with
  | null =>
    rw [enforcementSection] at h
    split at h <;> cases h
  | bool b => exact hsome _ h
  | int n => exact hsome _ h
  | float r => exact hsome _ h
  | str s => exact hsome _ h
  | arr items => exact hsome _ h
  | obj fields => exact hsome _ h

/-- What an accepted file says: its mode, and in enforce mode an approval. -/
theorem parse_spec {payload : Json} {repository : String} {today : Nat} {strict : Bool}
    {config : RepositoryConfig} (h : parseRepositoryConfig payload repository today strict = .ok config) :
    Acceptable repository ∧
      (∃ fields, payload = .obj fields ∧ Json.get fields "mode" = .str config.mode.value) ∧
      (config.mode = .enforce → ¬ WeekDated payload → CompleteApproval payload) ∧
      (WeekDated payload → config.mode = .enforce) := by
  cases payload with
  | obj fields =>
    simp only [parseRepositoryConfig, bind_eq_ok_iff] at h
    obtain ⟨-, -, -, -, declared, hdeclared, services, -, owners, howners, sources, -, version, -, policy,
      hpolicy, hcreate⟩ := h
    obtain ⟨hrequired, hname, hmode, hopted⟩ := create_eq_ok hcreate
    have hmodeField : Json.get fields "mode" = .str config.mode.value := by
      rw [hmode]
      exact mode_eq_ok hdeclared
    refine ⟨⟨hrequired, hname⟩, ⟨fields, rfl, hmodeField⟩, ?_, ?_⟩
    · intro henforce hweek
      obtain ⟨p, rfl⟩ := Option.isSome_iff_exists.mp (hopted.mp (hmode ▸ henforce))
      obtain ⟨approval, rule, limit, approvedBy, first, last, hsection, hrule, hlimit, hby, howner, hfirst,
        hlast, hord⟩ := enforcement_eq_ok (enforcementSection_some hpolicy)
      obtain ⟨entries, hentries, hmem⟩ := identifiers_eq_ok howners
      obtain ⟨approvedOn, happrovedOn, hlength, hday⟩ := dateField_eq_ok hfirst
      obtain ⟨expiresOn, hexpiresOn, hlength', hday'⟩ := dateField_eq_ok hlast
      have hopens : ¬ WeekForm approvedOn := fun hw =>
        hweek ⟨fields, approval, approvedOn, rfl, hsection, .inl happrovedOn, hw⟩
      have hcloses : ¬ WeekForm expiresOn := fun hw =>
        hweek ⟨fields, approval, expiresOn, rfl, hsection, .inr hexpiresOn, hw⟩
      exact ⟨fields, approval, entries, rule, limit, approvedBy, approvedOn, expiresOn, first, last,
        { object := rfl
          mode := by rw [hmodeField, henforce]; rfl
          declared := hentries
          section_ := hsection
          rule := rule_eq_ok hrule
          threshold := threshold_eq_ok hlimit
          signature := textField_eq_ok hby
          owner := hmem approvedBy howner
          opens := ⟨happrovedOn, exactDate_of_fromisoformat hlength hday hopens⟩
          closes := ⟨hexpiresOn, exactDate_of_fromisoformat hlength' hday' hcloses⟩
          ordered := hord }⟩
    · rintro ⟨fields', approval, s, hobject, hsection, -, -⟩
      obtain rfl := Json.obj.inj hobject
      rw [hsection] at hpolicy
      rw [hmode]
      exact enforcementSection_obj hpolicy
  | null | bool b | int n | str s | float r | arr items => cases h

/-! ### From the bytes of the file -/

/-- What a checkout holds where the file should be. -/
inductive Checkout where
  | missing
  /-- `is_file` raises an `OSError`: a directory on the way may not be searched. -/
  | refused (error : String)
  /-- `read_text` raises an `OSError`. -/
  | unreadable (error : String)
  | content (bytes : ByteArray)

section
variable (floatRepr : String → String) (tooDeep : String → Bool)

/-- How the loader finds the file; `tooDeep` says of which texts the decoder exceeds the recursion
limit. A text with a lone surrogate in a string has no data here. The newlines that reading a text
file translates are blanks to the decoder either way. -/
def Checkout.file : Checkout → Option ConfigFile
  | missing => some .absent
  | refused e => some (.undecodable e)
  | unreadable e => some (.unreadable e)
  | content bytes =>
    match String.fromUTF8? bytes with
    | none => some (.undecodable "UnicodeDecodeError")
    | some text =>
      if tooDeep text then some (.undecodable "RecursionError")
      else
        match Json.loads floatRepr text with
        | .ok payload => some (.json payload)
        | .error .digits => some (.undecodable "ValueError")
        | .error .surrogate => none
        | .error _ => some (.invalidJson "JSONDecodeError")

/-- The file can be looked for, and its bytes are UTF-8 text that is not nested too deeply and holds
no integer with more digits than `int` converts. -/
def Checkout.Digestible : Checkout → Prop
  | missing | unreadable _ => True
  | refused _ => False
  | content bytes => ∃ text, String.fromUTF8? bytes = some text ∧ tooDeep text = false ∧
      Json.loads floatRepr text ≠ .error .digits

theorem Checkout.file_digestible {c : Checkout} {file : ConfigFile}
    (h : c.file floatRepr tooDeep = some file) :
    c.Digestible floatRepr tooDeep ↔ ∀ e, file ≠ .undecodable e := by
  cases c with
  | missing => cases h; simp [Digestible]
  | refused e => cases h; simp [Digestible]
  | unreadable e => cases h; simp [Digestible]
  | content bytes =>
    rw [Checkout.file] at h
    cases hutf8 : String.fromUTF8? bytes with
    | none =>
      rw [hutf8] at h
      cases h
      simp [Digestible, hutf8]
    | some text =>
      simp only [hutf8] at h
      simp only [Digestible, hutf8, Option.some.injEq, exists_eq_left']
      cases hdeep : tooDeep text with
      | true =>
        rw [hdeep] at h
        cases h
        simp
      | false =>
        simp only [hdeep, Bool.false_eq_true, if_false] at h
        cases hloads : Json.loads floatRepr text with
        | ok payload =>
          rw [hloads] at h
          cases h
          simp
        | error x =>
          rw [hloads] at h
          cases x <;> cases h <;> simp

end

/-- The promise: a configuration comes back; it enforces only on a complete approval; and where the
file is no valid configuration it is the one of a repository that said nothing. -/
def FailSafe (file : ConfigFile) (repository : String) (today : Nat) : Prop :=
  ∃ config reason, loadEffectiveConfig file repository today = .ok (config, reason) ∧
    (config.mode = .enforce → ∃ payload, file = .json payload ∧
      (parseRepositoryConfig payload repository today false).isOk ∧ CompleteApproval payload) ∧
    (config.mode ≠ .enforce → config.mode = .shadow ∨ ∃ fields, file = .json (.obj fields) ∧
      (parseRepositoryConfig (.obj fields) repository today false).isOk ∧
      Json.get fields "mode" = .str ProductMode.advisory.value)

/-- An accepted file has a date of its approval in the week form. -/
def WeekApproved (file : ConfigFile) (repository : String) (today : Nat) : Prop :=
  ∃ payload, file = .json payload ∧ (parseRepositoryConfig payload repository today false).isOk ∧
    WeekDated payload

theorem loadEffectiveConfig_contract {file : ConfigFile} {repository message : String} {today : Nat}
    (h : loadRepositoryConfig file repository today false = .error (.contract message))
    (hname : Acceptable repository) : FailSafe file repository today := by
  obtain ⟨config, hdefault, hmode⟩ := defaultShadowConfig_eq_ok hname
  refine ⟨config, some message, ?_, ?_, fun _ => .inl hmode⟩
  · rw [loadEffectiveConfig, h]
    simp only [hdefault]
    rfl
  · rw [hmode]
    nofun

theorem failSafe_json {payload : Json} {repository : String} {today : Nat} (hname : Acceptable repository) :
    FailSafe (.json payload) repository today ↔ ¬ WeekApproved (.json payload) repository today := by
  cases hparse : parseRepositoryConfig payload repository today false with
  | error message =>
    have hload : loadRepositoryConfig (.json payload) repository today false = .error (.contract message) := by
      rw [loadRepositoryConfig, hparse]
      rfl
    refine iff_of_true (loadEffectiveConfig_contract hload hname) ?_
    rintro ⟨payload', hpayload, hok, -⟩
    obtain rfl := ConfigFile.json.inj hpayload
    rw [hparse] at hok
    cases hok
  | ok config =>
    have hload : loadEffectiveConfig (.json payload) repository today = .ok (config, none) := by
      rw [loadEffectiveConfig, loadRepositoryConfig, hparse]
      rfl
    have hok : (parseRepositoryConfig payload repository today false).isOk = true := by
      rw [hparse]
      rfl
    obtain ⟨-, ⟨fields, rfl, hmode⟩, happroval, henforce⟩ := parse_spec hparse
    constructor
    · rintro ⟨config', reason, hload', hcomplete, -⟩ ⟨payload', hpayload, -, hweek⟩
      obtain rfl := ConfigFile.json.inj hpayload
      rw [hload] at hload'
      cases hload'
      obtain ⟨payload'', hpayload', -, happroved⟩ := hcomplete (henforce hweek)
      obtain rfl := ConfigFile.json.inj hpayload'
      exact happroved.not_weekDated hweek
    · intro hexact
      have hplain : ¬ WeekDated (.obj fields) := fun hweek => hexact ⟨_, rfl, hok, hweek⟩
      refine ⟨config, none, hload, fun hmode => ⟨_, rfl, hok, happroval hmode hplain⟩, fun hother => ?_⟩
      cases hm : config.mode with
      | shadow => exact .inl rfl
      | advisory => exact .inr ⟨fields, rfl, hok, hm ▸ hmode⟩
      | enforce => exact absurd hm hother

theorem acceptable_of_failSafe {file : ConfigFile} {repository : String} {today : Nat}
    (h : FailSafe file repository today) : Acceptable repository := by
  have hdefault : ∀ config, defaultShadowConfig repository = .ok config → Acceptable repository := by
    intro config hconfig
    obtain ⟨hrequired, hname, -⟩ := create_eq_ok hconfig
    exact ⟨hrequired, hname⟩
  obtain ⟨config, reason, hload, -⟩ := h
  unfold loadEffectiveConfig at hload
  split at hload
  · next config' hconfig =>
    cases file with
    | absent => exact hdefault _ (mapError_eq_ok hconfig)
    | json payload => exact (parse_spec (mapError_eq_ok hconfig)).1
    | unreadable e | invalidJson e | undecodable e => cases hconfig
  · cases hd : defaultShadowConfig repository with
    | ok config' => exact hdefault config' hd
    | error e =>
      rw [hd] at hload
      cases hload
  · cases hload

/-- The loader keeps its promise exactly where the bytes are text the decoder does not give up on,
and no accepted approval is dated by the week. -/
theorem fail_safe_iff (floatRepr : String → String) (tooDeep : String → Bool) {c : Checkout}
    {file : ConfigFile} (hfile : c.file floatRepr tooDeep = some file) (repository : String) (today : Nat) :
    FailSafe file repository today ↔ Acceptable repository ∧ c.Digestible floatRepr tooDeep ∧
      ¬ WeekApproved file repository today := by
  rw [c.file_digestible floatRepr tooDeep hfile]
  by_cases hname : Acceptable repository
  · simp only [hname, true_and]
    have hother : (∀ payload, file ≠ .json payload) → ¬ WeekApproved file repository today :=
      fun hne ⟨payload, hpayload, _⟩ => hne payload hpayload
    cases file with
    | absent =>
      obtain ⟨config, hdefault, hmode⟩ := defaultShadowConfig_eq_ok hname
      refine iff_of_true ⟨config, none, ?_, ?_, fun _ => .inl hmode⟩ ⟨by simp, hother (by simp)⟩
      · rw [loadEffectiveConfig, loadRepositoryConfig, hdefault]
        rfl
      · rw [hmode]
        nofun
    | unreadable e =>
      exact iff_of_true (loadEffectiveConfig_contract rfl hname) ⟨by simp, hother (by simp)⟩
    | invalidJson e =>
      exact iff_of_true (loadEffectiveConfig_contract rfl hname) ⟨by simp, hother (by simp)⟩
    | undecodable e =>
      refine iff_of_false ?_ (by simp)
      rintro ⟨config, reason, hload, -⟩
      cases hload
    | json payload =>
      rw [failSafe_json hname]
      exact ⟨fun h => ⟨by simp, h⟩, fun h => h.2⟩
  · exact iff_of_false (fun h => hname (acceptable_of_failSafe h)) fun h => hname h.1

/-- Text that is no JSON is one of the cases the loader is made for. -/
theorem broken_file_in_shadow :
    FailSafe (.invalidJson "JSONDecodeError") "acme/payments" (ordinal 2026 6 1) := by
  have hutf8 : String.fromUTF8? "\x7bnot".toUTF8 = some "\x7bnot" := by rfl
  have hloads : Json.loads id "\x7bnot" = .error .decode := by rfl
  have hfile : (Checkout.content "\x7bnot".toUTF8).file id (fun _ => false) =
      some (.invalidJson "JSONDecodeError") := by
    rw [Checkout.file, hutf8]
    simp [hloads]
  apply (fail_safe_iff id (fun _ => false) hfile "acme/payments" (ordinal 2026 6 1)).mpr
  exact ⟨⟨by decide, by decide⟩, ⟨"\x7bnot", hutf8, rfl, by rw [hloads]; nofun⟩,
    fun ⟨_, h, _⟩ => nomatch h⟩

/-- A byte that is no UTF-8 is raised to the caller. -/
theorem stray_byte_raises :
    (Checkout.content ⟨#[0xff]⟩).file id (fun _ => false) = some (.undecodable "UnicodeDecodeError") ∧
      ¬ FailSafe (.undecodable "UnicodeDecodeError") "acme/payments" (ordinal 2026 6 1) := by
  constructor
  · rfl
  · rintro ⟨config, reason, hload, -⟩
    cases hload

end EngineeringIntelligence.PrGuardian
