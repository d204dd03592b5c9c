import EngineeringIntelligence.Framework.Fallible
import EngineeringIntelligence.PrGuardian.Contracts

namespace EngineeringIntelligence.PrGuardian

open EngineeringIntelligence.Framework

/-- What a checkout holds at `.eip/pr-guardian.json`. -/
inductive ConfigFile where
  | absent
  | unreadable (error : String)
  | invalidJson (error : String)
  /-- bytes whose reading raises neither an `OSError` nor a `JSONDecodeError` -/
  | undecodable (error : String)
  | json (payload : Json)

/-- A `ProductContractError`, or an exception of another class. -/
inductive ConfigError where
  | contract (message : String)
  | other (message : String)
  deriving DecidableEq, Repr

def configRelativePath : String := ".eip/pr-guardian.json"

def undeclared : String := "undeclared"

def defaultEvidenceSources : List String := ["github-pull-request"]

def topLevelFields : List String := ["repository", "mode", "service_ids", "service_owners",
  "evidence_sources", "policy_version", "enforcement"]

def enforcementFields : List String := ["rule", "threshold", "approved_by", "approved_on",
  "expires_on", "waivers"]

def waiverFields : List String := ["path_glob", "reason", "owner", "expires_on"]

/-- The mode a repository has when it has told us nothing at all. -/
def defaultShadowConfig (repository : String) : Except String RepositoryConfig :=
  RepositoryConfig.create repository [undeclared] [undeclared] [undeclared] undeclared .shadow none

/-- The first key outside `known` is an error. -/
def recognizedKeys (fields : List (String × Json)) (known : List String)
    (message : String → String) : Except String Unit :=
  match fields.find? (fun f => !known.contains f.1) with
  | some f => .error (message f.1)
  | none => .ok ()

/-- A text field of at most `maximum` characters. -/
def textField (value : Json) (label : String) (maximum : Nat) : Except String String :=
  match value with
  | .str s => if s = "" || maximum < s.length then .error (label ++ " is invalid") else .ok s
  | _ => .error (label ++ " is invalid")

/-- `_mode`. -/
def mode : Json → Except String ProductMode
  | .str s =>
    match ProductMode.ofValue s with
    | some m => .ok m
    | none => .error "mode is invalid; expected one of shadow, advisory, enforce"
  | _ => .error "mode is invalid"

def identifier (label : String) : Json → Except String String
  | .str s =>
    if s = "" || 160 < s.length || s.toList.contains '\n' then
      .error (label ++ " contains an invalid identifier")
    else .ok s
  | _ => .error (label ++ " contains an invalid identifier")

/-- `_identifiers`: any order, no duplicates. -/
def identifiers (value : Json) (label : String) : Except String (List String) :=
  match value with
  | .arr (entry :: entries) => do
    let items ← (entry :: entries).mapM (identifier label)
    if items.Nodup then .ok (items.insertionSort (· ≤ ·))
    else .error (label ++ " contains a duplicate identifier")
  | _ => .error (label ++ " must be a non-empty list of identifiers")

/-- `_date_field`. -/
def dateField (value : Json) (label : String) : Except String Nat :=
  match value with
  | .str s =>
    if s.length = 10 then
      match dateFromisoformat s with
      | some day => .ok day
      | none => .error (label ++ " must be an ISO date (YYYY-MM-DD)")
    else .error (label ++ " must be an ISO date (YYYY-MM-DD)")
  | _ => .error (label ++ " must be an ISO date (YYYY-MM-DD)")

/-- `_waiver`. -/
def waiver (ownerIds : List String) (index : Nat) (value : Json) :
    Except String EnforcementWaiver :=
  let label := "waivers[" ++ toString index ++ "]"
  match value with
  | .obj fields => do
    recognizedKeys fields waiverFields (fun k => label ++ "." ++ k ++ " is not a recognized field")
    let pathGlob ← textField (Json.get fields "path_glob") (label ++ ".path_glob") 200
    let reason ← textField (Json.get fields "reason") (label ++ ".reason") 500
    let owner ← textField (Json.get fields "owner") (label ++ ".owner") 200
    if owner ∈ ownerIds then
      let expiresOn ← dateField (Json.get fields "expires_on") (label ++ ".expires_on")
      EnforcementWaiver.create pathGlob reason owner (dateIsoformat expiresOn)
    else .error (label ++ ".owner must name one of the declared service_owners")
  | _ => .error (label ++ " must be an object")

def waivers (ownerIds : List String) : Json → Except String (List EnforcementWaiver)
  | .null => .ok []
  | .arr entries =>
    if 64 < entries.length then .error "enforcement.waivers is too large"
    else entries.zipIdx.mapM (fun e => waiver ownerIds e.2 e.1)
  | _ => .error "enforcement.waivers must be a list"

def enforcementRule : Json → Except String EnforcementRule
  | .str s =>
    match EnforcementRule.ofValue s with
    | some rule => .ok rule
    | none => .error ("enforcement.rule is invalid; expected one of " ++
        "iac-change-without-test-evidence-at-high-risk, " ++
        "security-boundary-change-without-test-evidence-at-high-risk")
  | _ => .error "enforcement.rule is invalid"

def threshold : Json → Except String Int
  | .int n =>
    if 0 ≤ n ∧ n ≤ 100 then .ok n
    else .error "enforcement.threshold must be an integer between 0 and 100"
  | _ => .error "enforcement.threshold must be an integer between 0 and 100"

/-- `_enforcement`. -/
def enforcement (value : Json) (today : Nat) (ownerIds : List String) (requireUnexpired : Bool) :
    Except String EnforcementPolicy :=
  match value with
  | .obj fields => do
    recognizedKeys fields enforcementFields
      (fun k => "enforcement." ++ k ++ " is not a recognized field")
    let rule ← enforcementRule (Json.get fields "rule")
    let limit ← threshold (Json.get fields "threshold")
    let approvedBy ← textField (Json.get fields "approved_by") "enforcement.approved_by" 200
    if approvedBy ∈ ownerIds then
      let approvedOn ← dateField (Json.get fields "approved_on") "enforcement.approved_on"
      let expiresOn ← dateField (Json.get fields "expires_on") "enforcement.expires_on"
      if expiresOn < approvedOn then
        .error "enforcement.expires_on precedes enforcement.approved_on"
      else if requireUnexpired && expiresOn < today then
        .error ("enforcement.expires_on (" ++ dateIsoformat expiresOn ++
          ") has passed; a service owner must re-approve enforcement")
      else
        let waived ← waivers ownerIds (Json.get fields "waivers")
        EnforcementPolicy.create rule limit approvedBy (dateIsoformat approvedOn)
          (dateIsoformat expiresOn) waived
    else .error "enforcement.approved_by must name one of the declared service_owners"
  | _ => .error "enforcement must be an object"

/-- A declared repository must be the one being evaluated. -/
def declaredRepository (value : Json) (repository : String) : Except String Unit :=
  match value with
  | .null => .ok ()
  | .str s =>
    if s = repository then .ok ()
    else .error "repository does not match the repository being evaluated"
  | _ => .error "repository does not match the repository being evaluated"

def evidenceSources : Json → Except String (List String)
  | .null => .ok defaultEvidenceSources
  | value => identifiers value "evidence_sources"

/-- The approval section is present exactly in enforce mode. -/
def enforcementSection (value : Json) (declared : ProductMode) (today : Nat)
    (ownerIds : List String) (requireUnexpired : Bool) :
    Except String (Option EnforcementPolicy) :=
  match value with
  | .null =>
    if declared = .enforce then .error "enforcement is required when mode is enforce"
    else .ok none
  | value =>
    if declared = .enforce then (enforcement value today ownerIds requireUnexpired).map some
    else .error "enforcement is allowed only when mode is enforce"

def parseRepositoryConfig (payload : Json) (repository : String) (today : Nat)
    (requireUnexpired : Bool) : Except String RepositoryConfig :=
  match payload with
  | .obj fields => do
    recognizedKeys fields topLevelFields (· ++ " is not a recognized configuration field")
    declaredRepository (Json.get fields "repository") repository
    let declared ← mode (Json.get fields "mode")
    let serviceIds ← identifiers (Json.get fields "service_ids") "service_ids"
    let ownerIds ← identifiers (Json.get fields "service_owners") "service_owners"
    let sources ← evidenceSources (Json.get fields "evidence_sources")
    let policyVersion ← textField (Json.get fields "policy_version") "policy_version" 120
    let policy ← enforcementSection (Json.get fields "enforcement") declared today ownerIds
      requireUnexpired
    RepositoryConfig.create repository serviceIds ownerIds sources policyVersion declared policy
  | _ => .error "pr-guardian configuration must be a JSON object"

/-- A missing file means shadow. -/
def loadRepositoryConfig (file : ConfigFile) (repository : String) (today : Nat)
    (requireUnexpired : Bool) : Except ConfigError RepositoryConfig :=
  match file with
  | .absent => (defaultShadowConfig repository).mapError .contract
  | .unreadable e => .error (.contract (configRelativePath ++ " could not be read: " ++ e))
  | .invalidJson e => .error (.contract (configRelativePath ++ " is not valid JSON: " ++ e))
  | .undecodable e => .error (.other e)
  | .json payload =>
    (parseRepositoryConfig payload repository today requireUnexpired).mapError .contract

/-- The configuration a runtime works with: an invalid file degrades to shadow, with the
reason; an approval that has passed loads as written. -/
def loadEffectiveConfig (file : ConfigFile) (repository : String) (today : Nat) :
    Except String (RepositoryConfig × Option String) :=
  match loadRepositoryConfig file repository today false with
  | .ok config => .ok (config, none)
  | .error (.contract message) =>
    (defaultShadowConfig repository).map (fun config => (config, some message))
  | .error (.other message) => .error message

theorem create_repository {repository : String} {services owners sources : List String}
    {version : String} {mode : ProductMode} {policy : Option EnforcementPolicy}
    {config : RepositoryConfig}
    (h : RepositoryConfig.create repository services owners sources version mode policy =
      .ok config) : config.repository = repository := by
  simp only [RepositoryConfig.create, bind_eq_ok_iff, ite_else_error_eq_ok_iff] at h
  obtain ⟨-, -, -, -, -, -, -, -, -, -, -, h⟩ := h
  cases policy with
  | none =>
    simp only at h
    split at h
    · cases h
    · cases h
      rfl
  | some p =>
    simp only at h
    split at h
    · split at h
      · split at h
        · cases h
          rfl
        · cases h
      · cases h
    · cases h

theorem parseRepositoryConfig_repository {payload : Json} {repository : String} {today : Nat}
    {strict : Bool} {config : RepositoryConfig}
    (h : parseRepositoryConfig payload repository today strict = .ok config) :
    config.repository = repository := by
  cases payload with
  | obj fields =>
    simp only [parseRepositoryConfig, bind_eq_ok_iff] at h
    obtain ⟨_, -, _, -, _, -, _, -, _, -, _, -, _, -, _, -, h⟩ := h
    exact create_repository h
  | null => cases h
  | bool b => cases h
  | int n => cases h
  | float r => cases h
  | str s => cases h
  | arr items => cases h

/-- A configuration always names the repository it was loaded for. -/
theorem loadEffectiveConfig_repository {file : ConfigFile} {repository : String} {today : Nat}
    {config : RepositoryConfig} {configError : Option String}
    (h : loadEffectiveConfig file repository today = .ok (config, configError)) :
    config.repository = repository := by
  have hload : ∀ c, loadRepositoryConfig file repository today false = .ok c →
      c.repository = repository := by
    intro c hc
    cases file with
    | absent => exact create_repository (mapError_eq_ok hc)
    | unreadable e => cases hc
    | invalidJson e => cases hc
    | undecodable e => cases hc
    | json payload => exact parseRepositoryConfig_repository (mapError_eq_ok hc)
  unfold loadEffectiveConfig at h
  split at h
  · next c hc =>
    cases h
    exact hload _ hc
  · next message _ =>
    cases hd : defaultShadowConfig repository with
    | error e =>
      rw [hd] at h
      cases h
    | ok c =>
      rw [hd] at h
      cases h
      exact create_repository hd
  · cases h

end EngineeringIntelligence.PrGuardian
