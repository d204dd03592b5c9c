import EngineeringIntelligence.Framework.Json
import EngineeringIntelligence.Framework.Text
import EngineeringIntelligence.Framework.Timestamp

namespace EngineeringIntelligence.PrGuardian

open EngineeringIntelligence.Framework

inductive ProductMode where
  | shadow
  | advisory
  | enforce
  deriving DecidableEq, Repr

def ProductMode.value : ProductMode → String
  | shadow => "shadow"
  | advisory => "advisory"
  | enforce => "enforce"

def ProductMode.ofValue (s : String) : Option ProductMode :=
  [shadow, advisory, enforce].find? (·.value = s)

/-- The only conditions that may ever fail a merge check. -/
inductive EnforcementRule where
  | iacChangeWithoutTestEvidence
  | securityChangeWithoutTestEvidence
  deriving DecidableEq, Repr

def EnforcementRule.value : EnforcementRule → String
  | iacChangeWithoutTestEvidence => "iac-change-without-test-evidence-at-high-risk"
  | securityChangeWithoutTestEvidence =>
    "security-boundary-change-without-test-evidence-at-high-risk"

def EnforcementRule.ofValue (s : String) : Option EnforcementRule :=
  [iacChangeWithoutTestEvidence, securityChangeWithoutTestEvidence].find? (·.value = s)

theorem EnforcementRule.value_inj {rule rule' : EnforcementRule} (h : rule.value = rule'.value) :
    rule = rule' := by
  cases rule <;> cases rule' <;> first | rfl | (revert h; decide)

def isNameChar (c : Char) : Bool := c.isAlphanum || c = '_' || c = '.' || c = '-'

/-- `[A-Za-z0-9_.-]+/[A-Za-z0-9_.-]+`. -/
def isRepositoryName (s : String) : Bool :=
  let owner := s.toList.takeWhile isNameChar
  match s.toList.dropWhile isNameChar with
  | '/' :: name => !owner.isEmpty && !name.isEmpty && name.all isNameChar
  | _ => false

def isHexDigit (c : Char) : Bool :=
  c.isDigit || ('a' ≤ c && c ≤ 'f') || ('A' ≤ c && c ≤ 'F')

/-- `[0-9a-fA-F]{4,64}`. -/
def isSha (s : String) : Bool := 4 ≤ s.length && s.length ≤ 64 && s.toList.all isHexDigit

/-- `_required`; the error is its `ProductContractError`. -/
def required (value label : String) (maximum : Nat) : Except String Unit :=
  if value = "" || maximum < value.length || value.toList.contains '\n' then
    .error (label ++ " is invalid")
  else .ok ()

/-- A date text that has been read; the policy keeps both. -/
structure IsoDate where
  text : String
  day : Nat
  reads : isoDay text = some day
  deriving DecidableEq

/-- `_iso_date`. -/
def isoDate (value label : String) : Except String IsoDate := do
  required value label 10
  match h : isoDay value with
  | some day => .ok ⟨value, day, h⟩
  | none => .error (label ++ " must be an ISO date (YYYY-MM-DD)")

structure EnforcementWaiver where
  pathGlob : String
  reason : String
  owner : String
  expiresOn : IsoDate
  deriving DecidableEq

def EnforcementWaiver.create (pathGlob reason owner expiresOn : String) :
    Except String EnforcementWaiver := do
  required pathGlob "waivers path_glob" 200
  required reason "waivers reason" 500
  required owner "waivers owner" 200
  let expires ← isoDate expiresOn "waivers expires_on"
  .ok ⟨pathGlob, reason, owner, expires⟩

def EnforcementWaiver.isActiveOn (w : EnforcementWaiver) (day : Nat) : Bool :=
  day ≤ w.expiresOn.day

/-- One rule, one owner approval, one expiry, and its waiver list. -/
structure EnforcementPolicy where
  rule : EnforcementRule
  threshold : Int
  approvedBy : String
  approvedOn : IsoDate
  expiresOn : IsoDate
  waivers : List EnforcementWaiver
  threshold_range : 0 ≤ threshold ∧ threshold ≤ 100
  ordered : approvedOn.day ≤ expiresOn.day
  bounded : waivers.length ≤ 64
  deriving DecidableEq

def EnforcementPolicy.create (rule : EnforcementRule) (threshold : Int)
    (approvedBy approvedOn expiresOn : String) (waivers : List EnforcementWaiver) :
    Except String EnforcementPolicy :=
  if hrange : 0 ≤ threshold ∧ threshold ≤ 100 then do
    required approvedBy "enforcement.approved_by" 200
    let approved ← isoDate approvedOn "enforcement.approved_on"
    let expires ← isoDate expiresOn "enforcement.expires_on"
    if hord : approved.day ≤ expires.day then
      if hlen : waivers.length ≤ 64 then
        .ok ⟨rule, threshold, approvedBy, approved, expires, waivers, hrange, hord, hlen⟩
      else .error "enforcement.waivers is too large"
    else .error "enforcement.expires_on precedes enforcement.approved_on"
  else .error "enforcement.threshold is invalid"

def EnforcementPolicy.isActiveOn (p : EnforcementPolicy) (day : Nat) : Bool :=
  day ≤ p.expiresOn.day

/-- Named owner and scope for one product installation in one repository. Enforcement is
opt-in: a policy is present exactly in enforce mode, and only declared owners sign it. -/
structure RepositoryConfig where
  repository : String
  serviceIds : List String
  ownerIds : List String
  evidenceSources : List String
  policyVersion : String
  mode : ProductMode
  enforcement : Option EnforcementPolicy
  opted : enforcement.isSome = true ↔ mode = .enforce
  owned : ∀ p ∈ enforcement, p.approvedBy ∈ ownerIds ∧ ∀ w ∈ p.waivers, w.owner ∈ ownerIds
  deriving DecidableEq

/-- `_sorted_unique`. -/
def sortedUnique (values : List String) (label : String) : Except String Unit :=
  if values = [] ∨ ¬ values.Pairwise (· < ·) then
    .error (label ++ " must be non-empty, sorted, and unique")
  else values.forM (fun v => required v label 160)

def RepositoryConfig.create (repository : String)
    (serviceIds ownerIds evidenceSources : List String) (policyVersion : String)
    (mode : ProductMode) (enforcement : Option EnforcementPolicy) :
    Except String RepositoryConfig := do
  required repository "repository" 200
  if isRepositoryName repository then
    sortedUnique serviceIds "service_ids"
    sortedUnique ownerIds "owner_ids"
    sortedUnique evidenceSources "evidence_sources"
    required policyVersion "policy_version" 120
    match enforcement with
    | none =>
      if hm : mode = .enforce then .error "enforcement is required when mode is enforce"
      else .ok ⟨repository, serviceIds, ownerIds, evidenceSources, policyVersion, mode, none,
        by simp [hm], by simp⟩
    | some p =>
      if hm : mode = .enforce then
        if ha : p.approvedBy ∈ ownerIds then
          if hw : ∀ w ∈ p.waivers, w.owner ∈ ownerIds then
            .ok ⟨repository, serviceIds, ownerIds, evidenceSources, policyVersion, mode, some p,
              by simp [hm], by simpa [ha] using hw⟩
          else .error "waivers owner must name a declared service owner"
        else .error "enforcement.approved_by must name a declared service owner"
      else .error "enforcement is allowed only when mode is enforce"
  else .error "repository is invalid"

end EngineeringIntelligence.PrGuardian
