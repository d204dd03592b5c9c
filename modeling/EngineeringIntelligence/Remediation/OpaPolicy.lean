import EngineeringIntelligence.Remediation.Policy

namespace EngineeringIntelligence.Remediation

open EngineeringIntelligence.Framework

/-- The OPA builtins that the bundle calls; `none` is an undefined result. -/
structure OpaBuiltins where
  parseRfc3339Ns : String → Option Int
  trimSpace : String → String
  upper : String → String

/-- The builtins as OPA documents them. -/
def opaBuiltins : OpaBuiltins := ⟨parseRfc3339Nanos, trimBy isUnicodeSpace, asciiUpper⟩

/-- The input document. `policyLevel` is `input.policy.level` where that is a number. -/
structure OpaInput where
  runbook : Runbook
  policy : ServiceAutonomy
  policyLevel : Option Int
  request : ActionRequest
  errorBudgetRemaining : Rat
  approvalVerified : Bool
  control : PolicyControlState
  autonomyLevel : Json
  scopeHash : String
  now : String
  certification : Option CertificationClaim

/-- `opa_input`; `none` when the error budget is a float that JSON cannot carry, so that no
document reaches the bundle. -/
def opaInput (runbook : Runbook) (policy : ServiceAutonomy) (request : ActionRequest)
    (approvalVerified : Bool) (control : PolicyControlState) (autonomy : Option AutonomyContext)
    (now : String) : Option OpaInput :=
  let context := autonomy.getD (.forPolicy policy now)
  match request.errorBudgetRemaining with
  | .finite q => some ⟨runbook, policy, some policy.level.value, request, q, approvalVerified,
      control, context.autonomyLevel, context.scopeHash, context.now, context.certification⟩
  | _ => none

namespace Rego

def policyRevision : String := "eip-remediation-v1"

section
variable (b : OpaBuiltins) (i : OpaInput)

def declaredLevel : Option String :=
  match i.autonomyLevel with
  | .str raw => some (b.upper (b.trimSpace raw))
  | _ => none

def levelAtLeastFour : Bool := i.policyLevel.any (4 ≤ ·)

def effectiveLevel : Option Int :=
  if declaredLevel b i = some "L3" ∧ levelAtLeastFour i then some 3 else i.policyLevel

/-- The three bodies of `is_l4`; a comparison with an undefined level is not satisfied. -/
def isL4 : Bool :=
  (declaredLevel b i).any (· = "L4") ||
  ((declaredLevel b i).any (fun d => d ≠ "L4" ∧ d ≠ "L3") && levelAtLeastFour i) ||
  ((declaredLevel b i).isNone && levelAtLeastFour i)

def evaluatedAt : Option Int := b.parseRfc3339Ns i.now

def certificationExpiry : Option Int := i.certification.bind (fun c => b.parseRfc3339Ns c.expiresOn)

def expired : Bool :=
  match certificationExpiry b i, evaluatedAt b i with
  | some expiry, some evaluated => expiry ≤ evaluated
  | _, _ => false

/-- The `else` chain of `deny_reason`, in order. -/
def denials : List (Bool × String) :=
  [(i.policy.killSwitch, "service kill switch is enabled"),
    (i.policyLevel.isNone, "service autonomy policy carries no reviewed level"),
    (i.request.service ≠ i.policy.service, "request is outside service/environment policy scope"),
    (i.request.environment ≠ i.policy.environment,
      "request is outside service/environment policy scope"),
    (!i.runbook.environments.contains i.request.environment,
      "runbook is not permitted in this environment"),
    (i.runbook.maxBlastRadius < i.request.blastRadius, "blast radius exceeds certified limit"),
    (i.policy.maxBlastRadius < i.request.blastRadius, "blast radius exceeds certified limit"),
    (i.policyLevel.any (· < i.runbook.requiredLevel.value),
      "service autonomy level is below runbook requirement"),
    (!i.policy.certifiedRunbooks.contains i.runbook.id, "runbook is not certified for this service"),
    (effectiveLevel b i = some 3 && !i.approvalVerified, "verified human approval is required"),
    (levelAtLeastFour i && i.errorBudgetRemaining ≤ 0,
      "error budget exhausted; autonomous mutation disabled"),
    (isL4 b i && i.certification.isNone,
      "l4-certification: no certification record for this L4 scope"),
    (isL4 b i && (evaluatedAt b i).isNone,
      "l4-certification: request carries no readable evaluation time"),
    (isL4 b i && (certificationExpiry b i).isNone,
      "l4-certification: certification expires_on is not a readable timestamp"),
    (isL4 b i && expired b i, "l4-certification: certification has expired"),
    (isL4 b i && b.trimSpace i.scopeHash = "", "l4-certification: request carries no scope hash"),
    (isL4 b i && i.certification.any (fun c => c.scopeHash ≠ i.scopeHash),
      "l4-certification: record scope_hash does not match the requested scope"),
    (isL4 b i && b.trimSpace ((i.certification.map (·.inputsHash)).getD "") = "",
      "l4-certification: certification carries no material-inputs hash"),
    (!i.control.auditAvailable, "audit control unavailable"),
    (!i.control.verificationDefined, "verification control unavailable")]

def denyReason : String := ((denials b i).find? (·.1)).elim "" Prod.snd

def decision : EvaluatedPolicyDecision :=
  if denyReason b i = "" then ⟨true, "authorized by OPA remediation policy", policyRevision⟩
  else ⟨false, denyReason b i, policyRevision⟩

end

end Rego

/-- The verdict of the bundle on what `opa_input` built; a missing document is refused. -/
def regoAllowed (b : OpaBuiltins) (i : Option OpaInput) : Bool :=
  i.any (fun i => (Rego.decision b i).allowed)

/-! Both evaluators are one policy over different readings of the texts they are given. -/

/-- How an evaluator reads a declared level, a timestamp and a blank text. -/
structure TextReading where
  level : String → String
  instant : String → Option Int
  blank : String → Bool

def pythonReading : TextReading := ⟨fun s => asciiUpper (strip s), parseInstant, (strip · = "")⟩

def opaReading (b : OpaBuiltins) : TextReading :=
  ⟨fun s => b.upper (b.trimSpace s), b.parseRfc3339Ns, (b.trimSpace · = "")⟩

namespace TextReading
variable (t : TextReading)

def declared (context : AutonomyContext) : String :=
  match context.autonomyLevel with
  | .str s => t.level s
  | _ => ""

/-- The certification covers the requested scope and has not lapsed. -/
def certified (context : AutonomyContext) : Bool :=
  match context.certification with
  | none => false
  | some claim =>
    match t.instant context.now, t.instant claim.expiresOn with
    | some now, some expires => now < expires && !t.blank context.scopeHash &&
        claim.scopeHash = context.scopeHash && !t.blank claim.inputsHash
    | _, _ => false

/-- What is asked on top of the shared checks: of a supervised L3 run of an L4 scope an
approval, of any other L4 run a certification. -/
def passes (level : AutonomyLevel) (approvalVerified : Bool) (context : AutonomyContext) : Bool :=
  if level = .boundedAutonomous then
    if t.declared context = "L3" then approvalVerified else t.certified context
  else t.declared context ≠ "L4" || t.certified context

end TextReading

/-- The refusals that read no text: both evaluators make them alike. -/
def sharedRefusal (runbook : Runbook) (policy : ServiceAutonomy) (request : ActionRequest)
    (approvalVerified : Bool) (control : PolicyControlState) : Bool :=
  policy.killSwitch || request.service ≠ policy.service ||
  request.environment ≠ policy.environment ||
  !runbook.environments.contains request.environment ||
  runbook.maxBlastRadius < request.blastRadius || policy.maxBlastRadius < request.blastRadius ||
  policy.level.value < runbook.requiredLevel.value ||
  !policy.certifiedRunbooks.contains runbook.id ||
  (policy.level = .approveAndExecute && !approvalVerified) ||
  (policy.level = .boundedAutonomous && request.errorBudgetRemaining.nonpos) ||
  !control.auditAvailable || !control.verificationDefined

theorem certificationDenial_eq_none (a : AutonomyContext) :
    certificationDenial a = none ↔ (a.isL4 = true → pythonReading.certified a = true) := by
  unfold certificationDenial TextReading.certified
  cases hl : a.isL4 with
  | false => simp
  | true =>
    cases hc : a.certification with
    | none => simp
    | some claim =>
      cases hn : parseInstant a.now with
      | none => simp [pythonReading, hn]
      | some now =>
        cases he : parseInstant claim.expiresOn with
        | none => simp [pythonReading, hn, he]
        | some expires => simp [pythonReading, hn, he, firstRefusal_eq_none, and_assoc]

section
variable (runbook : Runbook) (policy : ServiceAutonomy) (request : ActionRequest)
  (approvalVerified : Bool) (control : PolicyControlState) (autonomy : Option AutonomyContext)

/-- The approval and certification gates of an evaluator that resolves the level to
`effective` and asks for a certification when `l4`. -/
theorem gates_iff (t : TextReading) (context : AutonomyContext) (effective : Int) (l4 : Bool)
    (heff : effective = if t.declared context = "L3" ∧ 4 ≤ policy.level.value then 3
      else policy.level.value)
    (hl4 : l4 = true ↔ t.declared context = "L4" ∨
      (t.declared context ≠ "L3" ∧ 4 ≤ policy.level.value)) :
    ((effective = 3 → approvalVerified = true) ∧ (l4 = true → t.certified context = true)) ↔
      (policy.level = .approveAndExecute → approvalVerified = true) ∧
        t.passes policy.level approvalVerified context = true := by
  rw [heff, hl4, TextReading.passes]
  cases policy.level with
  | boundedAutonomous =>
    by_cases h3 : t.declared context = "L3" <;> simp [h3, AutonomyLevel.value]
  | approveAndExecute | observe | recommend | humanExecute =>
    by_cases h4 : t.declared context = "L4" <;> simp [h4, AutonomyLevel.value]

theorem sharedRefusal_eq_false :
    sharedRefusal runbook policy request approvalVerified control = false ↔
      policy.killSwitch = false ∧ request.service = policy.service ∧
      request.environment = policy.environment ∧ request.environment ∈ runbook.environments ∧
      request.blastRadius ≤ runbook.maxBlastRadius ∧ request.blastRadius ≤ policy.maxBlastRadius ∧
      runbook.requiredLevel.value ≤ policy.level.value ∧
      runbook.id ∈ policy.certifiedRunbooks ∧
      (policy.level = .approveAndExecute → approvalVerified = true) ∧
      (policy.level = .boundedAutonomous → request.errorBudgetRemaining.nonpos = false) ∧
      control.auditAvailable = true ∧ control.verificationDefined = true := by
  simp [sharedRefusal, and_assoc]

theorem level_ge_four (a : AutonomyLevel) : 4 ≤ a.value ↔ a = .boundedAutonomous := by
  cases a <;> decide

/-- The reference evaluator is the shared checks and the gates under Python's reading. -/
theorem evaluate_allowed (now : String) :
    (evaluate runbook policy request approvalVerified control autonomy now).allowed =
      (!sharedRefusal runbook policy request approvalVerified control &&
        pythonReading.passes policy.level approvalVerified
          (autonomy.getD (.forPolicy policy now))) := by
  rw [Bool.eq_iff_iff, Bool.and_eq_true, Bool.not_eq_true', sharedRefusal_eq_false]
  set context := autonomy.getD (.forPolicy policy now) with hcontext
  have hdeclared : { context with policyLevel := policy.level.value }.declared =
    pythonReading.declared context := rfl
  have hgates := gates_iff policy approvalVerified pythonReading context
    { context with policyLevel := policy.level.value }.effectiveLevel
    { context with policyLevel := policy.level.value }.isL4 rfl (by
      rw [AutonomyContext.isL4, supervisedDowngrade, hdeclared]
      by_cases h4 : pythonReading.declared context = "L4"
      · simp [h4]
      · by_cases h3 : pythonReading.declared context = "L3" <;> simp [h3, h4])
  have hcert := certificationDenial_eq_none { context with policyLevel := policy.level.value }
  have hcertified : pythonReading.certified { context with policyLevel := policy.level.value } =
    pythonReading.certified context := rfl
  rw [hcertified] at hcert
  rw [evaluate, localDecision_allowed]
  simp only [List.forall_mem_cons, List.not_mem_nil, false_imp_iff, implies_true, and_true,
    refuse_eq_none, ← hcontext, hcert, Bool.or_eq_false_iff, decide_eq_false_iff_not, ne_eq,
    not_not, not_lt, Bool.not_eq_eq_eq_not, Bool.not_false, List.contains_iff_mem, and_assoc,
    Bool.and_eq_false_imp, decide_eq_true_eq, level_ge_four]
  constructor
  · rintro ⟨hkill, hs, he, henv, hb, hb', hreq, hid, happ, hbudget, hl4, ha, hv⟩
    obtain ⟨happroved, hpasses⟩ := hgates.mp ⟨happ, hl4⟩
    exact ⟨hkill, hs, he, henv, hb, hb', hreq, hid, happroved, hbudget, ha, hv, hpasses⟩
  · rintro ⟨hkill, hs, he, henv, hb, hb', hreq, hid, happroved, hbudget, ha, hv, hpasses⟩
    obtain ⟨happ, hl4⟩ := hgates.mpr ⟨happroved, hpasses⟩
    exact ⟨hkill, hs, he, henv, hb, hb', hreq, hid, happ, hbudget, hl4, ha, hv⟩

theorem Rego.decision_allowed (b : OpaBuiltins) (i : OpaInput) :
    (Rego.decision b i).allowed = true ↔ ∀ d ∈ Rego.denials b i, d.1 = false := by
  have hreasons : ∀ d ∈ Rego.denials b i, d.2 ≠ "" := by
    intro d hd
    simp only [Rego.denials, List.mem_cons, List.not_mem_nil, or_false] at hd
    rcases hd with rfl | rfl | rfl | rfl | rfl | rfl | rfl | rfl | rfl | rfl | rfl | rfl | rfl |
      rfl | rfl | rfl | rfl | rfl | rfl | rfl <;> simp
  have hreason : Rego.denyReason b i = "" ↔ (Rego.denials b i).find? (·.1) = none := by
    unfold Rego.denyReason
    cases hf : (Rego.denials b i).find? (·.1) with
    | none => simp
    | some d => simpa using hreasons d (List.mem_of_find?_eq_some hf)
  unfold Rego.decision
  split_ifs with h
  · simpa [List.find?_eq_none] using hreason.mp h
  · rw [hreason, List.find?_eq_none] at h
    simpa using h

theorem Rego.denials_eq_false (b : OpaBuiltins) (i : OpaInput) (n : Int)
    (hn : i.policyLevel = some n) :
    (∀ d ∈ denials b i, d.1 = false) ↔
      i.policy.killSwitch = false ∧ i.request.service = i.policy.service ∧
      i.request.environment = i.policy.environment ∧
      i.request.environment ∈ i.runbook.environments ∧
      i.request.blastRadius ≤ i.runbook.maxBlastRadius ∧
      i.request.blastRadius ≤ i.policy.maxBlastRadius ∧ i.runbook.requiredLevel.value ≤ n ∧
      i.runbook.id ∈ i.policy.certifiedRunbooks ∧
      (effectiveLevel b i = some 3 → i.approvalVerified = true) ∧
      (4 ≤ n → ¬i.errorBudgetRemaining ≤ 0) ∧
      (isL4 b i = true → i.certification.isSome = true ∧ (evaluatedAt b i).isSome = true ∧
        (certificationExpiry b i).isSome = true ∧ expired b i = false ∧
        b.trimSpace i.scopeHash ≠ "" ∧ (∀ c ∈ i.certification, c.scopeHash = i.scopeHash) ∧
        b.trimSpace ((i.certification.map (·.inputsHash)).getD "") ≠ "") ∧
      i.control.auditAvailable = true ∧ i.control.verificationDefined = true := by
  have hscope : i.certification.any (fun c => decide (c.scopeHash ≠ i.scopeHash)) = false ↔
      ∀ c ∈ i.certification, c.scopeHash = i.scopeHash := by
    cases i.certification <;> simp
  simp only [denials, List.forall_mem_cons, List.not_mem_nil, false_imp_iff, implies_true,
    and_true, hn, Option.isNone_some, true_and, levelAtLeastFour, Option.any_some, hscope,
    decide_eq_false_iff_not, ne_eq, not_not, not_lt, Bool.not_eq_eq_eq_not, Bool.not_false,
    List.contains_iff_mem, Bool.and_eq_false_imp, decide_eq_true_eq, Option.isNone_eq_false_iff,
    imp_and, and_assoc]

/-- The seven certification rules of the bundle together ask for a certification. -/
theorem Rego.certification_iff (b : OpaBuiltins) (i : OpaInput) (context : AutonomyContext)
    (hscope : i.scopeHash = context.scopeHash) (hnow : i.now = context.now)
    (hcert : i.certification = context.certification) :
    (isL4 b i = true → i.certification.isSome = true ∧ (evaluatedAt b i).isSome = true ∧
      (certificationExpiry b i).isSome = true ∧ expired b i = false ∧
      b.trimSpace i.scopeHash ≠ "" ∧ (∀ c ∈ i.certification, c.scopeHash = i.scopeHash) ∧
      b.trimSpace ((i.certification.map (·.inputsHash)).getD "") ≠ "") ↔
    (isL4 b i = true → (opaReading b).certified context = true) := by
  refine imp_congr_right (fun _ => ?_)
  unfold TextReading.certified evaluatedAt certificationExpiry expired
  rw [← hscope, ← hnow, ← hcert]
  cases hc : i.certification with
  | none => simp
  | some claim =>
    cases hn : b.parseRfc3339Ns i.now with
    | none => simp [opaReading, hn]
    | some now =>
      cases he : b.parseRfc3339Ns claim.expiresOn with
      | none => simp [opaReading, hn, he]
      | some expires =>
        simp [opaReading, hn, he, evaluatedAt, certificationExpiry, hc, and_assoc]

theorem Rego.isL4_iff (b : OpaBuiltins) (i : OpaInput) (context : AutonomyContext)
    (hlevel : i.autonomyLevel = context.autonomyLevel) (n : Int) (hn : i.policyLevel = some n) :
    isL4 b i = true ↔ (opaReading b).declared context = "L4" ∨
      ((opaReading b).declared context ≠ "L3" ∧ 4 ≤ n) := by
  unfold isL4 declaredLevel TextReading.declared levelAtLeastFour
  rw [← hlevel, hn]
  cases i.autonomyLevel with
  | str raw =>
    by_cases h4 : (opaReading b).level raw = "L4"
    · have h4' : b.upper (b.trimSpace raw) = "L4" := h4
      simp [h4, h4']
    · have h4' : ¬b.upper (b.trimSpace raw) = "L4" := h4
      by_cases h3 : (opaReading b).level raw = "L3"
      · have h3' : b.upper (b.trimSpace raw) = "L3" := h3
        simp [h3, h3']
      · have h3' : ¬b.upper (b.trimSpace raw) = "L3" := h3
        simp [h3, h3', h4, h4']
  | null | bool _ | int _ | float _ | arr _ | obj _ => simp

theorem Rego.effectiveLevel_eq (b : OpaBuiltins) (i : OpaInput) (context : AutonomyContext)
    (hlevel : i.autonomyLevel = context.autonomyLevel) (n : Int) (hn : i.policyLevel = some n) :
    effectiveLevel b i =
      some (if (opaReading b).declared context = "L3" ∧ 4 ≤ n then 3 else n) := by
  unfold effectiveLevel declaredLevel TextReading.declared levelAtLeastFour
  rw [← hlevel, hn]
  cases i.autonomyLevel with
  | str raw =>
    have hread : (opaReading b).level raw = b.upper (b.trimSpace raw) := rfl
    simp only [hread, Option.some.injEq, Option.any_some, decide_eq_true_eq]
    split_ifs <;> rfl
  | null | bool _ | int _ | float _ | arr _ | obj _ => simp

/-- The bundle is the shared checks and the gates under OPA's reading, on requests whose
error budget can be sent. -/
theorem regoAllowed_opaInput (b : OpaBuiltins) (now : String) :
    regoAllowed b (opaInput runbook policy request approvalVerified control autonomy now) =
      (request.errorBudgetRemaining.isFinite &&
        (!sharedRefusal runbook policy request approvalVerified control &&
          (opaReading b).passes policy.level approvalVerified
            (autonomy.getD (.forPolicy policy now)))) := by
  set context := autonomy.getD (.forPolicy policy now) with hcontext
  cases hq : request.errorBudgetRemaining with
  | posInf | negInf | nan => simp [opaInput, hq, regoAllowed, PyFloat.isFinite]
  | finite q =>
    have hinput : opaInput runbook policy request approvalVerified control autonomy now =
        some ⟨runbook, policy, some policy.level.value, request, q, approvalVerified, control,
          context.autonomyLevel, context.scopeHash, context.now, context.certification⟩ := by
      simp [opaInput, hq, ← hcontext]
    rw [hinput, regoAllowed, Option.any_some, PyFloat.isFinite, Bool.true_and, Bool.eq_iff_iff,
      Bool.and_eq_true, Bool.not_eq_true', sharedRefusal_eq_false, Rego.decision_allowed]
    set i : OpaInput := ⟨runbook, policy, some policy.level.value, request, q, approvalVerified,
      control, context.autonomyLevel, context.scopeHash, context.now, context.certification⟩
    have hcert := Rego.certification_iff b i context rfl rfl rfl
    have heff := Rego.effectiveLevel_eq b i context rfl policy.level.value rfl
    have hgates := gates_iff policy approvalVerified (opaReading b) context _ (Rego.isL4 b i) rfl
      (Rego.isL4_iff b i context rfl policy.level.value rfl)
    have hnonpos : (4 ≤ policy.level.value → ¬q ≤ 0) ↔
        (policy.level = .boundedAutonomous → request.errorBudgetRemaining.nonpos = false) := by
      rw [level_ge_four, hq, PyFloat.nonpos, decide_eq_false_iff_not]
    rw [Rego.denials_eq_false b i policy.level.value rfl, hcert, heff, Option.some.injEq, ← hnonpos]
    constructor
    · rintro ⟨hkill, hs, he, henv, hb, hb', hreq, hid, happ, hbudget, hl4, ha, hv⟩
      obtain ⟨happroved, hpasses⟩ := hgates.mp ⟨happ, hl4⟩
      exact ⟨⟨hkill, hs, he, henv, hb, hb', hreq, hid, happroved, hbudget, ha, hv⟩, hpasses⟩
    · rintro ⟨⟨hkill, hs, he, henv, hb, hb', hreq, hid, happroved, hbudget, ha, hv⟩, hpasses⟩
      obtain ⟨happ, hl4⟩ := hgates.mpr ⟨happroved, hpasses⟩
      exact ⟨hkill, hs, he, henv, hb, hb', hreq, hid, happ, hbudget, hl4, ha, hv⟩

end

/-- A certified L4 request in a service that grants it. -/
def certifiedRequest (expiresOn : String) :
    Runbook × ServiceAutonomy × ActionRequest × AutonomyContext :=
  ({ id := "aks.restart.workload", description := "Restart a bounded Kubernetes deployment"
     environments := ["dev", "stage", "prod"], maxBlastRadius := 5, reversible := true
     requiredLevel := .approveAndExecute, verifySignal := "deployment.ready_replicas"
     preconditions := ["deployment.exists"], postconditions := ["deployment.ready_replicas"] },
   { service := "checkout", environment := "prod", level := .boundedAutonomous
     certifiedRunbooks := ["aks.restart.workload"], maxBlastRadius := 5 },
   { service := "checkout", environment := "prod", runbookId := "aks.restart.workload"
     blastRadius := 1 },
   { autonomyLevel := .str "L4", scopeHash := "scope", now := "2026-01-01T00:00:00+00:00"
     certification := some ⟨"scope", "inputs", expiresOn⟩ })

example : let (runbook, policy, request, context) := certifiedRequest "2027-01-01T00:00:00Z"
    (evaluate runbook policy request false {} (some context) "").allowed =
      regoAllowed opaBuiltins (opaInput runbook policy request false {} (some context) "") := by
  decide

end EngineeringIntelligence.Remediation
