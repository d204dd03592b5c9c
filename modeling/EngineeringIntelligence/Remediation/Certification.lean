import EngineeringIntelligence.Remediation.Policy

namespace EngineeringIntelligence.Remediation

open EngineeringIntelligence.Framework

/-- The four things an L4 certification is scoped to. -/
structure CertificationScope where
  service : String
  environment : String
  runbookId : String
  blastRadiusBudget : Int
  deriving DecidableEq, Repr

namespace CertificationScope

/-- The constructor with its `__post_init__`; the error is the `ValueError`. -/
def make (service environment runbookId : String) (blastRadiusBudget : Int) :
    Except String CertificationScope :=
  match [("service", service), ("environment", environment), ("runbook_id", runbookId)].find?
      (fun p => strip p.2 = "") with
  | some p => .error ("certification scope " ++ p.1 ++ " must not be blank")
  | none =>
    if blastRadiusBudget ≤ 0 then
      .error "certification scope blast_radius_budget must be a positive bounded budget"
    else .ok ⟨service, environment, runbookId, blastRadiusBudget⟩

def canonical (s : CertificationScope) : Json :=
  .obj [("service", .str s.service), ("environment", .str s.environment),
    ("runbook_id", .str s.runbookId), ("blast_radius_budget", .int s.blastRadiusBudget)]

def scopeHash (sha256 : String → String) (s : CertificationScope) : String :=
  sha256 s.canonical.dumps

end CertificationScope

/-- `asdict(runbook)` as JSON data. -/
def Runbook.plain (r : Runbook) : Json :=
  .obj [("id", .str r.id), ("description", .str r.description),
    ("environments", .arr (r.environments.map .str)), ("max_blast_radius", .int r.maxBlastRadius),
    ("reversible", .bool r.reversible), ("required_level", .int r.requiredLevel.value),
    ("verify_signal", .str r.verifySignal), ("rollback_id", Json.optStr r.rollbackId),
    ("failure_class", .str r.failureClass), ("preconditions", .arr (r.preconditions.map .str)),
    ("postconditions", .arr (r.postconditions.map .str)),
    ("idempotency_scope", .str r.idempotencyScope)]

/-- `material_inputs_hash_for`; the order in which dependencies are listed is not material. -/
def materialInputsHashFor (sha256 : String → String) (scope : CertificationScope)
    (runbook : Runbook) (policyBundleVersion : String) : String :=
  sha256 (Json.obj [("scope", scope.canonical), ("runbook_definition", runbook.plain),
    ("policy_bundle_version", .str policyBundleVersion),
    ("verification_signal", .str runbook.verifySignal),
    ("dependencies", .arr ((runbook.preconditions.insertionSort (· ≤ ·)).map .str))]).dumps

/-- The fields of a certification record that authorise an execution. -/
structure L4CertificationRecord where
  scopeHash : String
  inputsHash : String
  expiresOn : String
  deriving DecidableEq, Repr

def certificationScopeFor (policy : ServiceAutonomy) (request : ActionRequest) (runbook : Runbook) :
    Except String CertificationScope :=
  CertificationScope.make request.service request.environment runbook.id policy.maxBlastRadius

/-- `certification_refusal`: exists, unexpired, right scope, unchanged material inputs. -/
def certificationRefusal (record : Option L4CertificationRecord) (scopeHash inputsHash : String)
    (now : Int) : Option String :=
  match record with
  | none => some "l4-certification: no certification record for this L4 scope"
  | some r =>
    match parseInstant r.expiresOn with
    | none => some "l4-certification: record expires_on is not a readable timestamp"
    | some expires =>
      if expires ≤ now then some ("l4-certification: certification expired on " ++ r.expiresOn)
      else if r.scopeHash ≠ scopeHash then
        some ("l4-certification: record scope_hash does not match the requested " ++
          "service/environment/runbook/blast-radius scope")
      else if r.inputsHash ≠ inputsHash then
        some ("l4-certification: material inputs changed since certification; " ++
          "recertification is required")
      else none

end EngineeringIntelligence.Remediation
