import EngineeringIntelligence.Framework.Json
import EngineeringIntelligence.Framework.Sorted
import EngineeringIntelligence.Framework.Text
import EngineeringIntelligence.Resilience.L4Eligibility
import Mathlib.Data.List.Lex
import Mathlib.Data.String.Basic

namespace EngineeringIntelligence.Validation

open EngineeringIntelligence.Framework

/-! The registry's records, and what makes one valid. -/

/-- The twelve items of production readiness, sorted. -/
def requiredKeys : List String :=
  ["audit-export", "backup-restore-drill", "control-plane-slo", "entra-production-auth", "ha-state-backend",
    "independent-verification", "kill-switch-drill", "private-network-path", "production-like-soak",
    "real-source-integration", "rollback-drill", "security-adversarial-suite"]

/-- `REQUIRED_FIELDS`; `artifacts` is checked on its own. -/
def requiredFields : List String :=
  ["evidence_id", "scope", "change", "claim", "method", "result", "independence", "artifacts", "approval"]

def bases : List String := ["measured", "derived", "modeled"]

def decisions : List String :=
  ["real-data-pilot", "pr-guardian-advisory", "blocking-pr-rule", "l3-remediation-pilot", "l4-promotion"]

def allFields : List String :=
  requiredFields ++ ["basis", "decision", "source_run_url", "readiness_key", "controls"]

/-- `^[a-z0-9][a-z0-9._-]*$`; the dollar also stands before a newline at the end. -/
def matchesEvidenceId (text : String) : Bool :=
  let start (c : Char) : Bool := ('a' ≤ c && c ≤ 'z') || ('0' ≤ c && c ≤ '9')
  let inside (c : Char) : Bool := start c || c = '.' || c = '_' || c = '-'
  match text.toList with
  | [] => false
  | c :: rest => start c && (rest.all inside || (rest.getLast? = some '\n' && rest.dropLast.all inside))

structure EvidenceRecord where
  evidenceId : String
  scope : String
  change : String
  claim : String
  method : String
  result : String
  independence : String
  artifacts : List String
  approval : String
  basis : String
  decision : String
  sourceRunUrl : Option String
  readinessKey : Option String
  controls : List String

/-- `result` starts with `pass` up to the first semicolon. -/
def isPass (result : String) : Bool :=
  asciiLower (strip (String.ofList (result.toList.takeWhile (· ≠ ';')))) = "pass"

def EvidenceRecord.passed (record : EvidenceRecord) : Bool := isPass record.result

/-- `type(value).__name__` -/
def typeName : Json → String
  | .null => "NoneType"
  | .bool _ => "bool"
  | .int _ => "int"
  | .float _ => "float"
  | .str _ => "str"
  | .arr _ => "list"
  | .obj _ => "dict"

/-- The value is this text. -/
def isText (text : String) : Json → Bool
  | .str s => s = text
  | _ => false

/-- A string that is not blank. -/
def filled : Json → Bool
  | .str s => strip s ≠ ""
  | _ => false

/-- `_text_violations`. -/
def textViolations (fields : List (String × Json)) (field : String) : List String :=
  match fields.lookup field with
  | none => [field ++ ": required field is missing"]
  | some (.str s) => if strip s = "" then [field ++ ": must not be blank"] else []
  | some value => [field ++ ": must be a string, got " ++ typeName value]

/-- `_validate_artifacts`. -/
def artifactViolations (fields : List (String × Json)) : List String :=
  match fields.lookup "artifacts" with
  | none => ["artifacts: required field is missing"]
  | some (.arr items) =>
    if items.isEmpty then ["artifacts: must list at least one signed link or digest"]
    else if items.any (!filled ·) then ["artifacts: every entry must be a non-blank string"] else []
  | some _ => ["artifacts: must be a list of signed links or digests"]

/-- A choice among texts, made by one field of a record. -/
def choiceViolations (fields : List (String × Json)) (field : String) (choices : List String) : List String :=
  textViolations fields field ++
    match Json.get fields field with
    | .str s => if strip s ≠ "" ∧ s ∉ choices then [field ++ ": must be one of " ++ ", ".intercalate choices] else []
    | _ => []

/-- `_validate_basis_and_decision`. -/
def basisAndDecisionViolations (fields : List (String × Json)) : List String :=
  choiceViolations fields "basis" bases ++ choiceViolations fields "decision" decisions

def sourceRunUrlViolations (fields : List (String × Json)) : List String :=
  (match Json.get fields "source_run_url" with
    | .null => []
    | .str url =>
      if strip url = "" then ["source_run_url: must be a non-blank URL when present"]
      else if startsWithAny url ["https://"] then [] else ["source_run_url: must be an https URL"]
    | _ => ["source_run_url: must be a non-blank URL when present"]) ++
    if isText "measured" (Json.get fields "basis") && !filled (Json.get fields "source_run_url") then
      ["source_run_url: a measured record must cite the run it was measured from"]
    else []

def readinessKeyViolations (fields : List (String × Json)) : List String :=
  match Json.get fields "readiness_key" with
  | .null => []
  | .str key =>
    if strip key = "" then ["readiness_key: must be a non-blank string when present"]
    else if key ∈ requiredKeys then [] else ["readiness_key: must be one of " ++ ", ".intercalate requiredKeys]
  | _ => ["readiness_key: must be a non-blank string when present"]

/-- The texts of a list of JSON strings. -/
def texts (items : List Json) : List String := items.filterMap fun
  | .str s => some s
  | _ => none

/-- `_validate_controls`: the names, each once, and what is wrong with them. -/
def controlsOf (fields : List (String × Json)) : List String × List String :=
  match Json.get fields "controls" with
  | .null => ([], [])
  | .arr items =>
    if items.any (!filled ·) then ([], ["controls: every entry must be a non-blank control name"])
    else
      let seen := (texts items).foldl (fun seen item => if strip item ∈ seen then seen else seen ++ [strip item]) []
      let unknown := seen.filter (· ∉ Resilience.attestedControls)
      (seen, if unknown = [] then [] else
        ["controls: unknown control(s) " ++ ", ".intercalate unknown ++ "; must be one of " ++
          ", ".intercalate Resilience.attestedControls])
  | _ => ([], ["controls: must be a list of control names"])

/-- Every violation that `validate_record` names. -/
def violations (fields : List (String × Json)) : List String :=
  (sortedSet ((fields.map (·.1)).filter (· ∉ allFields))).map (· ++ ": unknown field") ++
    (requiredFields.filter (· ≠ "artifacts")).flatMap (textViolations fields) ++
      (match Json.get fields "evidence_id" with
        | .str id =>
          if strip id ≠ "" && !matchesEvidenceId id then
            ["evidence_id: must match ^[a-z0-9][a-z0-9._-]*$ so it is a safe file name (lowercase, no spaces or " ++
              "path separators)"]
          else []
        | _ => []) ++
        artifactViolations fields ++ basisAndDecisionViolations fields ++ sourceRunUrlViolations fields ++
          readinessKeyViolations fields ++ (controlsOf fields).2

/-- The text of a string field. -/
def textOf (fields : List (String × Json)) (field : String) : String :=
  match Json.get fields field with
  | .str s => s
  | _ => ""

def optTextOf (fields : List (String × Json)) (field : String) : Option String :=
  match Json.get fields field with
  | .str s => some s
  | _ => none

/-- `validate_record`. -/
def validateRecord : Json → Except String EvidenceRecord
  | .obj fields =>
    if violations fields ≠ [] then
      .error ("invalid evidence record: " ++ "; ".intercalate (sortedBy id (violations fields)))
    else .ok
      { evidenceId := textOf fields "evidence_id"
        scope := textOf fields "scope"
        change := textOf fields "change"
        claim := textOf fields "claim"
        method := textOf fields "method"
        result := textOf fields "result"
        independence := textOf fields "independence"
        artifacts := match Json.get fields "artifacts" with
          | .arr items => texts items
          | _ => []
        approval := textOf fields "approval"
        basis := textOf fields "basis"
        decision := textOf fields "decision"
        sourceRunUrl := optTextOf fields "source_run_url"
        readinessKey := optTextOf fields "readiness_key"
        controls := (controlsOf fields).1 }
  | value => .error ("evidence record must be a JSON object, got " ++ typeName value)

end EngineeringIntelligence.Validation
