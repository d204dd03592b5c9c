import EngineeringIntelligence.Framework.Find
import EngineeringIntelligence.Framework.JsonReader
import EngineeringIntelligence.PrGuardian.Enforcement

namespace EngineeringIntelligence.PrGuardian

open EngineeringIntelligence.Framework

/-! The sticky comment: the observation in a hidden marker, then what a reader sees. -/

def commentMarker : String := "<!-- eip-pr-guardian-shadow -->"

def dataMarker : String := "<!-- eip-pr-guardian-shadow-observation:"

def dataSuffix : String := " -->"

/-- `_simulated_controls`. -/
def simulatedControls (policy : SimulatedPolicy) : String :=
  let controls := (if policy.wouldRequireExtendedTests then ["would request extended tests"] else []) ++
    (if policy.wouldRequireAdditionalApproval then ["would request additional approval"] else []) ++
      if policy.wouldBlock then ["would block pending remediation"] else []
  if controls = [] then "would use standard branch protections" else ", ".intercalate controls

def evidenceText (factors : List ShadowRiskFactor) : String :=
  if factors = [] then "- No material risk factors detected"
  else "\n".intercalate (factors.map fun factor =>
    "- **+" ++ toString factor.points ++ "** `" ++ factor.name ++ "` — " ++ factor.evidence)

def heading : ProductMode → String
  | .advisory => "## Engineering Intelligence — PR Guardian advisory review"
  | .enforce => "## Engineering Intelligence — PR Guardian enforcement check"
  | .shadow => "## Engineering Intelligence — PR Guardian shadow observation"

def policyHeading : ProductMode → String
  | .shadow => "### Simulated policy"
  | _ => "### Advisory policy signals"

/-- A text that is missing or empty is falsy. -/
def filledText (text : Option String) : Option String := text.filter (· ≠ "")

def authority (mode : ProductMode) (enforcement : ShadowEnforcement) : String :=
  match mode with
  | .advisory => "**Advisory — non-blocking check for this repository's certified scope.** " ++
      "It is published as a neutral check and does not change merge status."
  | .enforce =>
    let verdict := if enforcement.wouldBlock then "**would block this pull request**"
      else "does not block this pull request"
    let lines := ["**Selective enforcement is enabled for this repository by its service owners.**", "",
      "- **Rule:** `" ++ (filledText enforcement.rule).getD "none" ++ "`",
      "- **Result:** this change " ++ verdict ++ " — " ++ explain enforcement.reason]
    let waiver := match filledText enforcement.waivedBy with
      | some owner => ["- **Waiver applied by:** `" ++ owner ++
          "` (a service owner accepted this risk in `.eip/pr-guardian.json`)"]
      | none => []
    "\n".intercalate (lines ++ waiver)
  | .shadow => "**Advisory only.** This result cannot approve, block, or otherwise change merge status."

def publishedNote (conclusion reason : Option String) : String :=
  match conclusion with
  | some text => "\n\n**Published check conclusion:** `" ++ text ++ "` — " ++ explain (reason.getD "")
  | none => ""

def policyNote : ProductMode → String
  | .shadow => ""
  | _ => "\n\nThese are the risk policy's recommendations to reviewers. They are separate " ++
      "from the enforcement rule above, which is the only thing that can change this " ++
      "check's conclusion."

/-- What a reader of the comment sees. -/
def visibleText (o : ShadowObservation) (conclusion reason : Option String) : String :=
  heading o.mode ++ "\n\n" ++ authority o.mode o.enforcement ++ publishedNote conclusion reason ++ "\n\n" ++
    "**Risk score:** `" ++ toString o.assessment.score ++ "/100` (" ++ o.assessment.band ++ ")\n\n" ++
    "### Evidence\n" ++ evidenceText o.assessment.factors ++ "\n\n" ++
    policyHeading o.mode ++ "\n" ++ simulatedControls o.simulatedPolicy ++ policyNote o.mode ++ "\n\n" ++
    "For calibration, an authorized reviewer may apply at most one risk label " ++
    "(`eip-pr-guardian/confirmed-risk` or `eip-pr-guardian/false-positive`) and at most " ++
    "one utility label (`eip-pr-guardian/useful` or `eip-pr-guardian/not-useful`). " ++
    "No label means not reviewed."

def renderComment (o : ShadowObservation) (conclusion reason : Option String) : String :=
  commentMarker ++ "\n" ++ dataMarker ++ Json.dumps (.obj o.asDict) ++ dataSuffix ++ "\n" ++
    visibleText o conclusion reason

/-- Render the sticky comment of one untrusted observation. -/
def observationComment (observation : List (String × Json)) (publishedConclusion publishReason : Option String) :
    Except String String :=
  (validateObservation observation).map fun o => renderComment o publishedConclusion publishReason

/-- What `observation_from_comment` raises. -/
inductive CommentError where
  /-- shadow observation comment is malformed -/
  | malformed
  /-- shadow observation comment has invalid JSON -/
  | invalidJson
  /-- shadow observation comment payload is not an object -/
  | notAnObject
  /-- an error of the JSON reader that is no `JSONDecodeError` -/
  | unreadable (error : Json.LoadsError)
  | invalid (message : String)
  deriving DecidableEq, Repr

/-- What a text hides that begins after the marker. -/
def hiddenObservation (floatRepr : String → String) (text : List Char) :
    Except CommentError (Option ShadowObservation) :=
  match find dataSuffix.toList text with
  | none => .error .malformed
  | some stop =>
    match Json.loads floatRepr (String.ofList (text.take stop)) with
    | .error .decode => .error .invalidJson
    | .error error => .error (.unreadable error)
    | .ok (.obj raw) =>
      match validateObservation raw with
      | .error message => .error (.invalid message)
      | .ok o => .ok (some o)
    | .ok _ => .error .notAnObject

/-- `observation_from_comment`. -/
def observationFromComment (floatRepr : String → String) (comment : String) :
    Except CommentError (Option ShadowObservation) :=
  match find dataMarker.toList comment.toList with
  | none => .ok none
  | some start => hiddenObservation floatRepr (comment.toList.drop (start + dataMarker.toList.length))

end EngineeringIntelligence.PrGuardian
