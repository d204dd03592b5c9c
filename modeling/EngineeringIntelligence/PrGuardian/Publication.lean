import EngineeringIntelligence.CompanyBrain.ArtifactOutbox
import EngineeringIntelligence.Framework.JsonReader
import EngineeringIntelligence.PrGuardian.StickyComment

namespace EngineeringIntelligence.PrGuardian

open EngineeringIntelligence.Framework EngineeringIntelligence.CompanyBrain EngineeringIntelligence.Ingestion

/-! `PRGuardianPublisher`: the check and the comment of a review are recorded in the outbox, then leased and
delivered one by one. -/

def PublishConclusion.value : PublishConclusion → String
  | neutral => "neutral"
  | failure => "failure"

/-- What `publish` presents of one head of a pull request; the texts are rendered. -/
structure ReviewPresentation where
  headSha : String
  mode : ProductMode
  conclusion : PublishConclusion
  title : String
  summary : String
  correlationId : String
  contextVersion : String

/-! ### Artifacts. Where a constructor refuses its arguments, nothing is built. -/

/-- An intent over the canonical text of a payload. -/
def deliveryIntent (deliveryKey : String) (channel : ArtifactDeliveryChannel) (idempotencyKey : String)
    (payload : List (String × Json)) : Option ArtifactDeliveryIntent :=
  if hkeys : matchesIdentifier deliveryKey = true ∧ matchesIdentifier idempotencyKey = true then
    if hsize : (Json.obj payload).dumpsUnicode.utf8ByteSize ≤ 64 * 1024 then
      some ⟨deliveryKey, channel, idempotencyKey, (Json.obj payload).dumpsUnicode, hkeys, ⟨payload, rfl⟩, hsize⟩
    else none
  else none

def artifactHeader (artifactId product scopeId correlationId contextVersion : String) : Option ArtifactHeader :=
  if h : matchesIdentifier artifactId = true ∧ isProduct product = true ∧ matchesIdentifier scopeId = true ∧
      matchesIdentifier correlationId = true ∧ CompanyBrain.required 240 contextVersion = true then
    some ⟨artifactId, product, scopeId, correlationId, contextVersion, h⟩
  else none

section
variable (sha256 : String → String) (repository : String) (number : Int)

def ReviewPresentation.checkPayload (r : ReviewPresentation) : List (String × Json) :=
  [("repository", .str repository), ("head_sha", .str r.headSha),
    ("name", .str ("Engineering Intelligence / PR Guardian (" ++ r.mode.value ++ ")")),
    ("conclusion", .str r.conclusion.value), ("title", .str r.title), ("summary", .str r.summary)]

def ReviewPresentation.commentPayload (r : ReviewPresentation) : List (String × Json) :=
  [("repository", .str repository), ("pr_number", .int number), ("body", .str r.summary)]

def ReviewPresentation.scopeId (r : ReviewPresentation) : String :=
  "pr:" ++ repository ++ ":" ++ toString number ++ ":" ++ r.headSha

/-- The text whose digest `_artifact_id` takes. -/
def ReviewPresentation.identity (r : ReviewPresentation) : String :=
  let delivery (key : String) (channel : ArtifactDeliveryChannel) (payload : List (String × Json)) : Json :=
    .obj [("delivery_key", .str key), ("channel", .str channel.value),
      ("payload_json", .str (Json.obj payload).dumpsUnicode)]
  (Json.obj [("product", .str "pr-guardian"), ("scope_id", .str (r.scopeId repository number)),
    ("correlation_id", .str r.correlationId), ("context_version", .str r.contextVersion),
    ("deliveries", .arr [delivery "check" .githubCheck (r.checkPayload repository),
      delivery "comment" .githubComment (r.commentPayload repository number)])]).dumpsUnicode

/-- `_delivery_idempotency_key`. -/
def deliveryIdempotencyKey (artifactId deliveryKey : String) : String :=
  "delivery:" ++ sha256 (artifactId ++ ":" ++ deliveryKey)

/-- Two deliveries under the keys `check` and `comment`, with different idempotency keys. -/
def pairedArtifact (header : ArtifactHeader) (check comment : ArtifactDeliveryIntent)
    (h : check.deliveryKey = "check" ∧ comment.deliveryKey = "comment")
    (hkeys : check.idempotencyKey ≠ comment.idempotencyKey) : ProductArtifact where
  toArtifactHeader := header
  deliveries := [check, comment]
  count := ⟨by simp, by simp⟩
  sorted := by
    have hle : check.deliveryKey ≤ comment.deliveryKey := by
      rw [h.1, h.2]
      decide
    simp [sortedBy, hle]
  deliveryKeys := by
    simp [h.1, h.2]
  idempotencyKeys := by
    simp [hkeys]

/-- `_artifact`; rendering its summary validates the number first. -/
def reviewArtifact (r : ReviewPresentation) : Option ProductArtifact :=
  if 1 ≤ number ∧ number ≤ 1000000000 then do
    let artifactId := "artifact:" ++ sha256 (r.identity repository number)
    let check ← deliveryIntent "check" .githubCheck (deliveryIdempotencyKey sha256 artifactId "check")
      (r.checkPayload repository)
    let comment ← deliveryIntent "comment" .githubComment (deliveryIdempotencyKey sha256 artifactId "comment")
      (r.commentPayload repository number)
    let header ← artifactHeader artifactId "pr-guardian" (r.scopeId repository number) r.correlationId
      r.contextVersion
    if h : check.deliveryKey = "check" ∧ comment.deliveryKey = "comment" then
      if hkeys : check.idempotencyKey ≠ comment.idempotencyKey then some (pairedArtifact header check comment h hkeys)
      else none
    else none
  else none

end

/-! ### Delivery -/

/-- The call of the GitHub client that a delivery makes. -/
inductive GitHubCall where
  | check (repository headSha name conclusion title summary externalId : String)
  | comment (repository : String) (prNumber : Int) (body : String)
  deriving DecidableEq, Repr

section
variable (floatRepr : String → String)

/-- `_payload`. -/
def storedPayload (value : String) : Except String (List (String × Json)) :=
  match Json.loads floatRepr value with
  | .ok (.obj payload) => .ok payload
  | .ok _ => .error "stored PR Guardian publication payload must be an object"
  | .error _ => .error "stored PR Guardian publication payload is invalid"

/-- `_text`. -/
def storedText (payload : List (String × Json)) (field : String) : Except String String :=
  match Json.get payload field with
  | .str value =>
    if value = "" then .error ("stored PR Guardian publication field " ++ field ++ " is invalid") else .ok value
  | _ => .error ("stored PR Guardian publication field " ++ field ++ " is invalid")

/-- `_positive_int`. -/
def storedPositiveInt (payload : List (String × Json)) (field : String) : Except String Int :=
  match Json.get payload field with
  | .int value =>
    if value < 1 then .error ("stored PR Guardian publication field " ++ field ++ " is invalid") else .ok value
  | _ => .error ("stored PR Guardian publication field " ++ field ++ " is invalid")

/-- `_check_conclusion`. -/
def storedConclusion (payload : List (String × Json)) : Except String String := do
  let conclusion ← storedText payload "conclusion"
  if conclusion ∈ ["neutral", "failure"] then .ok conclusion
  else .error "stored PR Guardian publication conclusion is invalid"

/-- The call `_deliver` makes for a delivery. -/
def deliver (intent : ArtifactDeliveryIntent) : Except String GitHubCall := do
  let payload ← storedPayload floatRepr intent.payloadJson
  match intent.channel with
  | .githubCheck => do
    let repository ← storedText payload "repository"
    let headSha ← storedText payload "head_sha"
    let name ← storedText payload "name"
    let conclusion ← storedConclusion payload
    let title ← storedText payload "title"
    let summary ← storedText payload "summary"
    .ok (.check repository headSha name conclusion title summary intent.idempotencyKey)
  | .githubComment => do
    let repository ← storedText payload "repository"
    let prNumber ← storedPositiveInt payload "pr_number"
    let body ← storedText payload "body"
    .ok (.comment repository prNumber body)

end

/-- `COMMENT_MARKER` of the client. -/
def stickyMarker : String := "<!-- eip-pr-guardian -->"

/-- `_DELIVERY_LEASE`, in microseconds. -/
def deliveryLease : Int := 120000000

/-- `_retry_delay`, in seconds. -/
def retryDelay (attempt : Nat) : Nat := min (2 ^ (attempt - 1)) 300

/-- `_delivery_error`; `errorName` is the class of the exception. -/
def deliveryError (channel : ArtifactDeliveryChannel) (errorName : String) : String :=
  channel.value ++ " delivery failed: " ++ errorName

/-! ### The publishers of one pull request -/

/-- How far the worker that holds a lease is. -/
inductive AttemptPhase where
  | leased | failed | returned
  deriving DecidableEq, Repr

/-- A delivery in the hands of a worker; `current` is the time its run of `deliver_pending` goes by. -/
structure DeliveryAttempt where
  lease : LeasedArtifactDelivery
  current : UtcTime
  phase : AttemptPhase

/-- When a failed delivery is due again; a date may not hold it. -/
def DeliveryAttempt.retryAt (attempt : DeliveryAttempt) : Option UtcTime :=
  attempt.current.add (retryDelay attempt.lease.attempt * 1000000)

/-- An artifact with what it presents. -/
structure RecordedReview where
  review : ReviewPresentation
  artifact : ProductArtifact

structure Publications where
  outbox : ArtifactOutbox
  /-- the body of the sticky comment -/
  comment : Option String
  attempts : List DeliveryAttempt
  /-- the artifacts in the order they were recorded in -/
  recorded : List RecordedReview
  /-- the artifacts whose comments GitHub took, in that order -/
  sent : List String

def Publications.empty : Publications := ⟨.empty, none, [], [], []⟩

inductive PublicationMove where
  /-- `publish` up to its deliveries -/
  | publish (review : ReviewPresentation) (recordedAt : Option SourceTime) (clock : UtcTime)
  /-- `deliver_pending`, for one artifact or for all, takes up a delivery -/
  | claim (artifactId : Option String) (current : UtcTime) (uuid : UuidHex)
  /-- GitHub does what a worker asks for; the answer may be lost -/
  | send (index : Nat) (answered : Bool)
  | acknowledge (index : Nat)
  /-- a delivery that failed, before GitHub did anything or after, is returned -/
  | retry (index : Nat) (errorName : String)
  /-- the process of a worker ends -/
  | crash (index : Nat)

section
variable (sha256 floatRepr : String → String) (repository : String) (number : Int)

/-- A call of the client that GitHub carries out: `publish_comment` writes the sticky comment of its pull request. -/
def Publications.carryOut (s : Publications) (artifactId : String) : GitHubCall → Publications
  | .check .. => s
  | .comment target prNumber body =>
    if target = repository ∧ prNumber = number then
      { s with comment := some (markedBody stickyMarker body), sent := s.sent ++ [artifactId] }
    else s

def Publications.setPhase (s : Publications) (index : Nat) (attempt : DeliveryAttempt) (phase : AttemptPhase) :
    Publications :=
  { s with attempts := s.attempts.set index { attempt with phase := phase } }

/-- A worker is done with a delivery, and the outbox is left as `outbox`. -/
def Publications.release (s : Publications) (index : Nat) (outbox : ArtifactOutbox) : Publications :=
  { s with outbox := outbox, attempts := s.attempts.eraseIdx index }

def publish (s : Publications) (review : ReviewPresentation) (recordedAt : Option SourceTime) (clock : UtcTime) :
    Publications :=
  match reviewArtifact sha256 repository number review with
  | none => s
  | some artifact =>
    match s.outbox.record artifact recordedAt clock with
    | (outbox, .ok true) => { s with outbox := outbox, recorded := s.recorded ++ [⟨review, artifact⟩] }
    | (outbox, _) => { s with outbox := outbox }

def claim (s : Publications) (artifactId : Option String) (current : UtcTime) (uuid : UuidHex) : Publications :=
  match s.outbox.claimNext (some ⟨current, true⟩) deliveryLease artifactId uuid current with
  | (outbox, .ok (some lease)) =>
    { s with outbox := outbox, attempts := s.attempts ++ [⟨lease, current, .leased⟩] }
  | (outbox, _) => { s with outbox := outbox }

/-- The exception of a failed delivery is raised again once its lease is returned. -/
def returnDelivery (s : Publications) (index : Nat) (attempt : DeliveryAttempt) (errorName : String) : Publications :=
  match attempt.retryAt with
  | none => s.release index s.outbox
  | some retryAt => s.release index
      (s.outbox.retry attempt.lease (deliveryError attempt.lease.intent.channel errorName) ⟨retryAt, true⟩).1

def publicationStep (s : Publications) : PublicationMove → Publications × Unit
  | .publish review recordedAt clock => (publish sha256 repository number s review recordedAt clock, ())
  | .claim artifactId current uuid => (claim s artifactId current uuid, ())
  | .send index answered =>
    match s.attempts[index]? with
    | some attempt =>
      if attempt.phase = .leased then
        match deliver floatRepr attempt.lease.intent with
        | .ok call =>
          ((s.carryOut repository number attempt.lease.artifactId call).setPhase index attempt
            (if answered then .returned else .failed), ())
        | .error _ => (s, ())
      else (s, ())
    | none => (s, ())
  | .acknowledge index =>
    match s.attempts[index]? with
    | some attempt =>
      if attempt.phase = .returned then
        (s.release index
          (s.outbox.acknowledge attempt.lease (some ⟨attempt.current, true⟩) attempt.current).1, ())
      else (s, ())
    | none => (s, ())
  | .retry index errorName =>
    match s.attempts[index]? with
    | some attempt =>
      if attempt.phase ≠ .returned then (returnDelivery s index attempt errorName, ()) else (s, ())
    | none => (s, ())
  | .crash index => (s.release index s.outbox, ())

end

end EngineeringIntelligence.PrGuardian
