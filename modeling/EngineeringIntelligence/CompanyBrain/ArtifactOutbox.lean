import EngineeringIntelligence.CompanyBrain.DecisionContext
import EngineeringIntelligence.Framework.UtcOrder
import EngineeringIntelligence.Ingestion.Models

namespace EngineeringIntelligence.CompanyBrain

open EngineeringIntelligence.Framework EngineeringIntelligence.Ingestion

/-! `SqliteArtifactOutbox`. Every method is one immediate transaction. A time is stored as the text
that `isoformat` prints, and the queries compare the texts. -/

inductive ArtifactDeliveryChannel where
  | githubCheck | githubComment
  deriving DecidableEq, Repr

def ArtifactDeliveryChannel.value : ArtifactDeliveryChannel → String
  | githubCheck => "github_check"
  | githubComment => "github_comment"

inductive ArtifactDeliveryState where
  | pending | leased | delivered
  deriving DecidableEq, Repr

/-- One idempotent external delivery. Its payload is the canonical text of a JSON object. -/
structure ArtifactDeliveryIntent where
  deliveryKey : String
  channel : ArtifactDeliveryChannel
  idempotencyKey : String
  payloadJson : String
  identifiers : matchesIdentifier deliveryKey = true ∧ matchesIdentifier idempotencyKey = true
  canonical : ∃ fields, payloadJson = (Json.obj fields).dumpsUnicode
  size : payloadJson.utf8ByteSize ≤ 64 * 1024

/-- The test of `_product`. -/
def isProduct (value : String) : Bool :=
  match value.toList with
  | [] => false
  | c :: rest => c.isLower && decide (rest.length ≤ 79) &&
      rest.all fun d => d.isLower || d.isDigit || d = '-'

/-- What an artifact, its row and the leases of its deliveries have in common. -/
structure ArtifactHeader where
  artifactId : String
  product : String
  scopeId : String
  correlationId : String
  contextVersion : String
  valid : matchesIdentifier artifactId = true ∧ isProduct product = true ∧
    matchesIdentifier scopeId = true ∧ matchesIdentifier correlationId = true ∧
    required 240 contextVersion = true

/-- The product result that is recorded before its publication begins. -/
structure ProductArtifact extends ArtifactHeader where
  deliveries : List ArtifactDeliveryIntent
  count : deliveries ≠ [] ∧ deliveries.length ≤ 32
  sorted : deliveries = sortedBy (·.deliveryKey) deliveries
  deliveryKeys : (deliveries.map (·.deliveryKey)).Nodup
  idempotencyKeys : (deliveries.map (·.idempotencyKey)).Nodup

def ProductArtifact.payload (a : ProductArtifact) : Json :=
  .obj [("artifact_id", .str a.artifactId), ("product", .str a.product), ("scope_id", .str a.scopeId),
    ("correlation_id", .str a.correlationId), ("context_version", .str a.contextVersion),
    ("deliveries", .arr (a.deliveries.map fun item =>
      .obj [("delivery_key", .str item.deliveryKey), ("channel", .str item.channel.value),
        ("idempotency_key", .str item.idempotencyKey), ("payload_json", .str item.payloadJson)]))]

/-- One delivery lease held by a dispatcher. -/
structure LeasedArtifactDelivery extends ArtifactHeader where
  intent : ArtifactDeliveryIntent
  attempt : Nat
  leaseToken : String
  leaseExpiresAt : UtcTime
  positive : 1 ≤ attempt
  token : matchesIdentifier leaseToken = true

def LeasedArtifactDelivery.key (d : LeasedArtifactDelivery) : String × String :=
  (d.artifactId, d.intent.deliveryKey)

/-- What `uuid.uuid4().hex` gives. -/
structure UuidHex where
  text : String
  valid : text.toList.length = 32 ∧ ∀ c ∈ text.toList, c.isDigit = true ∨ ('a' ≤ c ∧ c ≤ 'f')

def UuidHex.leaseToken (uuid : UuidHex) : String := "lease:" ++ uuid.text

theorem UuidHex.matchesIdentifier_leaseToken (uuid : UuidHex) :
    matchesIdentifier uuid.leaseToken = true := by
  obtain ⟨hlength, hall⟩ := uuid.valid
  have htext : uuid.leaseToken.toList = 'l' :: (['e', 'a', 's', 'e', ':'] ++ uuid.text.toList) := by
    rw [UuidHex.leaseToken, String.toList_append]
    rfl
  have hhex : ∀ c ∈ uuid.text.toList, c.isAlphanum = true := by
    intro c hc
    rcases hall c hc with hdigit | ⟨ha, hf⟩
    · simp [Char.isAlphanum, hdigit]
    · have hz : c ≤ 'z' := hf.trans (by decide)
      have hlower : c.isLower = true := Bool.and_eq_true_iff.mpr ⟨decide_eq_true ha, decide_eq_true hz⟩
      have halpha : c.isAlpha = true := Bool.or_eq_true_iff.mpr (.inr hlower)
      simp [Char.isAlphanum, halpha]
  have hstart : ∀ c ∈ ['e', 'a', 's', 'e', ':'], (c.isAlphanum || c ∈ [':', '.', '_', '/', '@', '-']) = true :=
    List.all_eq_true.mp (by decide)
  rw [matchesIdentifier, htext]
  simp only [Bool.and_eq_true, decide_eq_true_eq, List.all_eq_true, List.length_append, hlength]
  refine ⟨⟨by decide, by decide⟩, fun c hc => ?_⟩
  rcases List.mem_append.mp hc with hc | hc
  · exact hstart c hc
  · rw [hhex c hc]
    rfl

/-! ### Rows -/

structure StoredArtifact where
  header : ArtifactHeader
  payload : String
  recordedAt : String

def StoredArtifact.key (row : StoredArtifact) : String := row.header.artifactId

structure StoredDelivery where
  artifactId : String
  intent : ArtifactDeliveryIntent
  state : ArtifactDeliveryState
  attempts : Nat
  availableAt : String
  leaseToken : Option String
  leaseExpiresAt : Option String
  lastError : Option String
  deliveredAt : Option String

def StoredDelivery.key (row : StoredDelivery) : String × String := (row.artifactId, row.intent.deliveryKey)

structure ArtifactOutbox where
  artifacts : Table StoredArtifact.key
  deliveries : Table StoredDelivery.key

def ArtifactOutbox.empty : ArtifactOutbox := ⟨Table.empty, Table.empty⟩

inductive OutboxError where
  | artifactOutbox (message : String)
  /-- `sqlite3.IntegrityError` -/
  | integrity (message : String)
  /-- `OverflowError` of a date -/
  | overflow
  deriving DecidableEq, Repr

/-- The row of a delivery that is planned with its artifact. -/
def StoredDelivery.planned (artifactId now : String) (intent : ArtifactDeliveryIntent) : StoredDelivery :=
  { artifactId, intent, state := .pending, attempts := 0, availableAt := now, leaseToken := none
    leaseExpiresAt := none, lastError := none, deliveredAt := none }

/-- What `claim_next`, `acknowledge` and `retry` write over a row. -/
def StoredDelivery.leasedTo (leaseToken leaseExpiresAt : String) (row : StoredDelivery) : StoredDelivery :=
  { row with state := .leased, attempts := row.attempts + 1, leaseToken := some leaseToken
             leaseExpiresAt := some leaseExpiresAt, lastError := none }

def StoredDelivery.acknowledged (deliveredAt : String) (row : StoredDelivery) : StoredDelivery :=
  { row with state := .delivered, deliveredAt := some deliveredAt, leaseToken := none
             leaseExpiresAt := none, lastError := none }

def StoredDelivery.requeued (error retryAt : String) (row : StoredDelivery) : StoredDelivery :=
  { row with state := .pending, availableAt := retryAt, leaseToken := none, leaseExpiresAt := none
             lastError := some error }

/-- The lease `claim_next` returns for the row it takes. -/
def StoredDelivery.lease (header : ArtifactHeader) (uuid : UuidHex) (leaseExpiresAt : UtcTime)
    (row : StoredDelivery) : LeasedArtifactDelivery :=
  ⟨header, row.intent, row.attempts + 1, uuid.leaseToken, leaseExpiresAt, Nat.le_add_left 1 row.attempts,
    uuid.matchesIdentifier_leaseToken⟩

/-- The row `claim_next` may take: waiting and due, or leased with the lease run out. -/
def StoredDelivery.due (now : String) (row : StoredDelivery) : Bool :=
  (row.state = .pending && row.availableAt ≤ now) ||
    (row.state = .leased && row.leaseExpiresAt.any (· ≤ now))

/-! ### Methods -/

/-- `_utc`. -/
def inUtc (value : SourceTime) (label : String) : Except OutboxError UtcTime :=
  if value.aware then .ok value.utc else .error (.artifactOutbox (label ++ " must include a timezone"))

/-- `given or datetime.now(timezone.utc)`. -/
def orNow (given : Option SourceTime) (clock : UtcTime) : SourceTime := given.getD ⟨clock, true⟩

/-- `INSERT` of one planned delivery, under the two keys of its table. -/
def insertDelivery (artifactId now : String) (rows : Table StoredDelivery.key)
    (intent : ArtifactDeliveryIntent) : Except OutboxError (Table StoredDelivery.key) :=
  if (rows.get (artifactId, intent.deliveryKey)).isSome then
    .error (.integrity ("UNIQUE constraint failed: company_brain_artifact_deliveries.artifact_id, " ++
      "company_brain_artifact_deliveries.delivery_key"))
  else if rows.rows.any (·.intent.idempotencyKey = intent.idempotencyKey) then
    .error (.integrity "UNIQUE constraint failed: company_brain_artifact_deliveries.idempotency_key")
  else .ok (rows.put (.planned artifactId now intent))

namespace ArtifactOutbox

variable (o : ArtifactOutbox)

/-- `record`. -/
def record (artifact : ProductArtifact) (recordedAt : Option SourceTime) (clock : UtcTime) :
    ArtifactOutbox × Except OutboxError Bool :=
  match inUtc (orNow recordedAt clock) "artifact recorded_at" with
  | .error x => (o, .error x)
  | .ok now =>
    match o.artifacts.get artifact.artifactId with
    | some row =>
      if row.payload ≠ artifact.payload.dumpsUnicode then
        (o, .error (.artifactOutbox "product artifact_id conflicts with retained history"))
      else (o, .ok false)
    | none =>
      -- a refused insertion rolls the artifact back as well
      match artifact.deliveries.foldlM (insertDelivery artifact.artifactId now.isoformat) o.deliveries with
      | .error x => (o, .error x)
      | .ok deliveries =>
        (⟨o.artifacts.put ⟨artifact.toArtifactHeader, artifact.payload.dumpsUnicode, now.isoformat⟩,
          deliveries⟩, .ok true)

/-- The row with its artifact that the query of `claim_next` selects. -/
def nextDue (now : String) (artifactId : Option String) : Option (StoredArtifact × StoredDelivery) :=
  let joined := o.deliveries.rows.filterMap fun row =>
    (o.artifacts.get row.artifactId).map fun artifact => (artifact, row)
  (sortedBy (fun p => [p.2.availableAt, p.2.artifactId, p.2.intent.deliveryKey])
    (joined.filter fun p => p.2.due now && artifactId.all (p.2.artifactId = ·))).head?

theorem nextDue_spec {o : ArtifactOutbox} {now : String} {artifactId : Option String}
    {artifact : StoredArtifact} {row : StoredDelivery}
    (h : o.nextDue now artifactId = some (artifact, row)) :
    o.deliveries.get row.key = some row ∧ o.artifacts.get row.artifactId = some artifact ∧
      row.due now = true ∧ artifactId.all (row.artifactId = ·) = true := by
  have hmem := mem_sortedBy.mp (List.mem_of_mem_head? h)
  obtain ⟨hjoined, hdue⟩ := List.mem_filter.mp hmem
  obtain ⟨row', hrow, hpair⟩ := List.mem_filterMap.mp hjoined
  obtain ⟨artifact', hartifact, heq⟩ := Option.map_eq_some_iff.mp hpair
  obtain ⟨rfl, rfl⟩ := Prod.mk.inj heq
  rw [Bool.and_eq_true] at hdue
  exact ⟨Table.get_of_mem hrow, hartifact, hdue.1, hdue.2⟩

/-- The `UPDATE` of `claim_next`, with the lease it returns. -/
def leaseRow (header : ArtifactHeader) (row : StoredDelivery) (uuid : UuidHex) :
    Option UtcTime → ArtifactOutbox × Except OutboxError (Option LeasedArtifactDelivery)
  | none => (o, .error .overflow)
  | some leaseExpiresAt =>
    (⟨o.artifacts, o.deliveries.update row.key (.leasedTo uuid.leaseToken leaseExpiresAt.isoformat)
      fun _ => rfl⟩, .ok (some (row.lease header uuid leaseExpiresAt)))

/-- The transaction of `claim_next`. -/
def leaseNextDue (current : UtcTime) (leaseDuration : Int) (artifactId : Option String) (uuid : UuidHex) :
    ArtifactOutbox × Except OutboxError (Option LeasedArtifactDelivery) :=
  match o.nextDue current.isoformat artifactId with
  | none => (o, .ok none)
  | some (artifact, row) => o.leaseRow artifact.header row uuid (current.add leaseDuration.toNat)

/-- `claim_next`. -/
def claimNext (now : Option SourceTime) (leaseDuration : Int) (artifactId : Option String)
    (uuid : UuidHex) (clock : UtcTime) :
    ArtifactOutbox × Except OutboxError (Option LeasedArtifactDelivery) :=
  if leaseDuration ≤ 0 ∨ 300000000 < leaseDuration then
    (o, .error (.artifactOutbox "artifact lease_duration is invalid"))
  else if artifactId.any (fun id => !matchesIdentifier id) then
    (o, .error (.artifactOutbox "artifact_id is invalid"))
  else
    match inUtc (orNow now clock) "artifact claim time" with
    | .error x => (o, .error x)
    | .ok current => o.leaseNextDue current leaseDuration artifactId uuid

/-- `_require_lease`. -/
def requireLease (delivery : LeasedArtifactDelivery) : Except OutboxError Unit :=
  match o.deliveries.get delivery.key with
  | none => .error (.artifactOutbox "artifact delivery is not currently leased")
  | some row =>
    if row.state ≠ .leased then .error (.artifactOutbox "artifact delivery is not currently leased")
    else if row.leaseToken.getD "" ≠ delivery.leaseToken then
      .error (.artifactOutbox "artifact delivery lease token does not match")
    else .ok ()

/-- `acknowledge`. -/
def acknowledge (delivery : LeasedArtifactDelivery) (deliveredAt : Option SourceTime) (clock : UtcTime) :
    ArtifactOutbox × Except OutboxError Unit :=
  match inUtc (orNow deliveredAt clock) "artifact delivered_at" with
  | .error x => (o, .error x)
  | .ok timestamp =>
    match o.requireLease delivery with
    | .error x => (o, .error x)
    | .ok () =>
      (⟨o.artifacts, o.deliveries.update delivery.key (.acknowledged timestamp.isoformat) fun _ => rfl⟩,
        .ok ())

/-- `retry`. -/
def retry (delivery : LeasedArtifactDelivery) (error : String) (retryAt : SourceTime) :
    ArtifactOutbox × Except OutboxError Unit :=
  if !required 500 error then (o, .error (.artifactOutbox "artifact delivery error is invalid"))
  else
    match inUtc retryAt "artifact retry_at" with
    | .error x => (o, .error x)
    | .ok retryTimestamp =>
      match o.requireLease delivery with
      | .error x => (o, .error x)
      | .ok () =>
        (⟨o.artifacts, o.deliveries.update delivery.key (.requeued error retryTimestamp.isoformat)
          fun _ => rfl⟩, .ok ())

end ArtifactOutbox

/-! ### Calls -/

inductive OutboxRequest where
  | record (artifact : ProductArtifact) (recordedAt : Option SourceTime)
  | claimNext (now : Option SourceTime) (leaseDuration : Int) (artifactId : Option String) (uuid : UuidHex)
  | acknowledge (delivery : LeasedArtifactDelivery) (deliveredAt : Option SourceTime)
  | retry (delivery : LeasedArtifactDelivery) (error : String) (retryAt : SourceTime)

/-- A call of some worker, with what the clock reads then. -/
structure OutboxCall where
  clock : UtcTime
  request : OutboxRequest

inductive OutboxAnswer where
  | recorded (new : Bool)
  | claimed (lease : Option LeasedArtifactDelivery)
  | done

def ArtifactOutbox.step (o : ArtifactOutbox) (call : OutboxCall) :
    ArtifactOutbox × Except OutboxError OutboxAnswer :=
  match call.request with
  | .record artifact recordedAt =>
    ((o.record artifact recordedAt call.clock).1, (o.record artifact recordedAt call.clock).2.map .recorded)
  | .claimNext now leaseDuration artifactId uuid =>
    ((o.claimNext now leaseDuration artifactId uuid call.clock).1,
      (o.claimNext now leaseDuration artifactId uuid call.clock).2.map .claimed)
  | .acknowledge delivery deliveredAt =>
    ((o.acknowledge delivery deliveredAt call.clock).1,
      (o.acknowledge delivery deliveredAt call.clock).2.map fun _ => .done)
  | .retry delivery error retryAt =>
    ((o.retry delivery error retryAt).1, (o.retry delivery error retryAt).2.map fun _ => .done)

/-- The moment a call is made at: the `now` a claim is given, else what the clock reads. -/
def OutboxCall.now (call : OutboxCall) : UtcTime :=
  match call.request with
  | .claimNext now .. => (orNow now call.clock).utc
  | _ => call.clock

/-- The token a claim hands out if it finds a delivery. -/
def OutboxCall.freshToken (call : OutboxCall) : Option String :=
  match call.request with
  | .claimNext _ _ _ uuid => some uuid.leaseToken
  | _ => none

/-- The lease a worker reports on. -/
def OutboxCall.presented (call : OutboxCall) : Option LeasedArtifactDelivery :=
  match call.request with
  | .acknowledge delivery _ | .retry delivery _ _ => some delivery
  | _ => none

end EngineeringIntelligence.CompanyBrain
