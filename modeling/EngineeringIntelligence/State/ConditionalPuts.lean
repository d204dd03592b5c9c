import EngineeringIntelligence.Framework.VersionedCell
import EngineeringIntelligence.State.CosmosAppends

namespace EngineeringIntelligence.State

open EngineeringIntelligence.Framework

/-! `put_service` and `put_workflow` of the two state stores. SQLite reads and writes in one
transaction; Cosmos reads, and later writes under the etag it has read. -/

/-- The authoritative record of one service. A float is known by its `repr`. -/
structure ServiceRecord where
  serviceId : String
  owner : String
  tier : Int
  repositories : List String
  dependencies : List String
  sloTarget : Option String
  autonomyLevel : Int
  metadata : List (String × String)
  version : Int
  deriving DecidableEq, Repr

/-- `asdict(record)`. -/
def ServiceRecord.asdict (r : ServiceRecord) : List (String × Json) :=
  [("service_id", .str r.serviceId), ("owner", .str r.owner), ("tier", .int r.tier),
    ("repositories", .arr (r.repositories.map .str)), ("dependencies", .arr (r.dependencies.map .str)),
    ("slo_target", r.sloTarget.elim .null .float), ("autonomy_level", .int r.autonomyLevel),
    ("metadata", .obj (r.metadata.map fun p => (p.1, .str p.2))), ("version", .int r.version)]

/-- A record of either kind. -/
inductive StateRecord where
  | workflow (record : WorkflowRecord)
  | service (record : ServiceRecord)

namespace StateRecord

def kind : StateRecord → String
  | workflow _ => "workflow"
  | service _ => "service"

def key : StateRecord → String
  | workflow r => r.workflowId
  | service r => r.serviceId

def version : StateRecord → Int
  | workflow r => r.version
  | service r => r.version

/-- `replace(record, version=n)`. -/
def numbered (n : Int) : StateRecord → StateRecord
  | workflow r => workflow { r with version := n }
  | service r => service { r with version := n }

def asdict : StateRecord → List (String × Json)
  | workflow r => r.asdict
  | service r => r.asdict

@[simp] theorem version_numbered (n : Int) (r : StateRecord) : (r.numbered n).version = n := by
  cases r <;> rfl

@[simp] theorem kind_numbered (n : Int) (r : StateRecord) : (r.numbered n).kind = r.kind := by
  cases r <;> rfl

@[simp] theorem key_numbered (n : Int) (r : StateRecord) : (r.numbered n).key = r.key := by
  cases r <;> rfl

end StateRecord

/-- A call of `put_workflow` or `put_service`. -/
structure PutRequest where
  record : StateRecord
  expectedVersion : Option Int

/-- The version a put gives to what it stores. -/
def nextVersion (current : Option Int) : Int := current.elim 1 (· + 1)

theorem assertExpected_ok {current expected : Option Int} (h : assertExpected current expected = .ok ()) :
    ∀ v, expected = some v → current = some v := by
  intro v hv
  subst hv
  unfold assertExpected at h
  split at h
  · cases h
  · next hne => simpa using hne

theorem assertExpected_error {current expected : Option Int} {x : StateError}
    (h : assertExpected current expected = .error x) : ∃ m, x = .versionConflict m := by
  unfold assertExpected at h
  split at h
  · cases h
    exact ⟨_, rfl⟩
  · cases h

/-! ### SQLite -/

/-- The `services` table. -/
abbrev ServiceTable := AList (fun _ : String => WorkflowRow)

/-- `SqliteStateStore.put_service`. -/
def putService (record : ServiceRecord) (expectedVersion : Option Int) (db : ServiceTable) :
    ServiceTable × Except StateError ServiceRecord :=
  let current := (db.lookup record.serviceId).map (·.version)
  match assertExpected current expectedVersion with
  | .error x => (db, .error x)
  | .ok () =>
    let stored := { record with version := nextVersion current }
    (db.insert stored.serviceId ⟨.obj stored.asdict, stored.version⟩, .ok stored)

structure SqliteState where
  workflows : SqliteDb
  services : ServiceTable

namespace SqliteState

/-- One put; a call is one transaction. -/
def step (s : SqliteState) (request : PutRequest) : SqliteState × Except StateError StateRecord :=
  match request.record with
  | .workflow r =>
    ({ s with workflows := (SqliteDb.putWorkflow r request.expectedVersion s.workflows).1 },
      (SqliteDb.putWorkflow r request.expectedVersion s.workflows).2.map .workflow)
  | .service r =>
    ({ s with services := (putService r request.expectedVersion s.services).1 },
      (putService r request.expectedVersion s.services).2.map .service)

/-- The row of a record, by its kind and key. -/
def row (place : String × String) (s : SqliteState) : Option WorkflowRow :=
  if place.1 = "workflow" then s.workflows.workflows.lookup place.2
  else if place.1 = "service" then s.services.lookup place.2
  else none

/-- A put to the record that succeeds. -/
def won (place : String × String) (s : SqliteState) (request : PutRequest) :
    Option (Option Int × WorkflowRow) :=
  match (s.step request).2 with
  | .error _ => none
  | .ok stored =>
    if (stored.kind, stored.key) = place then
      some (request.expectedVersion, ⟨.obj stored.asdict, stored.version⟩)
    else none

end SqliteState

section
variable {s : SqliteState} {request : PutRequest}

theorem putWorkflow_eq (r : WorkflowRecord) (expected : Option Int) (db : SqliteDb) :
    SqliteDb.putWorkflow r expected db =
      match assertExpected ((db.workflows.lookup r.workflowId).map (·.version)) expected with
      | .error x => (db, .error x)
      | .ok () =>
        let stored := { r with
          version := nextVersion ((db.workflows.lookup r.workflowId).map (·.version)) }
        (db.writeWorkflow stored, .ok stored) := by
  unfold SqliteDb.putWorkflow SqliteDb.immediate
  dsimp only
  generalize (db.workflows.lookup r.workflowId).map (·.version) = current
  cases assertExpected current expected with
  | error x => rfl
  | ok u => cases current <;> rfl

theorem row_writeWorkflow (s : SqliteState) (r : WorkflowRecord) (place : String × String) :
    ({ s with workflows := s.workflows.writeWorkflow r } : SqliteState).row place =
      if place = ("workflow", r.workflowId) then some ⟨.obj r.asdict, r.version⟩ else s.row place := by
  obtain ⟨kind, key⟩ := place
  by_cases hkind : kind = "workflow"
  · subst hkind
    by_cases hkey : key = r.workflowId
    · subst hkey
      rw [if_pos rfl]
      exact AList.lookup_insert _
    · rw [if_neg fun hplace => hkey (Prod.mk.inj hplace).2]
      exact AList.lookup_insert_ne hkey
  · rw [if_neg fun hplace => hkind (Prod.mk.inj hplace).1]
    simp only [SqliteState.row, hkind, if_false]

theorem row_insertService (s : SqliteState) (r : ServiceRecord) (place : String × String) :
    ({ s with services := s.services.insert r.serviceId ⟨.obj r.asdict, r.version⟩ } :
        SqliteState).row place =
      if place = ("service", r.serviceId) then some ⟨.obj r.asdict, r.version⟩ else s.row place := by
  obtain ⟨kind, key⟩ := place
  by_cases hkind : kind = "service"
  · subst hkind
    have hother : ("service" : String) ≠ "workflow" := by decide
    simp only [SqliteState.row, hother, if_false, if_true]
    by_cases hkey : key = r.serviceId
    · subst hkey
      rw [if_pos rfl]
      exact AList.lookup_insert _
    · rw [if_neg fun hplace => hkey (Prod.mk.inj hplace).2]
      exact AList.lookup_insert_ne hkey
  · rw [if_neg fun hplace => hkind (Prod.mk.inj hplace).1]
    simp only [SqliteState.row, hkind, if_false]

/-- A losing put raises a version conflict and changes nothing. -/
theorem SqliteState.step_error {x : StateError} (h : (s.step request).2 = .error x) :
    (∃ m, x = .versionConflict m) ∧ (s.step request).1 = s := by
  unfold step at h ⊢
  cases hrecord : request.record with
  | workflow r =>
    simp only [hrecord, putWorkflow_eq] at h ⊢
    cases hx : assertExpected ((s.workflows.workflows.lookup r.workflowId).map (·.version))
        request.expectedVersion with
    | error y =>
      simp only [hx] at h ⊢
      cases h
      exact ⟨assertExpected_error hx, trivial⟩
    | ok u =>
      simp only [hx] at h
      cases h
  | service r =>
    simp only [hrecord, putService] at h ⊢
    cases hx : assertExpected ((s.services.lookup r.serviceId).map (·.version))
        request.expectedVersion with
    | error y =>
      simp only [hx] at h ⊢
      cases h
      exact ⟨assertExpected_error hx, trivial⟩
    | ok u =>
      simp only [hx] at h
      cases h

/-- A put that succeeds knew the present version, if it expected any, and leaves the next. -/
theorem SqliteState.step_ok {stored : StateRecord} (h : (s.step request).2 = .ok stored) :
    (∀ v, request.expectedVersion = some v →
        (s.row (stored.kind, stored.key)).map (·.version) = some v) ∧
      stored.version = nextVersion ((s.row (stored.kind, stored.key)).map (·.version)) ∧
      ∀ place, (s.step request).1.row place = if place = (stored.kind, stored.key) then
        some ⟨.obj stored.asdict, stored.version⟩ else s.row place := by
  unfold step at h ⊢
  cases hrecord : request.record with
  | workflow r =>
    simp only [hrecord, putWorkflow_eq] at h ⊢
    cases hx : assertExpected ((s.workflows.workflows.lookup r.workflowId).map (·.version))
        request.expectedVersion with
    | error y =>
      simp only [hx] at h
      cases h
    | ok u =>
      simp only [hx] at h ⊢
      cases h
      exact ⟨assertExpected_ok hx, rfl, row_writeWorkflow s _⟩
  | service r =>
    simp only [hrecord, putService] at h ⊢
    cases hx : assertExpected ((s.services.lookup r.serviceId).map (·.version))
        request.expectedVersion with
    | error y =>
      simp only [hx] at h
      cases h
    | ok u =>
      simp only [hx] at h ⊢
      cases h
      exact ⟨assertExpected_ok hx, rfl, row_insertService s
        { r with version := nextVersion ((s.services.lookup r.serviceId).map (·.version)) }⟩

end

theorem nextVersion_eq (row : Option WorkflowRow) :
    nextVersion (row.map (·.version)) = row.elim 0 (·.version) + 1 := by
  cases row <;> rfl

theorem sqlite_cellLaw (place : String × String) :
    CellLaw SqliteState.step (fun _ => True) (SqliteState.row place) WorkflowRow.version
      (SqliteState.won place) where
  preserved _ _ _ := trivial
  kept s request _ hwon := by
    unfold SqliteState.won at hwon
    cases hstep : (s.step request).2 with
    | error x => rw [(SqliteState.step_error hstep).2]
    | ok stored =>
      simp only [hstep] at hwon
      split at hwon
      · cases hwon
      · next hplace =>
        obtain ⟨-, -, hrow⟩ := SqliteState.step_ok hstep
        rw [hrow, if_neg (Ne.symm hplace)]
  replaced s request expected r _ hwon := by
    unfold SqliteState.won at hwon
    cases hstep : (s.step request).2 with
    | error x =>
      simp only [hstep] at hwon
      cases hwon
    | ok stored =>
      simp only [hstep] at hwon
      split at hwon
      · next hplace =>
        cases hwon
        subst hplace
        obtain ⟨hexpected, hversion, hrow⟩ := SqliteState.step_ok hstep
        exact ⟨by rw [hrow, if_pos rfl], hversion.trans (nextVersion_eq _), hexpected⟩
      · cases hwon

/-! ### Cosmos -/

namespace Cosmos

/-- `_id` of a record. -/
def recordItem (r : StateRecord) : String := itemId r.kind r.key

/-- The document `_write` sends. -/
def recordBody (stored : StateRecord) : CosmosItem :=
  [("id", .str (recordItem stored)), ("partition_key", .str (recordItem stored)),
    ("kind", .str stored.kind), ("version", .int stored.version), ("payload", .obj stored.asdict)]

/-- A put up to its write: what it will store over the document it has read. -/
def preparePut (request : PutRequest) (current : Option CosmosItem) : Except StateError StateRecord := do
  let currentVersion ← match current with
    | none => .ok none
    | some item => (integerField item "version" 1).map some
  assertExpected currentVersion request.expectedVersion
  return request.record.numbered (nextVersion currentVersion)

/-- `_write`: a document that was not there is created, one that was is replaced if its etag is
still the one read. -/
def writeRecord (stored : StateRecord) (current : Option CosmosItem) (c : CosmosContainer) :
    CosmosContainer × Except StateError Unit :=
  let sent (written : Option CosmosContainer) : CosmosContainer × Except StateError Unit :=
    match written with
    | some c' => (c', .ok ())
    | none => (c, .error (.versionConflict "Cosmos conditional write conflict"))
  match current with
  | none => sent (c.runOperation (recordItem stored) (.create (recordBody stored)))
  | some raw =>
    match textField raw "_etag" with
    | .error x => (c, .error x)
    | .ok etag =>
      sent (c.runOperation (recordItem stored) (.replace (recordItem stored) (recordBody stored) etag))

/-- `put_workflow` and `put_service`, when nothing comes between their read and their write. -/
def putRecord (request : PutRequest) (c : CosmosContainer) :
    CosmosContainer × Except StateError StateRecord :=
  let current := c.readItem (recordItem request.record) (recordItem request.record)
  match preparePut request current with
  | .error x => (c, .error x)
  | .ok stored =>
    match writeRecord stored current c with
    | (c', .error x) => (c', .error x)
    | (c', .ok ()) => (c', .ok stored)

/-- A put between its read and its write. -/
structure InFlight where
  request : PutRequest
  stored : StateRecord
  current : Option CosmosItem

/-- Clients of one container, each with at most one put under way. -/
structure Clients (κ : Type) where
  container : CosmosContainer
  inFlight : κ → Option InFlight

/-- A client reads for a put, or sends the write of the put it has read for. -/
inductive ClientMove (κ : Type) where
  | read (client : κ) (request : PutRequest)
  | write (client : κ)

section
variable {κ : Type} [DecidableEq κ]

def Clients.empty : Clients κ := ⟨.empty, fun _ => none⟩

/-- The clients after a move, and the put that returns or raises with it. -/
def Clients.step (s : Clients κ) : ClientMove κ → Clients κ × Option (PutRequest × Except StateError StateRecord)
  | .read client request =>
    match s.inFlight client with
    | some _ => (s, none)
    | none =>
      let current := s.container.readItem (recordItem request.record) (recordItem request.record)
      match preparePut request current with
      | .error x => (s, some (request, .error x))
      | .ok stored =>
        ({ s with inFlight := Function.update s.inFlight client (some ⟨request, stored, current⟩) }, none)
  | .write client =>
    match s.inFlight client with
    | none => (s, none)
    | some p =>
      let (container, sent) := writeRecord p.stored p.current s.container
      (⟨container, Function.update s.inFlight client none⟩, some (p.request, sent.map fun _ => p.stored))

/-- A client that writes right after its read has made the whole call. -/
theorem read_then_write {s : Clients κ} {client : κ} (h : s.inFlight client = none) (request : PutRequest) :
    (runState Clients.step s [.read client request, .write client]).container =
        (putRecord request s.container).1 ∧
      ((s.step (.read client request)).2.or ((s.step (.read client request)).1.step (.write client)).2) =
        some (request, (putRecord request s.container).2) := by
  simp only [runState_cons, runState_nil]
  cases hprepared : preparePut request (s.container.readItem (recordItem request.record)
      (recordItem request.record)) with
  | error x => simp [Clients.step, putRecord, h, hprepared]
  | ok stored =>
    generalize hsent : writeRecord stored (s.container.readItem (recordItem request.record)
      (recordItem request.record)) s.container = out
    obtain ⟨c', answer⟩ := out
    cases answer with
    | error x => simp [Clients.step, putRecord, h, hprepared, hsent, Except.map]
    | ok u => simp [Clients.step, putRecord, h, hprepared, hsent, Except.map]

/-- The document of a record. -/
def Clients.document (item : String) (s : Clients κ) : Option CosmosItem :=
  (s.container.documents.lookup (item, item)).map (·.body)

def documentVersion (body : CosmosItem) : Int :=
  match Json.get body "version" with
  | .int n => n
  | _ => 0

/-- A put to the record that succeeds. -/
def Clients.won (item : String) (s : Clients κ) (move : ClientMove κ) : Option (Option Int × CosmosItem) :=
  match (s.step move).2 with
  | some (request, .ok stored) =>
    if recordItem stored = item then some (request.expectedVersion, recordBody stored) else none
  | _ => none

end

/-! The document a put has read is known by its etag: while the etag stands, so does the version
the put was prepared for. -/

section
variable {c : CosmosContainer} {request : PutRequest} {stored : StateRecord}

@[simp] theorem recordItem_numbered (n : Int) (r : StateRecord) :
    recordItem (r.numbered n) = recordItem r := by
  simp [recordItem]

@[simp] theorem documentVersion_recordBody (r : StateRecord) :
    documentVersion (recordBody r) = r.version := rfl

theorem itemIdOf_recordBody (r : StateRecord) :
    CosmosContainer.itemIdOf (recordBody r) = some (recordItem r) := rfl

theorem integerField_recordBody {r : StateRecord} (h : 1 ≤ r.version) (etag : String) :
    integerField (recordBody r ++ [("_etag", .str etag)]) "version" 1 = .ok r.version := by
  have hget : Json.get (recordBody r ++ [("_etag", .str etag)]) "version" = .int r.version := rfl
  rw [integerField, hget]
  exact if_neg (by omega)

theorem textField_etag {etag : String} (r : StateRecord) (h : etag ≠ "") :
    textField (recordBody r ++ [("_etag", .str etag)]) "_etag" = .ok etag := by
  have hget : Json.get (recordBody r ++ [("_etag", .str etag)]) "_etag" = .str etag := rfl
  rw [textField, hget]
  exact if_neg h

/-- A document as a put leaves it, with an etag that has been handed out. -/
structure IsRecord (c : CosmosContainer) (item : String) (d : CosmosDocument) (r : StateRecord) : Prop where
  body : d.body = recordBody r
  item : recordItem r = item
  version : 1 ≤ r.version
  etag : ∃ n < c.writes, d.etag = etagOf n

theorem IsRecord.write {item : String} {d : CosmosDocument} {r : StateRecord} (h : IsRecord c item d r)
    (pk key : String) (body : CosmosItem) : IsRecord (c.write pk key body) item d r := by
  obtain ⟨n, hn, hetag⟩ := h.etag
  exact ⟨h.body, h.item, h.version, n, Nat.lt_succ_of_lt hn, hetag⟩

theorem preparePut_none_ok :
    preparePut request none = .ok stored ↔
      assertExpected none request.expectedVersion = .ok () ∧ stored = request.record.numbered 1 := by
  unfold preparePut
  cases hx : assertExpected none request.expectedVersion with
  | error x => simp [bind, Except.bind, hx]
  | ok u =>
    simp only [bind, Except.bind, hx, pure, Except.pure, Except.ok.injEq, true_and]
    exact eq_comm

theorem preparePut_some_ok {r : StateRecord} (h : 1 ≤ r.version) (etag : String) :
    preparePut request (some (recordBody r ++ [("_etag", .str etag)])) = .ok stored ↔
      assertExpected (some r.version) request.expectedVersion = .ok () ∧
        stored = request.record.numbered (r.version + 1) := by
  unfold preparePut
  simp only [integerField_recordBody h, Except.map]
  cases hx : assertExpected (some r.version) request.expectedVersion with
  | error x => simp [bind, Except.bind, hx]
  | ok u =>
    simp only [bind, Except.bind, hx, pure, Except.pure, Except.ok.injEq, true_and]
    exact eq_comm

theorem preparePut_none_error {x : StateError} (h : preparePut request none = .error x) :
    ∃ m, x = .versionConflict m := by
  unfold preparePut at h
  cases hx : assertExpected none request.expectedVersion with
  | error y =>
    simp only [bind, Except.bind, hx, Except.error.injEq] at h
    subst h
    exact assertExpected_error hx
  | ok u =>
    simp only [bind, Except.bind, hx] at h
    cases h

theorem preparePut_some_error {r : StateRecord} (hversion : 1 ≤ r.version) {etag : String} {x : StateError}
    (h : preparePut request (some (recordBody r ++ [("_etag", .str etag)])) = .error x) :
    ∃ m, x = .versionConflict m := by
  unfold preparePut at h
  simp only [integerField_recordBody hversion, Except.map] at h
  cases hx : assertExpected (some r.version) request.expectedVersion with
  | error y =>
    simp only [bind, Except.bind, hx, Except.error.injEq] at h
    subst h
    exact assertExpected_error hx
  | ok u =>
    simp only [bind, Except.bind, hx] at h
    cases h

/-- What a put under way goes by. -/
inductive ReadFor (c : CosmosContainer) (p : InFlight) : Prop
  | absent (current : p.current = none)
      (expected : assertExpected none p.request.expectedVersion = .ok ())
      (stored : p.stored = p.request.record.numbered 1)
  | found {d : CosmosDocument} {r : StateRecord}
      (record : IsRecord c (recordItem p.request.record) d r)
      (current : p.current = some (recordBody r ++ [("_etag", .str d.etag)]))
      (expected : assertExpected (some r.version) p.request.expectedVersion = .ok ())
      (stored : p.stored = p.request.record.numbered (r.version + 1))
      (standing : ∀ d', c.documents.lookup (recordItem p.request.record, recordItem p.request.record) =
        some d' → d'.etag = d.etag → d' = d)

theorem ReadFor.recordItem_stored {p : InFlight} (h : ReadFor c p) :
    recordItem p.stored = recordItem p.request.record := by
  cases h with
  | absent _ _ hstored => rw [hstored, recordItem_numbered]
  | found _ _ _ hstored _ => rw [hstored, recordItem_numbered]

/-- A write hands out an etag nobody has read. -/
theorem ReadFor.write {p : InFlight} (h : ReadFor c p) (item : String) (body : CosmosItem) :
    ReadFor (c.write item item body) p := by
  cases h with
  | absent hcurrent hexpected hstored => exact .absent hcurrent hexpected hstored
  | @found d r hrecord hcurrent hexpected hstored hstanding =>
    refine .found (hrecord.write item item body) hcurrent hexpected hstored ?_
    intro d' hd' hetag
    by_cases hitem : recordItem p.request.record = item
    · subst hitem
      rw [lookup_write_self, Option.some.injEq] at hd'
      obtain ⟨n, hn, hread⟩ := hrecord.etag
      have hsame : etagOf c.writes = etagOf n := by
        rw [← hread, ← hetag, ← hd']
        rfl
      have hwrites := etagOf_injective hsame
      omega
    · rw [lookup_write_ne fun hkey => hitem (Prod.mk.inj hkey).1] at hd'
      exact hstanding d' hd' hetag

/-- A write that goes through met the version it was prepared for. -/
theorem writeRecord_ok {p : InFlight} {c' : CosmosContainer} (h : ReadFor c p)
    (hsent : writeRecord p.stored p.current c = (c', .ok ())) :
    c' = c.write (recordItem p.request.record) (recordItem p.request.record) (recordBody p.stored) ∧
      ((c.documents.lookup (recordItem p.request.record, recordItem p.request.record) = none ∧
          assertExpected none p.request.expectedVersion = .ok () ∧ p.stored.version = 1) ∨
        ∃ d r, c.documents.lookup (recordItem p.request.record, recordItem p.request.record) = some d ∧
          d.body = recordBody r ∧ assertExpected (some r.version) p.request.expectedVersion = .ok () ∧
          p.stored.version = r.version + 1) := by
  have hitem := h.recordItem_stored
  cases h with
  | absent hcurrent hexpected hstored =>
    simp only [writeRecord, hcurrent] at hsent
    cases hrun : c.runOperation (recordItem p.stored) (.create (recordBody p.stored)) with
    | none =>
      simp only [hrun] at hsent
      cases hsent
    | some written =>
      simp only [hrun, Prod.mk.injEq, and_true] at hsent
      subst hsent
      obtain ⟨hlookup, hwritten⟩ := (runOperation_create (itemIdOf_recordBody p.stored)).mp hrun
      rw [hitem] at hlookup hwritten
      exact ⟨hwritten.symm, .inl ⟨hlookup, hexpected, by rw [hstored, StateRecord.version_numbered]⟩⟩
  | @found d r hrecord hcurrent hexpected hstored hstanding =>
    obtain ⟨n, -, hetag⟩ := hrecord.etag
    have hne : d.etag ≠ "" := by
      rw [hetag]
      exact etagOf_ne_blank n
    simp only [writeRecord, hcurrent, textField_etag r hne] at hsent
    cases hrun : c.runOperation (recordItem p.stored)
        (.replace (recordItem p.stored) (recordBody p.stored) d.etag) with
    | none =>
      simp only [hrun] at hsent
      cases hsent
    | some written =>
      simp only [hrun, Prod.mk.injEq, and_true] at hsent
      subst hsent
      obtain ⟨d', hlookup, hsame, hwritten⟩ := runOperation_replace.mp hrun
      rw [hitem] at hlookup hwritten
      have hd : d' = d := hstanding d' hlookup hsame
      subst hd
      exact ⟨hwritten.symm, .inr ⟨d', r, hlookup, hrecord.body, hexpected,
        by rw [hstored, StateRecord.version_numbered]⟩⟩

/-- A write that loses raises a version conflict and leaves the container. -/
theorem writeRecord_error {p : InFlight} {c' : CosmosContainer} {x : StateError} (h : ReadFor c p)
    (hsent : writeRecord p.stored p.current c = (c', .error x)) :
    c' = c ∧ ∃ m, x = .versionConflict m := by
  cases h with
  | absent hcurrent hexpected hstored =>
    simp only [writeRecord, hcurrent] at hsent
    cases hrun : c.runOperation (recordItem p.stored) (.create (recordBody p.stored)) with
    | none =>
      simp only [hrun, Prod.mk.injEq, Except.error.injEq] at hsent
      exact ⟨hsent.1.symm, _, hsent.2.symm⟩
    | some written =>
      simp only [hrun] at hsent
      cases hsent
  | @found d r hrecord hcurrent hexpected hstored hstanding =>
    obtain ⟨n, -, hetag⟩ := hrecord.etag
    have hne : d.etag ≠ "" := by
      rw [hetag]
      exact etagOf_ne_blank n
    simp only [writeRecord, hcurrent, textField_etag r hne] at hsent
    cases hrun : c.runOperation (recordItem p.stored)
        (.replace (recordItem p.stored) (recordBody p.stored) d.etag) with
    | none =>
      simp only [hrun, Prod.mk.injEq, Except.error.injEq] at hsent
      exact ⟨hsent.1.symm, _, hsent.2.symm⟩
    | some written =>
      simp only [hrun] at hsent
      cases hsent

end

section
variable {κ : Type}

/-- Every document is a record some put stored, and every put under way has read one. -/
structure Coherent (s : Clients κ) : Prop where
  documents : ∀ item d, s.container.documents.lookup (item, item) = some d →
    ∃ r, IsRecord s.container item d r
  reads : ∀ client p, s.inFlight client = some p → ReadFor s.container p

theorem coherent_empty : Coherent (Clients.empty : Clients κ) :=
  ⟨fun _ _ h => by simp [Clients.empty, CosmosContainer.empty] at h, fun _ _ h => nomatch h⟩

theorem readItem_eq_some {c : CosmosContainer} {item : String} {raw : CosmosItem}
    (h : c.readItem item item = some raw) :
    ∃ d, c.documents.lookup (item, item) = some d ∧ raw = d.body ++ [("_etag", .str d.etag)] := by
  obtain ⟨d, hd, rfl⟩ := Option.map_eq_some_iff.mp h
  exact ⟨d, hd, rfl⟩

/-- What a put that has just read goes by. -/
theorem Coherent.readFor {s : Clients κ} (h : Coherent s) {request : PutRequest} {stored : StateRecord}
    (hprepared : preparePut request (s.container.readItem (recordItem request.record)
      (recordItem request.record)) = .ok stored) :
    ReadFor s.container ⟨request, stored, s.container.readItem (recordItem request.record)
      (recordItem request.record)⟩ := by
  cases hread : s.container.readItem (recordItem request.record) (recordItem request.record) with
  | none =>
    rw [hread] at hprepared
    obtain ⟨hexpected, hstored⟩ := preparePut_none_ok.mp hprepared
    exact .absent rfl hexpected hstored
  | some raw =>
    obtain ⟨d, hd, rfl⟩ := readItem_eq_some hread
    obtain ⟨r, hrecord⟩ := h.documents _ d hd
    rw [hread, hrecord.body] at hprepared
    obtain ⟨hexpected, hstored⟩ := (preparePut_some_ok hrecord.version d.etag).mp hprepared
    refine .found hrecord (by rw [hrecord.body]) hexpected hstored ?_
    intro d' hd' _
    exact Option.some.inj (hd'.symm.trans hd)

variable [DecidableEq κ]

/-- What a move can come to. -/
inductive Moved (s : Clients κ) : Clients κ × Option (PutRequest × Except StateError StateRecord) → Prop
  | idle : Moved s (s, none)
  | refused {request : PutRequest} {x : StateError}
      (prepared : preparePut request (s.container.readItem (recordItem request.record)
        (recordItem request.record)) = .error x) : Moved s (s, some (request, .error x))
  | read (client : κ) {request : PutRequest} {stored : StateRecord}
      (prepared : preparePut request (s.container.readItem (recordItem request.record)
        (recordItem request.record)) = .ok stored) :
      Moved s (⟨s.container, Function.update s.inFlight client (some ⟨request, stored,
        s.container.readItem (recordItem request.record) (recordItem request.record)⟩)⟩, none)
  | lost {client : κ} {p : InFlight} {c' : CosmosContainer} {x : StateError}
      (inFlight : s.inFlight client = some p)
      (sent : writeRecord p.stored p.current s.container = (c', .error x)) :
      Moved s (⟨c', Function.update s.inFlight client none⟩, some (p.request, .error x))
  | won {client : κ} {p : InFlight} {c' : CosmosContainer} (inFlight : s.inFlight client = some p)
      (sent : writeRecord p.stored p.current s.container = (c', .ok ())) :
      Moved s (⟨c', Function.update s.inFlight client none⟩, some (p.request, .ok p.stored))

theorem moved (s : Clients κ) (move : ClientMove κ) : Moved s (s.step move) := by
  cases move with
  | read client request =>
    cases hclient : s.inFlight client with
    | some p =>
      simp only [Clients.step, hclient]
      exact .idle
    | none =>
      cases hprepared : preparePut request (s.container.readItem (recordItem request.record)
          (recordItem request.record)) with
      | error x =>
        simp only [Clients.step, hclient, hprepared]
        exact .refused hprepared
      | ok stored =>
        simp only [Clients.step, hclient, hprepared]
        exact .read client hprepared
  | write client =>
    cases hclient : s.inFlight client with
    | none =>
      simp only [Clients.step, hclient]
      exact .idle
    | some p =>
      generalize hsent : writeRecord p.stored p.current s.container = out
      obtain ⟨c', answer⟩ := out
      simp only [Clients.step, hclient, hsent]
      cases answer with
      | error x => exact .lost hclient hsent
      | ok u => exact .won hclient hsent

theorem inFlight_of_done {s : Clients κ} {client other : κ} {q : InFlight}
    (h : Function.update s.inFlight client none other = some q) : s.inFlight other = some q := by
  by_cases hother : other = client
  · subst hother
    rw [Function.update_self] at h
    cases h
  · rwa [Function.update_of_ne hother] at h

theorem Coherent.step {s : Clients κ} (h : Coherent s) (move : ClientMove κ) : Coherent (s.step move).1 := by
  generalize hout : s.step move = out
  have hmoved : Moved s out := hout ▸ moved s move
  cases hmoved with
  | idle => exact h
  | refused => exact h
  | read client hprepared =>
    refine ⟨h.documents, fun other p hp => ?_⟩
    dsimp only at hp ⊢
    by_cases hother : other = client
    · subst hother
      rw [Function.update_self, Option.some.injEq] at hp
      subst hp
      exact h.readFor hprepared
    · rw [Function.update_of_ne hother] at hp
      exact h.reads other p hp
  | lost hclient hsent =>
    obtain ⟨rfl, -⟩ := writeRecord_error (h.reads _ _ hclient) hsent
    exact ⟨h.documents, fun other q hq => h.reads other q (inFlight_of_done hq)⟩
  | @won client p c' hclient hsent =>
    have hread := h.reads client p hclient
    obtain ⟨rfl, hmet⟩ := writeRecord_ok hread hsent
    refine ⟨fun item d hd => ?_, fun other q hq => (h.reads other q (inFlight_of_done hq)).write _ _⟩
    by_cases hitem : item = recordItem p.request.record
    · subst hitem
      rw [lookup_write_self, Option.some.injEq] at hd
      subst hd
      refine ⟨p.stored, rfl, hread.recordItem_stored, ?_, s.container.writes, Nat.lt_succ_self _, rfl⟩
      obtain ⟨-, -, hone⟩ | ⟨d, r, hd, hbody, -, hnext⟩ := hmet
      · omega
      · obtain ⟨r', hrecord⟩ := h.documents _ d hd
        have hversion : r.version = r'.version := by
          rw [← documentVersion_recordBody r, ← hbody, hrecord.body, documentVersion_recordBody]
        have hpositive := hrecord.version
        omega
    · rw [lookup_write_ne fun hkey => hitem (Prod.mk.inj hkey).1] at hd
      obtain ⟨r, hrecord⟩ := h.documents item d hd
      exact ⟨r, hrecord.write _ _ _⟩

/-- A losing put raises a version conflict and leaves the container. -/
theorem Coherent.step_error {s : Clients κ} (h : Coherent s) {move : ClientMove κ} {request : PutRequest}
    {x : StateError} (herror : (s.step move).2 = some (request, .error x)) :
    (∃ m, x = .versionConflict m) ∧ (s.step move).1.container = s.container := by
  generalize hout : s.step move = out at herror ⊢
  have hmoved : Moved s out := hout ▸ moved s move
  cases hmoved with
  | idle => cases herror
  | read => cases herror
  | won => cases herror
  | @refused request' y hprepared =>
    cases herror
    refine ⟨?_, rfl⟩
    cases hread : s.container.readItem (recordItem request.record) (recordItem request.record) with
    | none =>
      rw [hread] at hprepared
      exact preparePut_none_error hprepared
    | some raw =>
      obtain ⟨d, hd, rfl⟩ := readItem_eq_some hread
      obtain ⟨r, hrecord⟩ := h.documents _ d hd
      rw [hread, hrecord.body] at hprepared
      exact preparePut_some_error hrecord.version hprepared
  | lost hclient hsent =>
    cases herror
    obtain ⟨hsame, hconflict⟩ := writeRecord_error (h.reads _ _ hclient) hsent
    exact ⟨hconflict, hsame⟩

theorem lookup_write_body (c : CosmosContainer) (item item' : String) (body : CosmosItem) :
    ((c.write item' item' body).documents.lookup (item, item)).map (·.body) =
      if item = item' then some body else (c.documents.lookup (item, item)).map (·.body) := by
  by_cases hitem : item = item'
  · subst hitem
    rw [lookup_write_self, if_pos rfl, Option.map_some]
  · rw [lookup_write_ne fun hkey => hitem (Prod.mk.inj hkey).1, if_neg hitem]

theorem cosmos_cellLaw (item : String) :
    CellLaw Clients.step (@Coherent κ) (Clients.document item) documentVersion (Clients.won item) where
  preserved _ move h := h.step move
  kept s move h hwon := by
    unfold Clients.won at hwon
    generalize hout : s.step move = out at hwon ⊢
    have hmoved : Moved s out := hout ▸ moved s move
    cases hmoved with
    | idle => rfl
    | refused => rfl
    | read => rfl
    | lost hclient hsent =>
      obtain ⟨rfl, -⟩ := writeRecord_error (h.reads _ _ hclient) hsent
      rfl
    | @won client p c' hclient hsent =>
      have hread := h.reads client p hclient
      have hitem := hread.recordItem_stored
      obtain ⟨rfl, -⟩ := writeRecord_ok hread hsent
      dsimp only at hwon
      split at hwon
      · cases hwon
      · next hother =>
        exact (lookup_write_body s.container item _ _).trans (if_neg fun hsame =>
          hother (hitem.trans hsame.symm))
  replaced s move expected body h hwon := by
    unfold Clients.won at hwon
    generalize hout : s.step move = out at hwon ⊢
    have hmoved : Moved s out := hout ▸ moved s move
    cases hmoved with
    | idle => cases hwon
    | refused => cases hwon
    | read => cases hwon
    | lost => cases hwon
    | @won client p c' hclient hsent =>
      have hread := h.reads client p hclient
      have hitem := hread.recordItem_stored
      obtain ⟨rfl, hmet⟩ := writeRecord_ok hread hsent
      dsimp only at hwon
      split at hwon
      · next hsame =>
        cases hwon
        have hplace : item = recordItem p.request.record := hsame.symm.trans hitem
        refine ⟨(lookup_write_body s.container item _ _).trans (if_pos hplace), ?_⟩
        subst hplace
        obtain ⟨hlookup, hexpected, hone⟩ | ⟨d, r, hlookup, hbody, hexpected, hnext⟩ := hmet
        · have hdocument : s.document (recordItem p.request.record) = none := by
            rw [Clients.document, hlookup, Option.map_none]
          rw [hdocument]
          exact ⟨hone, fun v hv => nomatch assertExpected_ok hexpected v hv⟩
        · have hdocument : s.document (recordItem p.request.record) = some (recordBody r) := by
            rw [Clients.document, hlookup, Option.map_some, hbody]
          rw [hdocument]
          exact ⟨hnext, assertExpected_ok hexpected⟩
      · cases hwon

end

end Cosmos

end EngineeringIntelligence.State
