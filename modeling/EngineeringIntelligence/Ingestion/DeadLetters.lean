import EngineeringIntelligence.Framework.Fallible
import EngineeringIntelligence.Framework.JsonReader
import EngineeringIntelligence.Framework.Run
import EngineeringIntelligence.Ingestion.Pipeline

namespace EngineeringIntelligence.Ingestion

open EngineeringIntelligence.Framework

/-! `SqliteEventLedger`, `IngestionWorker` and `DLQReplayer`: an event that fails is stored as text
and read back from it for the next try. -/

/-! ### The text of an event -/

/-- The fields of each record, as `asdict` lists them. -/
def SourceIdentity.fields (s : SourceIdentity) : List (String × Json) :=
  [("provider", .str s.provider), ("repository", .str s.repository), ("branch", .str s.branch),
    ("commit_sha", .str s.commitSha), ("path", .str s.path)]

def ACL.fields (acl : ACL) : List (String × Json) :=
  [("groups", .arr (acl.groups.map .str)), ("users", .arr (acl.users.map .str))]

def FileChange.fields (c : FileChange) : List (String × Json) :=
  [("source", .obj c.source.fields), ("change_type", .str c.changeType.value),
    ("content", .optStr c.content), ("language", .optStr c.language), ("owner", .optStr c.owner),
    ("service", .optStr c.service), ("acl", .obj c.acl.fields)]

def FileChange.asDict (c : FileChange) : Json := .obj c.fields

def NormalizedEvent.fields (e : NormalizedEvent) : List (String × Json) :=
  [("event_id", .str e.eventId), ("changes", .arr (e.changes.map FileChange.asDict))]

def NormalizedEvent.asDict (e : NormalizedEvent) : Json := .obj e.fields

/-- `json.dumps(asdict(event), sort_keys=True, default=str)`. -/
def NormalizedEvent.payload (e : NormalizedEvent) : String := Json.dumpsSpaced e.asDict

/-- What `_event_from_payload` raises. `untyped` stands for a value of another type than the records
declare, which they have no place for here. -/
inductive ReplayError where
  | loads (x : Json.LoadsError)
  | key (name : String)
  | untyped (name : String)
  | changeType (value : String)
  deriving DecidableEq

def item (fields : List (String × Json)) (name : String) : Except ReplayError Json :=
  match fields.lookup name with
  | some j => .ok j
  | none => .error (.key name)

def itemObject (fields : List (String × Json)) (name : String) :
    Except ReplayError (List (String × Json)) :=
  match item fields name with
  | .ok (.obj inner) => .ok inner
  | .ok _ => .error (.untyped name)
  | .error x => .error x

def itemText (fields : List (String × Json)) (name : String) : Except ReplayError String :=
  match item fields name with
  | .ok (.str s) => .ok s
  | .ok _ => .error (.untyped name)
  | .error x => .error x

/-- `item.get(name)`. -/
def getText (fields : List (String × Json)) (name : String) : Except ReplayError (Option String) :=
  match Json.get fields name with
  | .null => .ok none
  | .str s => .ok (some s)
  | _ => .error (.untyped name)

def asText (name : String) : Json → Except ReplayError String
  | .str s => .ok s
  | _ => .error (.untyped name)

/-- `tuple(acl.get(name, ()))`. -/
def getTexts (fields : List (String × Json)) (name : String) : Except ReplayError (List String) :=
  match fields.lookup name with
  | none => .ok []
  | some (.arr js) => js.mapM (asText name)
  | some _ => .error (.untyped name)

/-- `item.get("acl") or {}`. -/
def getAcl (fields : List (String × Json)) : Except ReplayError (List (String × Json)) :=
  let acl := Json.get fields "acl"
  if acl.truthy then
    match acl with
    | .obj inner => .ok inner
    | _ => .error (.untyped "acl")
  else .ok []

/-- `ChangeType(value)`. -/
def changeTypeOf (value : String) : Except ReplayError ChangeType :=
  match [ChangeType.upsert, .delete].find? (·.value = value) with
  | some t => .ok t
  | none => .error (.changeType value)

def changeFromItem : Json → Except ReplayError FileChange
  | .obj fields => do
    let source ← itemObject fields "source"
    let acl ← getAcl fields
    let provider ← itemText source "provider"
    let repository ← itemText source "repository"
    let branch ← itemText source "branch"
    let commitSha ← itemText source "commit_sha"
    let path ← itemText source "path"
    let changeTypeText ← itemText fields "change_type"
    let changeType ← changeTypeOf changeTypeText
    let content ← getText fields "content"
    let language ← getText fields "language"
    let owner ← getText fields "owner"
    let service ← getText fields "service"
    let groups ← getTexts acl "groups"
    let users ← getTexts acl "users"
    .ok ⟨⟨provider, repository, branch, commitSha, path⟩, changeType, content, language, owner, service,
      ⟨groups, users⟩⟩
  | _ => .error (.untyped "changes")

section
variable (floatRepr : String → String)

/-- `_event_from_payload`. -/
def eventFromPayload (payload : String) : Except ReplayError NormalizedEvent :=
  match Json.loads floatRepr payload with
  | .error x => .error (.loads x)
  | .ok (.obj raw) => do
    let changes ← match item raw "changes" with
      | .ok (.arr items) => items.mapM changeFromItem
      | .ok _ => .error (.untyped "changes")
      | .error x => .error x
    let eventId ← itemText raw "event_id"
    .ok ⟨eventId, changes⟩
  | .ok _ => .error (.untyped "payload")

end

/-! ### Reading an event back -/

section
variable {fs : List (String × Json)}

/-- An object as the encoder orders it. -/
def sortedFields (fs : List (String × Json)) : List (String × Json) :=
  (Json.sortKeysFields fs).insertionSort (fun a b => a.1 ≤ b.1)

theorem sortKeys_obj (fs : List (String × Json)) :
    Json.sortKeys (.obj fs) = .obj (sortedFields fs) := rfl

theorem item_sorted (h : (fs.map Prod.fst).Nodup) {name : String} {j : Json}
    (hj : fs.lookup name = some j) : item (sortedFields fs) name = .ok (Json.sortKeys j) := by
  rw [item, sortedFields, Json.lookup_sorted h, hj]
  rfl

theorem itemText_sorted (h : (fs.map Prod.fst).Nodup) {name s : String}
    (hs : fs.lookup name = some (.str s)) : itemText (sortedFields fs) name = .ok s := by
  rw [itemText, item_sorted h hs]
  rfl

theorem itemObject_sorted (h : (fs.map Prod.fst).Nodup) {name : String} {inner : List (String × Json)}
    (hs : fs.lookup name = some (.obj inner)) :
    itemObject (sortedFields fs) name = .ok (sortedFields inner) := by
  rw [itemObject, item_sorted h hs]
  rfl

theorem getText_sorted (h : (fs.map Prod.fst).Nodup) {name : String} {s : Option String}
    (hs : fs.lookup name = some (.optStr s)) : getText (sortedFields fs) name = .ok s := by
  rw [getText, sortedFields, Json.get_sorted h, Json.get, hs]
  cases s <;> rfl

theorem getTexts_sorted (h : (fs.map Prod.fst).Nodup) {name : String} {texts : List String}
    (hs : fs.lookup name = some (.arr (texts.map .str))) :
    getTexts (sortedFields fs) name = .ok texts := by
  rw [getTexts, sortedFields, Json.lookup_sorted h, hs]
  simp only [Option.map_some, Json.sortKeys, Json.sortKeysItems_eq_map, List.map_map]
  apply mapM_eq_ok.mpr
  rw [List.forall₂_map_left_iff]
  exact List.forall₂_same.mpr fun _ _ => rfl

end

theorem changeTypeOf_value (t : ChangeType) : changeTypeOf t.value = .ok t := by
  cases t <;> rfl

theorem SourceIdentity.fields_nodup (s : SourceIdentity) : (s.fields.map Prod.fst).Nodup := by
  simp [fields]

theorem ACL.fields_nodup (acl : ACL) : (acl.fields.map Prod.fst).Nodup := by
  simp [fields]

theorem FileChange.fields_nodup (c : FileChange) : (c.fields.map Prod.fst).Nodup := by
  simp [fields]

theorem NormalizedEvent.fields_nodup (e : NormalizedEvent) : (e.fields.map Prod.fst).Nodup := by
  simp [fields]

theorem getAcl_change (c : FileChange) : getAcl (sortedFields c.fields) = .ok (sortedFields c.acl.fields) := by
  have hget : Json.get (sortedFields c.fields) "acl" = .obj (sortedFields c.acl.fields) := by
    rw [sortedFields, Json.get_sorted c.fields_nodup]
    rfl
  have hne : (sortedFields c.acl.fields).isEmpty = false := by
    rw [List.isEmpty_eq_false_iff, ← List.length_pos_iff, sortedFields, List.length_insertionSort]
    simp [ACL.fields, Json.sortKeysFields]
  simp [getAcl, hget, Json.truthy, hne]

theorem changeFromItem_asDict (c : FileChange) :
    changeFromItem (Json.sortKeys c.asDict) = .ok c := by
  have hsource : itemObject (sortedFields c.fields) "source" = .ok (sortedFields c.source.fields) :=
    itemObject_sorted c.fields_nodup rfl
  rw [FileChange.asDict, sortKeys_obj, changeFromItem, hsource, getAcl_change]
  simp only [ok_bind]
  rw [itemText_sorted c.source.fields_nodup rfl, itemText_sorted c.source.fields_nodup rfl,
    itemText_sorted c.source.fields_nodup rfl, itemText_sorted c.source.fields_nodup rfl,
    itemText_sorted c.source.fields_nodup rfl, itemText_sorted c.fields_nodup rfl,
    getText_sorted c.fields_nodup rfl, getText_sorted c.fields_nodup rfl,
    getText_sorted c.fields_nodup rfl, getText_sorted c.fields_nodup rfl,
    getTexts_sorted c.acl.fields_nodup rfl, getTexts_sorted c.acl.fields_nodup rfl]
  simp only [ok_bind, changeTypeOf_value]

section
variable (floatRepr : String → String)

theorem readable_change (c : FileChange) : Json.Readable floatRepr c.asDict := by
  have hsource : Json.Readable floatRepr (.obj c.source.fields) :=
    ⟨c.source.fields_nodup, trivial, trivial, trivial, trivial, trivial, trivial⟩
  have hacl : Json.Readable floatRepr (.obj c.acl.fields) :=
    ⟨c.acl.fields_nodup, Json.readable_texts floatRepr _, Json.readable_texts floatRepr _, trivial⟩
  exact ⟨c.fields_nodup, hsource, trivial, Json.readable_optStr floatRepr _, Json.readable_optStr floatRepr _,
    Json.readable_optStr floatRepr _, Json.readable_optStr floatRepr _, hacl, trivial⟩

theorem readable_event (e : NormalizedEvent) : Json.Readable floatRepr e.asDict := by
  refine ⟨e.fields_nodup, trivial, ?_, trivial⟩
  apply (Json.readableItems_iff floatRepr).mpr
  intro j hj
  obtain ⟨c, -, rfl⟩ := List.mem_map.mp hj
  exact readable_change floatRepr c

/-- What is stored of an event is read back as that event. -/
theorem eventFromPayload_payload (e : NormalizedEvent) :
    eventFromPayload floatRepr e.payload = .ok e := by
  have hchanges : (Json.sortKeysItems (e.changes.map FileChange.asDict)).mapM changeFromItem =
      .ok e.changes := by
    rw [Json.sortKeysItems_eq_map, List.map_map]
    apply mapM_eq_ok.mpr
    rw [List.forall₂_map_left_iff]
    exact List.forall₂_same.mpr fun c _ => changeFromItem_asDict c
  rw [eventFromPayload, NormalizedEvent.payload, Json.loads_dumpsSpaced floatRepr (readable_event floatRepr e),
    NormalizedEvent.asDict, sortKeys_obj]
  simp only
  rw [item_sorted e.fields_nodup rfl, itemText_sorted e.fields_nodup rfl]
  simp only [Json.sortKeys, hchanges, ok_bind]

end

/-! ### The ledger -/

inductive EventStatus where
  | processing | completed | failed
  deriving DecidableEq

/-- A row of `events`. -/
structure EventRow where
  eventId : String
  status : EventStatus
  attempts : Nat
  updatedAt : String
  lastError : Option String

/-- A row of `dlq`. -/
structure DeadLetter where
  eventId : String
  payload : String
  error : String
  createdAt : String

structure SqliteEventLedger where
  events : Table EventRow.eventId
  dlq : Table DeadLetter.eventId

namespace SqliteEventLedger

def empty : SqliteEventLedger := ⟨Table.empty, Table.empty⟩

variable (ledger : SqliteEventLedger)

def seen (eventId : String) : Bool :=
  match ledger.events.get eventId with
  | some row => row.status = .completed
  | none => false

def start (eventId now : String) : SqliteEventLedger :=
  { ledger with
    events := ledger.events.put (match ledger.events.get eventId with
      | some row =>
        ⟨eventId, .processing, row.attempts + 1, now, row.lastError⟩
      | none => ⟨eventId, .processing, 1, now, none⟩) }

def complete (eventId now : String) : SqliteEventLedger where
  events := ledger.events.update eventId
    (fun row => { row with status := .completed, updatedAt := now, lastError := none }) fun _ => rfl
  dlq := ledger.dlq.select fun row => row.eventId ≠ eventId

def fail (event : NormalizedEvent) (message now : String) : SqliteEventLedger where
  events := ledger.events.update event.eventId
    (fun row => { row with status := .failed, updatedAt := now, lastError := some message }) fun _ => rfl
  dlq := ledger.dlq.put ⟨event.eventId, event.payload, message, now⟩

def dlqEvents : List DeadLetter := sortedBy DeadLetter.createdAt ledger.dlq.rows

def removeFromDlq (eventId : String) : SqliteEventLedger :=
  { ledger with dlq := ledger.dlq.select fun row => row.eventId ≠ eventId }

theorem seen_start (eventId now k : String) :
    (ledger.start eventId now).seen k = if k = eventId then false else ledger.seen k := by
  rw [seen, start]
  by_cases hk : k = eventId
  · cases hget : ledger.events.get eventId <;> simp [hk]
  · cases hget : ledger.events.get eventId <;> simp [Table.get_put, hk, seen]

theorem seen_complete_of_ne {eventId now k : String} (h : k ≠ eventId) :
    (ledger.complete eventId now).seen k = ledger.seen k := by
  rw [seen, seen, complete, Table.get_update, if_neg h]

theorem seen_fail (event : NormalizedEvent) (message now k : String) :
    (ledger.fail event message now).seen k = if k = event.eventId then false else ledger.seen k := by
  rw [seen, fail, Table.get_update]
  by_cases hk : k = event.eventId
  · rw [if_pos hk, if_pos hk]
    cases ledger.events.get k <;> simp
  · rw [if_neg hk, if_neg hk, seen]

end SqliteEventLedger

/-! ### The failures a ledger holds -/

/-- A failure as it happened. -/
structure Failure where
  event : NormalizedEvent
  error : String
  createdAt : String

def Failure.eventId (f : Failure) : String := f.event.eventId

def Failure.letter (f : Failure) : DeadLetter := ⟨f.eventId, f.event.payload, f.error, f.createdAt⟩

inductive LedgerCall where
  | start (eventId now : String)
  | complete (eventId now : String)
  | fail (failure : Failure)
  | remove (eventId : String)

def SqliteEventLedger.apply (ledger : SqliteEventLedger) : LedgerCall → SqliteEventLedger
  | .start eventId now => ledger.start eventId now
  | .complete eventId now => ledger.complete eventId now
  | .fail f => ledger.fail f.event f.error f.createdAt
  | .remove eventId => ledger.removeFromDlq eventId

/-- The failures that nothing has made up for: the last one of each event that was neither completed
nor removed since. -/
def outstanding (failures : Table Failure.eventId) : LedgerCall → Table Failure.eventId
  | .start _ _ => failures
  | .complete eventId _ | .remove eventId => failures.select fun f => f.eventId ≠ eventId
  | .fail f => failures.put f

/-- A ledger that holds given failures, as text, and has seen none of their events. -/
structure Records (ledger : SqliteEventLedger) (failures : Table Failure.eventId) : Prop where
  letters : ledger.dlq.rows = failures.rows.map Failure.letter
  unseen : ∀ f ∈ failures.rows, ledger.seen f.eventId = false

namespace Records

variable {ledger : SqliteEventLedger} {failures : Table Failure.eventId}

theorem rows_select (h : Records ledger failures) (eventId : String) :
    (ledger.dlq.select fun row => row.eventId ≠ eventId).rows =
      (failures.select fun f => f.eventId ≠ eventId).rows.map Failure.letter := by
  change ledger.dlq.rows.filter _ = (failures.rows.filter _).map Failure.letter
  rw [h.letters, List.filter_map]
  rfl

theorem rows_put (h : Records ledger failures) (f : Failure) :
    (ledger.dlq.put f.letter).rows = (failures.put f).rows.map Failure.letter := by
  have hkeys : ledger.dlq.rows.map DeadLetter.eventId = failures.rows.map Failure.eventId := by
    rw [h.letters, List.map_map]
    rfl
  have hkey : f.letter.eventId = f.eventId := rfl
  simp only [Table.put, hkeys, hkey]
  split
  · rw [h.letters, List.map_map, List.map_map]
    apply List.map_congr_left
    intro g _
    change (if g.eventId = f.eventId then f.letter else g.letter) =
      (if g.eventId = f.eventId then f else g).letter
    split <;> rfl
  · rw [h.letters, List.map_append]
    rfl

theorem apply (h : Records ledger failures) (call : LedgerCall) :
    Records (ledger.apply call) (outstanding failures call) := by
  cases call with
  | start eventId now =>
    refine ⟨h.letters, fun f hf => ?_⟩
    rw [SqliteEventLedger.apply, SqliteEventLedger.seen_start]
    split
    · rfl
    · exact h.unseen f hf
  | complete eventId now =>
    refine ⟨h.rows_select eventId, fun f hf => ?_⟩
    obtain ⟨hmem, hne⟩ := List.mem_filter.mp hf
    rw [SqliteEventLedger.apply, SqliteEventLedger.seen_complete_of_ne _ (of_decide_eq_true hne)]
    exact h.unseen f hmem
  | fail g =>
    refine ⟨h.rows_put g, fun f hf => ?_⟩
    rw [SqliteEventLedger.apply, SqliteEventLedger.seen_fail]
    split
    · rfl
    · next hne =>
      obtain rfl | ⟨hmem, -⟩ := Table.mem_put.mp hf
      · exact absurd rfl hne
      · exact h.unseen f hmem
  | remove eventId =>
    exact ⟨h.rows_select eventId, fun f hf => h.unseen f (List.mem_filter.mp hf).1⟩

theorem run (h : Records ledger failures) (calls : List LedgerCall) :
    Records (calls.foldl SqliteEventLedger.apply ledger) (calls.foldl outstanding failures) := by
  induction calls generalizing ledger failures with
  | nil => exact h
  | cons call calls ih => exact ih (h.apply call)

theorem empty : Records .empty Table.empty := ⟨rfl, by simp [Table.empty]⟩

theorem dlqEvents (h : Records ledger failures) :
    ledger.dlqEvents = (sortedBy Failure.createdAt failures.rows).map Failure.letter := by
  rw [SqliteEventLedger.dlqEvents, h.letters, sortedBy, sortedBy, List.map_insertionSort
    (fun a b => a.createdAt ≤ b.createdAt) (fun a b => a.createdAt ≤ b.createdAt) Failure.letter]
  exact fun _ _ _ _ => Iff.rfl

end Records

/-! ### The worker and the replay -/

structure IngestionWorker where
  pipeline : IngestionPipeline
  ledger : SqliteEventLedger

/-- What a try of an event meets: the clock at its start and at its end, and the writes that fail. -/
structure Circumstances where
  startedAt : String
  endedAt : String
  outage : Nat → Option Stage

/-- What `replay_all` returns. -/
structure ReplayCounts where
  replayed : Nat
  failed : Nat
  deriving DecidableEq

def ReplayCounts.count (counts : ReplayCounts) (replayed : Bool) : ReplayCounts :=
  if replayed then { counts with replayed := counts.replayed + 1 }
  else { counts with failed := counts.failed + 1 }

namespace IngestionWorker

variable (floatRepr : String → String) (l : ChunkLibrary) (describe : IngestionError → String)

/-- `handle`, after its look at the ledger; `describe` is the text of an exception. -/
def tryEvent (w : IngestionWorker) (moment : Circumstances) (event : NormalizedEvent) :
    IngestionWorker × Except IngestionError IngestionPipeline.Answer :=
  let ledger := w.ledger.start event.eventId moment.startedAt
  match w.pipeline.process l event moment.outage with
  | (pipeline, .error x) => (⟨pipeline, ledger.fail event (describe x) moment.endedAt⟩, .error x)
  | (pipeline, .ok answer) => (⟨pipeline, ledger.complete event.eventId moment.endedAt⟩, .ok answer)

def handle (w : IngestionWorker) (moment : Circumstances) (event : NormalizedEvent) :
    IngestionWorker × Except IngestionError IngestionPipeline.Answer :=
  if w.ledger.seen event.eventId then (w, .ok ⟨true, ⟨0, 0, 0⟩⟩) else w.tryEvent l describe moment event

/-- The body of the loop in `replay_all`, given the outcome of `handle`. -/
def settle (event : NormalizedEvent) :
    IngestionWorker × Except IngestionError IngestionPipeline.Answer → IngestionWorker × Bool
  | (w, .ok _) => ({ w with ledger := w.ledger.removeFromDlq event.eventId }, true)
  | (w, .error _) => (w, false)

def replayRows (moment : Nat → Circumstances) :
    List DeadLetter → ReplayCounts → IngestionWorker → IngestionWorker × Except ReplayError ReplayCounts
  | [], counts, w => (w, .ok counts)
  | row :: rows, counts, w =>
    match eventFromPayload floatRepr row.payload with
    | .error x => (w, .error x)
    | .ok event =>
      let (w, replayed) := settle event (w.handle l describe (moment 0) event)
      replayRows (fun i => moment (i + 1)) rows (counts.count replayed) w

/-- `replay_all`. -/
def replayAll (w : IngestionWorker) (moment : Nat → Circumstances) :
    IngestionWorker × Except ReplayError ReplayCounts :=
  replayRows floatRepr l describe moment w.ledger.dlqEvents ⟨0, 0⟩ w

/-- What a replay is for: every event is tried again. -/
def retryEvents (moment : Nat → Circumstances) :
    List NormalizedEvent → ReplayCounts → IngestionWorker → IngestionWorker × ReplayCounts
  | [], counts, w => (w, counts)
  | event :: events, counts, w =>
    let (w, replayed) := settle event (w.tryEvent l describe (moment 0) event)
    retryEvents (fun i => moment (i + 1)) events (counts.count replayed) w

/-- A try of one event leaves what the ledger has seen of the others. -/
theorem seen_settle_of_ne (w : IngestionWorker) (moment : Circumstances) {event : NormalizedEvent}
    {k : String} (h : k ≠ event.eventId) :
    (settle event (w.tryEvent l describe moment event)).1.ledger.seen k = w.ledger.seen k := by
  have hstart : (w.ledger.start event.eventId moment.startedAt).seen k = w.ledger.seen k := by
    rw [SqliteEventLedger.seen_start, if_neg h]
  unfold tryEvent
  rcases w.pipeline.process l event moment.outage with ⟨pipeline, x | answer⟩
  · change ((w.ledger.start event.eventId moment.startedAt).fail event (describe x) moment.endedAt).seen k = _
    rw [SqliteEventLedger.seen_fail, if_neg h, hstart]
  · change ((w.ledger.start event.eventId moment.startedAt).complete event.eventId moment.endedAt).seen k = _
    rw [SqliteEventLedger.seen_complete_of_ne _ h, hstart]

theorem replayRows_letters {failures : List Failure} (hdistinct : (failures.map Failure.eventId).Nodup)
    {w : IngestionWorker} (hunseen : ∀ f ∈ failures, w.ledger.seen f.eventId = false)
    (moment : Nat → Circumstances) (counts : ReplayCounts) :
    replayRows floatRepr l describe moment (failures.map Failure.letter) counts w =
      ((retryEvents l describe moment (failures.map Failure.event) counts w).1,
        .ok (retryEvents l describe moment (failures.map Failure.event) counts w).2) := by
  induction failures generalizing w moment counts with
  | nil => rfl
  | cons f failures ih =>
    rw [List.map_cons, List.nodup_cons] at hdistinct
    have hpayload : eventFromPayload floatRepr f.letter.payload = .ok f.event :=
      eventFromPayload_payload floatRepr f.event
    have hhandle : w.handle l describe (moment 0) f.event = w.tryEvent l describe (moment 0) f.event := by
      rw [handle, show w.ledger.seen f.event.eventId = false from hunseen f List.mem_cons_self]
      rfl
    rw [List.map_cons, List.map_cons, replayRows, hpayload, retryEvents]
    simp only [hhandle]
    apply ih hdistinct.2
    intro g hg
    have hne : g.eventId ≠ f.event.eventId := by
      intro heq
      apply hdistinct.1
      rw [show f.eventId = g.eventId from heq.symm]
      exact List.mem_map_of_mem hg
    rw [seen_settle_of_ne l describe w (moment 0) hne]
    exact hunseen g (List.mem_cons_of_mem f hg)

theorem replayAll_eq {w : IngestionWorker} {failures : Table Failure.eventId}
    (h : Records w.ledger failures) (moment : Nat → Circumstances) :
    w.replayAll floatRepr l describe moment =
      let events := (sortedBy Failure.createdAt failures.rows).map Failure.event
      ((retryEvents l describe moment events ⟨0, 0⟩ w).1,
        .ok (retryEvents l describe moment events ⟨0, 0⟩ w).2) := by
  rw [replayAll, h.dlqEvents]
  apply replayRows_letters
  · have hperm := (perm_sortedBy Failure.createdAt failures.rows).map Failure.eventId
    exact hperm.nodup_iff.mpr failures.unique
  · intro f hf
    exact h.unseen f (mem_sortedBy.mp hf)

/-- An event is read back from its dead letter as it was, so after any calls of the ledger a
replay tries again the very events whose failures are outstanding, oldest failure first. -/
theorem replay_tries_what_failed :
    (∀ event : NormalizedEvent, eventFromPayload floatRepr event.payload = .ok event) ∧
    ∀ (calls : List LedgerCall) (pipeline : IngestionPipeline) (moment : Nat → Circumstances),
      let ledger := calls.foldl SqliteEventLedger.apply .empty
      let failures := calls.foldl outstanding Table.empty
      let events := (sortedBy Failure.createdAt failures.rows).map Failure.event
      let retried := retryEvents l describe moment events ⟨0, 0⟩ ⟨pipeline, ledger⟩
      ledger.dlq.rows = failures.rows.map Failure.letter ∧
      replayAll floatRepr l describe ⟨pipeline, ledger⟩ moment = (retried.1, .ok retried.2) := by
  refine ⟨eventFromPayload_payload floatRepr, ?_⟩
  intro calls pipeline moment
  have hrecords := Records.empty.run calls
  exact ⟨hrecords.letters, replayAll_eq floatRepr l describe hrecords moment⟩

end IngestionWorker

end EngineeringIntelligence.Ingestion
