import EngineeringIntelligence.State.CosmosAudit
import EngineeringIntelligence.State.CosmosRefinement

namespace EngineeringIntelligence.State.Cosmos

open EngineeringIntelligence.Framework

/-! What concurrent appends build: one chain, whatever their interleaving. -/

/-! ### Chains -/

/-- An event of the chain, with its payload as it was sent. -/
structure ChainEntry where
  event : NewAuditEvent
  payload : List (String × Json)
  previousHash : Option String
  eventHash : String

/-- What an entry reads back as. -/
def ChainEntry.restored (x : ChainEntry) : StoredAuditEvent :=
  ⟨.str x.event.eventId, .str x.event.correlationId, .str x.event.actor, .str x.event.action,
    .str x.event.resource, .obj x.payload, .str x.event.occurredAt, .optStr x.previousHash,
    .str x.eventHash⟩

def ChainEntry.body (sha256 : String → String) (partitionKey : String) (x : ChainEntry)
    (sequence : Nat) : CosmosItem :=
  eventBody sha256 partitionKey x.event x.payload sequence x.previousHash x.eventHash

/-- An event that reads back as it was sent: no text field is blank, and the payload is
steady. -/
structure Restorable (e : NewAuditEvent) : Prop where
  eventId : e.eventId ≠ ""
  correlationId : e.correlationId ≠ ""
  actor : e.actor ≠ ""
  action : e.action ≠ ""
  resource : e.resource ≠ ""
  occurredAt : e.occurredAt ≠ ""
  steady : e.payload.Steady

/-- An event that both encoders take. -/
def Sendable (e : NewAuditEvent) : Prop :=
  (wirePayload e).isSome = true ∧ (e.payload.document .hashing).isSome = true

/-- A chain of entries, each linked to the one before and under an id of its own. -/
inductive Linked (sha256 : String → String) : List ChainEntry → Prop
  | nil : Linked sha256 []
  | snoc {xs : List ChainEntry} {x : ChainEntry} : Linked sha256 xs →
      x.previousHash = xs.getLast?.map (·.eventHash) →
      (x.event.canonical x.previousHash).map sha256 = some x.eventHash →
      wirePayload x.event = some x.payload → Restorable x.event →
      (∀ y ∈ xs, y.event.eventId ≠ x.event.eventId) → Linked sha256 (xs ++ [x])

/-- The body under an item id: that of the entry which the id is derived from. -/
def storedAt (sha256 : String → String) (partitionKey : String) (xs : List ChainEntry)
    (item : String) : Option CosmosItem :=
  (xs.zipIdx.find? fun p => eventItemId sha256 p.1.event.eventId = item).map
    fun p => p.1.body sha256 partitionKey (p.2 + 1)

def etagOf (n : Nat) : String := "etag-" ++ toString n

/-- A partition that holds a chain and nothing else. -/
structure Stores (sha256 : String → String) (partitionKey : String) (c : CosmosContainer)
    (xs : List ChainEntry) : Prop where
  linked : Linked sha256 xs
  tip : (c.documents.lookup (partitionKey, tipId)).map (·.body) =
    xs.getLast?.map fun x => tipBody partitionKey xs.length x.event.eventId x.eventHash
  events : ∀ item, item ≠ tipId → (c.documents.lookup (partitionKey, item)).map (·.body) =
    storedAt sha256 partitionKey xs item
  etags : ∀ key d, c.documents.lookup key = some d → ∃ n < c.writes, d.etag = etagOf n

section
variable {sha256 : String → String} {partitionKey : String} {c : CosmosContainer}
  {xs : List ChainEntry}

theorem etagOf_injective {m n : Nat} (h : etagOf m = etagOf n) : m = n := by
  have hlist := congrArg String.toList h
  simp only [etagOf, String.toList_append] at hlist
  have hdigits := List.append_cancel_left hlist
  simp only [Nat.toString_eq_repr, Nat.repr, String.toList_ofList] at hdigits
  exact toDigits_injective hdigits

theorem etagOf_ne_blank (n : Nat) : etagOf n ≠ "" := etag_ne_blank n

theorem stores_empty : Stores sha256 partitionKey .empty [] :=
  ⟨.nil, rfl, fun _ _ => rfl, by simp [CosmosContainer.empty]⟩

theorem eventItemId_ne_tip (sha256 : String → String) (eventId : String) :
    eventItemId sha256 eventId ≠ tipId := by
  intro h
  have hlist := congrArg String.toList h
  unfold eventItemId at hlist
  simp [tipId, String.toList_append] at hlist

theorem eventItemId_injective (hinj : Function.Injective sha256) {i i' : String}
    (h : eventItemId sha256 i = eventItemId sha256 i') : i = i' := by
  have hlist := congrArg String.toList h
  unfold eventItemId at hlist
  simp only [String.toList_append] at hlist
  exact hinj (String.toList_inj.mp (List.append_cancel_left hlist))

theorem storedAt_snoc (x : ChainEntry) (item : String) :
    storedAt sha256 partitionKey (xs ++ [x]) item =
      (storedAt sha256 partitionKey xs item).or
        (if eventItemId sha256 x.event.eventId = item then
          some (x.body sha256 partitionKey (xs.length + 1)) else none) := by
  unfold storedAt
  rw [List.zipIdx_append, List.find?_append]
  cases hfind : xs.zipIdx.find? fun p => eventItemId sha256 p.1.event.eventId = item with
  | some p => simp
  | none => by_cases hitem : eventItemId sha256 x.event.eventId = item <;> simp [hitem]

theorem storedAt_eq_none {item : String}
    (h : ∀ x ∈ xs, eventItemId sha256 x.event.eventId ≠ item) :
    storedAt sha256 partitionKey xs item = none := by
  unfold storedAt
  rw [Option.map_eq_none_iff, List.find?_eq_none]
  intro p hp
  simpa using h p.1 (List.fst_mem_of_mem_zipIdx hp)

theorem getElem?_snoc {i : Nat} {x y : ChainEntry} (hx : (xs ++ [y])[i]? = some x) :
    (i < xs.length ∧ xs[i]? = some x) ∨ (i = xs.length ∧ y = x) := by
  rcases Nat.lt_or_ge i xs.length with hi | hi
  · rw [List.getElem?_append_left hi] at hx
    exact Or.inl ⟨hi, hx⟩
  · rw [List.getElem?_append_right hi] at hx
    cases hk : i - xs.length with
    | zero =>
      rw [hk] at hx
      exact Or.inr ⟨by omega, Option.some.inj hx⟩
    | succ k => simp [hk] at hx

/-- Every entry is stored under its place in the chain. -/
theorem Linked.storedAt (hinj : Function.Injective sha256) (h : Linked sha256 xs) {i : Nat}
    {x : ChainEntry} (hx : xs[i]? = some x) :
    storedAt sha256 partitionKey xs (eventItemId sha256 x.event.eventId) =
      some (x.body sha256 partitionKey (i + 1)) := by
  induction h with
  | nil => simp at hx
  | @snoc xs y hxs hprevious hhash hwire hrestorable hfresh ih =>
    rw [storedAt_snoc]
    rcases getElem?_snoc hx with ⟨-, hx⟩ | ⟨rfl, rfl⟩
    · rw [ih hx]
      rfl
    · rw [storedAt_eq_none fun z hz hid => hfresh z hz (eventItemId_injective hinj hid)]
      simp

theorem Linked.restorable (h : Linked sha256 xs) {x : ChainEntry} (hx : x ∈ xs) :
    Restorable x.event ∧ wirePayload x.event = some x.payload ∧
      (x.event.canonical x.previousHash).map sha256 = some x.eventHash ∧
      (x.previousHash = none ∨ ∃ y ∈ xs, x.previousHash = some y.eventHash) := by
  induction h with
  | nil => cases hx
  | @snoc xs y hxs hprevious hhash hwire hrestorable hfresh ih =>
    rcases List.mem_append.mp hx with hx | hx
    · obtain ⟨h1, h2, h3, h4⟩ := ih hx
      refine ⟨h1, h2, h3, ?_⟩
      rcases h4 with h4 | ⟨z, hz, h4⟩
      · exact Or.inl h4
      · exact Or.inr ⟨z, List.mem_append_left _ hz, h4⟩
    · rw [List.mem_singleton.mp hx]
      refine ⟨hrestorable, hwire, hhash, ?_⟩
      cases hlast : xs.getLast? with
      | none => exact Or.inl (by rw [hprevious, hlast]; rfl)
      | some z =>
        exact Or.inr ⟨z, List.mem_append_left _ (List.mem_of_getLast? hlast),
          by rw [hprevious, hlast]; rfl⟩

theorem Linked.hash_ne_blank (hdigest : ∀ text, sha256 text ≠ "") (h : Linked sha256 xs)
    {x : ChainEntry} (hx : x ∈ xs) : x.eventHash ≠ "" := by
  obtain ⟨text, -, hhash⟩ := Option.map_eq_some_iff.mp (h.restorable hx).2.2.1
  rw [← hhash]
  exact hdigest text

/-! ### Reading back -/

theorem auditTextField_of_get {payload : CosmosItem} (field : String) {value : String}
    (h : Json.get payload field = .str value) (hvalue : value ≠ "") :
    auditTextField payload field = .ok value := by
  unfold auditTextField
  rw [h]
  exact if_neg hvalue

theorem auditOptionalTextField_of_get {payload : CosmosItem} (field : String)
    {value : Option String} (h : Json.get payload field = .optStr value) (hvalue : value ≠ some "") :
    auditOptionalTextField payload field = .ok value := by
  unfold auditOptionalTextField
  rw [h]
  cases value with
  | none => rfl
  | some s => exact if_neg fun hs => hvalue (by rw [hs])

/-- An entry of the chain reads back as it was sent. -/
theorem Linked.auditEventFromPayload (hdigest : ∀ text, sha256 text ≠ "") (h : Linked sha256 xs)
    {x : ChainEntry} (hx : x ∈ xs) :
    auditEventFromPayload (auditEventPayload x.event x.payload x.previousHash x.eventHash) =
      .ok x.restored := by
  obtain ⟨hr, -, -, hprevious⟩ := h.restorable hx
  have hprevious : x.previousHash ≠ some "" := by
    rcases hprevious with hnone | ⟨y, hy, hsome⟩
    · rw [hnone]
      nofun
    · rw [hsome]
      intro hblank
      exact h.hash_ne_blank hdigest hy (Option.some.inj hblank)
  have hhash : some x.eventHash ≠ some "" := fun hblank =>
    h.hash_ne_blank hdigest hx (Option.some.inj hblank)
  have hhash : auditOptionalTextField
      (auditEventPayload x.event x.payload x.previousHash x.eventHash) "event_hash" =
        .ok (some x.eventHash) := auditOptionalTextField_of_get _ rfl hhash
  unfold Cosmos.auditEventFromPayload
  rw [auditTextField_of_get "event_id" rfl hr.eventId,
    auditTextField_of_get "correlation_id" rfl hr.correlationId,
    auditTextField_of_get "actor" rfl hr.actor, auditTextField_of_get "action" rfl hr.action,
    auditTextField_of_get "resource" rfl hr.resource,
    auditTextField_of_get "occurred_at" rfl hr.occurredAt,
    auditOptionalTextField_of_get "previous_hash" rfl hprevious, hhash]
  rfl

/-- An entry holds the content of its event. -/
theorem Linked.hasContent (h : Linked sha256 xs) {x : ChainEntry} (hx : x ∈ xs) :
    x.event.HasContent x.restored := by
  obtain ⟨hr, hwire, hhash, -⟩ := h.restorable hx
  obtain ⟨text, hcanonical, -⟩ := Option.map_eq_some_iff.mp hhash
  rw [NewAuditEvent.canonical, PyValue.dumps, NewAuditEvent.document_asdict,
    PyValue.document_copy _ _ hr.steady] at hcanonical
  cases hdoc : x.event.payload.document .storing with
  | none =>
    rw [hdoc] at hcanonical
    cases hcanonical
  | some d =>
    have hsent : PyValue.wire x.event.payload = some (.obj x.payload) := by
      unfold wirePayload at hwire
      split at hwire
      · next entries hentries =>
        rw [hentries, PyValue.wire, hwire]
        rfl
      · cases hwire
    have hsorted := PyValue.sortKeys_document _ _ hr.steady hdoc
    have hpayload := PyValue.document_wire _ _ _ hr.steady hsent hdoc
    exact ⟨d, hdoc, rfl, rfl, rfl, rfl, rfl, hsorted.trans hpayload, rfl, rfl⟩

theorem Linked.printed (h : Linked sha256 xs) {x : ChainEntry} (hx : x ∈ xs) :
    Json.PrintedFields { x.restored with eventHash := .null }.fields := by
  have hwire := (h.restorable hx).2.1
  have hpayload : Json.PrintedFields x.payload := by
    unfold wirePayload at hwire
    split at hwire
    · exact PyValue.printed_wireEntries _ _ hwire
    · cases hwire
  have hprevious : (Json.optStr x.previousHash).Printed := by
    cases x.previousHash <;> trivial
  exact ⟨trivial, trivial, trivial, trivial, trivial, hpayload, trivial, hprevious, trivial, trivial⟩

/-- How a stored entry answers an append under its id. -/
def answerFrom (e : NewAuditEvent) (x : ChainEntry) (r : Except CosmosAuditError AppendedEvent) :
    Prop :=
  (e.HasContent x.restored ∧ r = .ok (.replayed x.restored)) ∨
    (¬ e.HasContent x.restored ∧ r = .error cosmosAuditConflict)

theorem Linked.replayedAudit (hdigest : ∀ text, sha256 text ≠ "") (h : Linked sha256 xs)
    {x : ChainEntry} (hx : x ∈ xs) {e : NewAuditEvent} (he : Restorable e) (hs : Sendable e)
    (sequence : Nat) (etag : String) :
    answerFrom e x (replayedAudit e (x.body sha256 partitionKey sequence ++ [("_etag", .str etag)])) := by
  obtain ⟨d, hdoc⟩ := Option.isSome_iff_exists.mp hs.2
  rw [PyValue.document_copy _ _ he.steady] at hdoc
  have hsorted := PyValue.sortKeys_document _ _ he.steady hdoc
  have hiff := e.identity_iff hsorted he.steady hdoc (h.printed hx)
  obtain ⟨identity, hidentity⟩ : ∃ identity, e.identity = some identity := by
    rw [NewAuditEvent.identity, PyValue.dumps, NewAuditEvent.document_asdict,
      PyValue.document_copy _ _ he.steady, hdoc]
    exact ⟨_, rfl⟩
  rw [hidentity, Option.some.injEq] at hiff
  have hmapping : auditMappingField
      (x.body sha256 partitionKey sequence ++ [("_etag", .str etag)]) "payload" =
        .ok (auditEventPayload x.event x.payload x.previousHash x.eventHash) := rfl
  have hread := h.auditEventFromPayload hdigest hx
  have hanswer : Cosmos.replayedAudit e
      (x.body sha256 partitionKey sequence ++ [("_etag", .str etag)]) =
        if x.restored.identity ≠ identity then .error cosmosAuditConflict
        else .ok (.replayed x.restored) := by
    simp only [Cosmos.replayedAudit, hmapping, hread, hidentity, bind, Except.bind]
  rw [hanswer]
  by_cases hcontent : e.HasContent x.restored
  · have hsame : x.restored.identity = identity := (hiff.mpr hcontent).symm
    exact Or.inl ⟨hcontent, if_neg (not_not_intro hsame)⟩
  · have hother : x.restored.identity ≠ identity := fun hsame => hcontent (hiff.mp hsame.symm)
    exact Or.inr ⟨hcontent, if_pos hother⟩

end

end EngineeringIntelligence.State.Cosmos
