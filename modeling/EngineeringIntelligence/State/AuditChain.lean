import EngineeringIntelligence.State.AuditLog
import Mathlib.Data.List.Forall2
import Mathlib.Data.List.Induction

namespace EngineeringIntelligence.State

open EngineeringIntelligence.Framework

namespace StoredAuditEvent

/-- The same content: equal fields up to the order of keys, the copy of the event's own hash
apart. -/
structure SameContent (a b : StoredAuditEvent) : Prop where
  eventId : a.eventId.sortKeys = b.eventId.sortKeys
  correlationId : a.correlationId.sortKeys = b.correlationId.sortKeys
  actor : a.actor.sortKeys = b.actor.sortKeys
  action : a.action.sortKeys = b.action.sortKeys
  resource : a.resource.sortKeys = b.resource.sortKeys
  payload : a.payload.sortKeys = b.payload.sortKeys
  occurredAt : a.occurredAt.sortKeys = b.occurredAt.sortKeys
  previousHash : a.previousHash.sortKeys = b.previousHash.sortKeys

theorem printed_get {raw : List (String × Json)} (h : Json.PrintedFields raw) (k : String) :
    (Json.get raw k).Printed := by
  unfold Json.get
  cases hk : raw.lookup k with
  | none => trivial
  | some j =>
    obtain ⟨l, r, hraw, -⟩ := List.lookup_eq_some_iff.mp hk
    exact Json.printedFields_iff.mp h (k, j) (by rw [hraw]; simp)

theorem printed_restore {now : String} {j : Json} {e : StoredAuditEvent} (hj : j.Printed)
    (h : restore now j = some e) : Json.PrintedFields { e with eventHash := .null }.fields := by
  cases j with
  | obj raw =>
    have hget := printed_get hj
    simp only [restore] at h
    split at h
    · obtain rfl := Option.some.inj h
      refine ⟨hget _, hget _, hget _, hget _, hget _, hget _, ?_, hget _, trivial, trivial⟩
      have hoccurred := hget "occurred_at"
      unfold Json.get at hoccurred
      cases hk : raw.lookup "occurred_at" with
      | none => trivial
      | some j =>
        rw [hk] at hoccurred
        exact hoccurred
    · cases h
  | null | bool _ | int _ | float _ | str _ | arr _ => cases h

theorem sameContent_of_fields {a b : StoredAuditEvent}
    (h : (Json.obj { a with eventHash := .null }.fields).sortKeys =
      (Json.obj { b with eventHash := .null }.fields).sortKeys) : SameContent a b := by
  have hentry : ∀ f ∈ { b with eventHash := .null }.fields,
      ∃ g ∈ { a with eventHash := .null }.fields, g.1 = f.1 ∧ g.2.sortKeys = f.2.sortKeys :=
    fun f hf => Json.mem_of_sortKeys_obj h.symm hf
  simp [fields] at hentry
  obtain ⟨h1, h2, h3, h4, h5, h6, h7, h8⟩ := hentry
  exact ⟨h1, h2, h3, h4, h5, h6, h7, h8⟩

theorem fields_of_sameContent {a b : StoredAuditEvent} (h : SameContent a b) :
    (Json.obj { a with eventHash := .null }.fields).sortKeys =
      (Json.obj { b with eventHash := .null }.fields).sortKeys := by
  simp only [Json.sortKeys, Json.sortKeysFields, fields, h.eventId, h.correlationId, h.actor,
    h.action, h.resource, h.payload, h.occurredAt, h.previousHash]

/-- The canonical text pins the content. -/
theorem sameContent_of_canonical {a b : StoredAuditEvent}
    (ha : Json.PrintedFields { a with eventHash := .null }.fields)
    (hb : Json.PrintedFields { b with eventHash := .null }.fields)
    (h : a.canonical = b.canonical) : SameContent a b :=
  sameContent_of_fields (Json.dumps_injective ha hb h)

end StoredAuditEvent

section
variable {sha256 : String → String} {clock : Nat → String}

theorem lastHash_snoc (t : AuditTable) (row : AuditRow) :
    lastHash (t ++ [row]) = some row.eventHash := by
  simp [lastHash]

theorem verifyFrom_append (t t' : AuditTable) (previous : Option String) (i : Nat) :
    verifyFrom sha256 clock previous i (t ++ t') =
      (verifyFrom sha256 clock previous i t &&
        verifyFrom sha256 clock ((lastHash t).or previous) (i + t.length) t') := by
  induction t generalizing previous i with
  | nil => simp [verifyFrom, lastHash]
  | cons row t ih =>
    have htip : (lastHash (row :: t)).or previous =
        (lastHash t).or (some row.eventHash) := by
      cases t with
      | nil => rfl
      | cons next t => simp [lastHash, List.getLast?_cons]
    rw [List.cons_append, verifyFrom, verifyFrom, htip]
    cases row.restored (clock i) with
    | none => rfl
    | some event =>
      have hlen : i + 1 + t.length = i + (row :: t).length := by
        simp only [List.length_cons]
        omega
      simp only [ih, hlen, Bool.and_assoc]

/-- The chain with one more row is a chain: the new row restores to an event that is linked
to the old tip and hashes to the row's hash. -/
theorem verifyChain_snoc (t : AuditTable) (row : AuditRow) :
    verifyChain sha256 clock (t ++ [row]) = true ↔
      verifyChain sha256 clock t = true ∧ ∃ event, row.restored (clock t.length) = some event ∧
        isHash (lastHash t) event.previousHash = true ∧ sha256 event.canonical = row.eventHash := by
  unfold verifyChain
  rw [verifyFrom_append, Bool.and_eq_true, Option.or_none, Nat.zero_add]
  apply and_congr_right
  intro _
  rw [verifyFrom]
  cases row.restored (clock t.length) with
  | none => simp
  | some event => simp [verifyFrom]

theorem isHash_eq_true {previous : Option String} {j : Json} :
    isHash previous j = true ↔ j = Json.optStr previous := by
  cases j <;> cases previous <;> simp [isHash, Json.optStr, eq_comm]

theorem optStr_sortKeys (h : Option String) : (Json.optStr h).sortKeys = Json.optStr h := by
  cases h <;> rfl

theorem optStr_injective {a b : Option String} (h : Json.optStr a = Json.optStr b) : a = b := by
  cases a <;> cases b <;> simp_all [Json.optStr]

/-- The events of a table, as `verify_chain` restores them. -/
def restoredEvents (clock : Nat → String) (t : AuditTable) : List (Option StoredAuditEvent) :=
  t.mapIdx (fun i row => row.restored (clock i))

/-- Both rows restore, to the same content. -/
def SameRow (a b : Option StoredAuditEvent) : Prop :=
  ∃ x ∈ a, ∃ y ∈ b, StoredAuditEvent.SameContent x y

/-- The tip hash pins the whole history: two chains that verify and end in one hash hold the
same events in the same order. -/
theorem tip_pins_history (hinj : Function.Injective sha256) {clock clock' : Nat → String}
    {t t' : AuditTable} (h : verifyChain sha256 clock t = true)
    (h' : verifyChain sha256 clock' t' = true) (htip : lastHash t = lastHash t') :
    t.length = t'.length ∧ List.Forall₂ SameRow (restoredEvents clock t) (restoredEvents clock' t') := by
  induction t using List.reverseRecOn generalizing t' with
  | nil =>
    cases t' using List.reverseRecOn with
    | nil => exact ⟨rfl, List.Forall₂.nil⟩
    | append_singleton t' row' =>
      rw [lastHash_snoc] at htip
      cases htip
  | append_singleton t row ih =>
    cases t' using List.reverseRecOn with
    | nil =>
      rw [lastHash_snoc] at htip
      cases htip
    | append_singleton t' row' =>
      obtain ⟨hchain, event, hrow, hlink, hhash⟩ := (verifyChain_snoc t row).mp h
      obtain ⟨hchain', event', hrow', hlink', hhash'⟩ := (verifyChain_snoc t' row').mp h'
      have hrows : row.eventHash = row'.eventHash := by
        rw [lastHash_snoc, lastHash_snoc] at htip
        exact Option.some.inj htip
      have hcanonical : event.canonical = event'.canonical := by
        apply hinj
        rw [hhash, hhash', hrows]
      have hprinted : ∀ {r : AuditRow} {now : String} {e : StoredAuditEvent},
          r.restored now = some e → Json.PrintedFields { e with eventHash := .null }.fields := by
        intro r now e he
        obtain ⟨j, hj, hrestore⟩ := Option.bind_eq_some_iff.mp he
        exact StoredAuditEvent.printed_restore (r.printed j hj) hrestore
      have hsame := StoredAuditEvent.sameContent_of_canonical (hprinted hrow) (hprinted hrow')
        hcanonical
      -- equal links mean equal tips of the two shorter chains
      have hlinks := hsame.previousHash
      rw [isHash_eq_true.mp hlink, isHash_eq_true.mp hlink', optStr_sortKeys,
        optStr_sortKeys] at hlinks
      obtain ⟨hlen, hrest⟩ := ih hchain hchain' (optStr_injective hlinks)
      refine ⟨by simp [hlen], ?_⟩
      rw [restoredEvents, restoredEvents, List.mapIdx_concat, List.mapIdx_concat]
      exact List.rel_append hrest
        (List.Forall₂.cons ⟨event, hrow, event', hrow', hsame⟩ List.Forall₂.nil)

end

/-- An audited planning step, as it is stored. -/
def plannedRow : AuditRow where
  eventId := "evt-1"
  payload := some (.obj
    [("action", .str "workflow.planned"), ("actor", .str "agent:auditor"),
      ("correlation_id", .str "corr-1"),
      ("event_hash", .str "7f1e8bc9c8198ee9d6f7c7419a2c9db7069f45abb440597f035e74a4b8001b25"),
      ("event_id", .str "evt-1"), ("occurred_at", .str "2026-01-01T00:00:00+00:00"),
      ("payload", .obj [("status", .str "planned"), ("version", .int 2)]),
      ("previous_hash", .null), ("resource", .str "workflow:wf-1")])
  eventHash := "7f1e8bc9c8198ee9d6f7c7419a2c9db7069f45abb440597f035e74a4b8001b25"
  printed := by
    intro j hj
    obtain rfl := Option.some.inj hj
    simp [Json.Printed, Json.PrintedFields]

/-- The same event in another key order, without the copy of its hash. -/
def reorderedRow : AuditRow where
  eventId := "evt-1"
  payload := some (.obj
    [("event_id", .str "evt-1"), ("correlation_id", .str "corr-1"), ("actor", .str "agent:auditor"),
      ("action", .str "workflow.planned"), ("resource", .str "workflow:wf-1"),
      ("payload", .obj [("version", .int 2), ("status", .str "planned")]),
      ("occurred_at", .str "2026-01-01T00:00:00+00:00")])
  eventHash := "7f1e8bc9c8198ee9d6f7c7419a2c9db7069f45abb440597f035e74a4b8001b25"
  printed := by
    intro j hj
    obtain rfl := Option.some.inj hj
    simp [Json.Printed, Json.PrintedFields]

/-- SHA-256 on the canonical text of `plannedRow`, and some injective digest elsewhere. -/
def plannedSha256 : String → String :=
  digestAt (((plannedRow.restored "").map (·.canonical)).getD "")
    "7f1e8bc9c8198ee9d6f7c7419a2c9db7069f45abb440597f035e74a4b8001b25"

theorem tip_pins_planned :
    verifyChain plannedSha256 (fun _ => "") [plannedRow] = true ∧
      verifyChain plannedSha256 (fun _ => "") [reorderedRow] = true ∧
      List.Forall₂ SameRow (restoredEvents (fun _ => "") [plannedRow])
        (restoredEvents (fun _ => "") [reorderedRow]) := by
  obtain ⟨h, h'⟩ : verifyChain plannedSha256 (fun _ => "") [plannedRow] = true ∧
      verifyChain plannedSha256 (fun _ => "") [reorderedRow] = true := by decide +kernel
  exact ⟨h, h', (tip_pins_history (digestAt_injective (by decide)) h h' rfl).2⟩

end EngineeringIntelligence.State
