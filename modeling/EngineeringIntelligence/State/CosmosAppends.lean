import EngineeringIntelligence.State.CosmosAuditChain

namespace EngineeringIntelligence.State.Cosmos

open EngineeringIntelligence.Framework

/-! Runs of concurrent appends: every batch that goes through extends the chain by one entry,
and every call is answered from the chain. -/

/-- An event the log can carry: it reads back as it was sent, or an encoder refuses it. -/
def Carried (e : NewAuditEvent) : Prop := Restorable e ∨ ¬ Sendable e

/-- A conditional write of the tip that goes through only while the chain is still `ys`. -/
def HoldsOn (partitionKey : String) (c : CosmosContainer) (xs ys : List ChainEntry)
    (body : CosmosItem) : CosmosBatchOperation → Prop
  | .create created => ys = [] ∧ created = body
  | .replace item replaced etag => item = tipId ∧ replaced = body ∧ (∃ n < c.writes, etag = etagOf n) ∧
      ∀ d, c.documents.lookup (partitionKey, tipId) = some d → d.etag = etag → ys = xs

/-- An append whose batch is ready: it would put `x` after the chain `ys` it has read. -/
structure Pending (sha256 : String → String) (partitionKey : String) (c : CosmosContainer)
    (xs : List ChainEntry) (e : NewAuditEvent) (p : PreparedAppend) (ys : List ChainEntry)
    (x : ChainEntry) (tipOperation : CosmosBatchOperation) : Prop where
  restorable : Restorable e
  sendable : Sendable e
  event : x.event = e
  wire : wirePayload e = some x.payload
  linked : x.previousHash = ys.getLast?.map (·.eventHash)
  hashed : (e.canonical x.previousHash).map sha256 = some x.eventHash
  previousHash : p.previousHash = x.previousHash
  eventHash : p.eventHash = x.eventHash
  operations : p.operations = [.create (x.body sha256 partitionKey (ys.length + 1)), tipOperation]
  tip : HoldsOn partitionKey c xs ys (tipBody partitionKey (ys.length + 1) e.eventId x.eventHash)
    tipOperation

/-- How a call is answered. -/
inductive Answered (xs : List ChainEntry) (e : NewAuditEvent) :
    Except CosmosAuditError AppendedEvent → Prop
  | finalized {x : ChainEntry} : x ∈ xs → x.event = e →
      Answered xs e (.ok (.finalized e x.previousHash x.eventHash))
  | stored {x : ChainEntry} {r : Except CosmosAuditError AppendedEvent} : x ∈ xs →
      x.event.eventId = e.eventId → answerFrom e x r → Answered xs e r
  | refused : ¬ Sendable e → Answered xs e (.error .unserialisable)
  | exhausted (message : String) : Answered xs e (.error (.exhausted message))

/-- What is known of a call from where it stands. -/
def PhaseOk (sha256 : String → String) (partitionKey : String) (c : CosmosContainer)
    (xs : List ChainEntry) : AppendPhase → Prop
  | .idle => True
  | .reading e _ => Carried e
  | .batching e _ p => ∃ ys x tipOperation, Pending sha256 partitionKey c xs e p ys x tipOperation
  | .rereading e _ => Restorable e ∧ Sendable e
  | .returned e r => Answered xs e r

structure AuditInvariant (sha256 : String → String) (partitionKey : String) (s : AuditSystem)
    (xs : List ChainEntry) : Prop where
  stores : Stores sha256 partitionKey s.container xs
  phases : ∀ caller, PhaseOk sha256 partitionKey s.container xs (s.phases caller)

section
variable {sha256 : String → String} {partitionKey : String} {c : CosmosContainer}
  {xs : List ChainEntry} {e : NewAuditEvent}

/-! ### Batches -/

theorem executeItemBatch_pair {a b : CosmosBatchOperation} {written : CosmosContainer} :
    c.executeItemBatch [a, b] partitionKey = some written ↔
      ∃ between, c.runOperation partitionKey a = some between ∧
        between.runOperation partitionKey b = some written := by
  simp [CosmosContainer.executeItemBatch, List.foldlM, Option.bind_eq_some_iff]

theorem runOperation_create {body : CosmosItem} {item : String}
    (hitem : CosmosContainer.itemIdOf body = some item) {written : CosmosContainer} :
    c.runOperation partitionKey (.create body) = some written ↔
      c.documents.lookup (partitionKey, item) = none ∧ c.write partitionKey item body = written := by
  simp only [CosmosContainer.runOperation, hitem]
  cases hlookup : c.documents.lookup (partitionKey, item) with
  | none => simp
  | some d => simp

theorem runOperation_replace {body : CosmosItem} {item etag : String} {written : CosmosContainer} :
    c.runOperation partitionKey (.replace item body etag) = some written ↔
      ∃ d, c.documents.lookup (partitionKey, item) = some d ∧ d.etag = etag ∧
        c.write partitionKey item body = written := by
  simp only [CosmosContainer.runOperation]
  cases hlookup : c.documents.lookup (partitionKey, item) with
  | none => simp
  | some d => by_cases hetag : d.etag = etag <;> simp [hetag]

/-- The container after a batch that adds an entry. -/
def extended (sha256 : String → String) (partitionKey : String) (c : CosmosContainer)
    (sequence : Nat) (x : ChainEntry) : CosmosContainer :=
  (c.write partitionKey (eventItemId sha256 x.event.eventId)
      (x.body sha256 partitionKey sequence)).write partitionKey tipId
    (tipBody partitionKey sequence x.event.eventId x.eventHash)

theorem lookup_extended_tip (sequence : Nat) (x : ChainEntry) :
    (extended sha256 partitionKey c sequence x).documents.lookup (partitionKey, tipId) =
      some ⟨tipBody partitionKey sequence x.event.eventId x.eventHash, etagOf (c.writes + 1)⟩ :=
  lookup_write_self _ _ _

theorem lookup_extended_event (sequence : Nat) (x : ChainEntry) :
    (extended sha256 partitionKey c sequence x).documents.lookup
        (partitionKey, eventItemId sha256 x.event.eventId) =
      some ⟨x.body sha256 partitionKey sequence, etagOf c.writes⟩ := by
  have hne : (partitionKey, eventItemId sha256 x.event.eventId) ≠ (partitionKey, tipId) :=
    fun h => eventItemId_ne_tip sha256 _ (congrArg Prod.snd h)
  rw [extended, lookup_write_ne hne, lookup_write_self]
  rfl

theorem lookup_extended_ne {sequence : Nat} {x : ChainEntry} {key : String × String}
    (htip : key ≠ (partitionKey, tipId))
    (hevent : key ≠ (partitionKey, eventItemId sha256 x.event.eventId)) :
    (extended sha256 partitionKey c sequence x).documents.lookup key = c.documents.lookup key := by
  rw [extended, lookup_write_ne htip, lookup_write_ne hevent]

theorem Stores.extended (hinj : Function.Injective sha256) (h : Stores sha256 partitionKey c xs)
    {x : ChainEntry} (hlinked : Linked sha256 (xs ++ [x]))
    (hfresh : ∀ y ∈ xs, y.event.eventId ≠ x.event.eventId) :
    Stores sha256 partitionKey (extended sha256 partitionKey c (xs.length + 1) x) (xs ++ [x]) := by
  refine ⟨hlinked, ?_, ?_, ?_⟩
  · rw [lookup_extended_tip, List.getLast?_concat]
    simp
  · intro item hitem
    rw [storedAt_snoc]
    by_cases hevent : eventItemId sha256 x.event.eventId = item
    · subst hevent
      rw [lookup_extended_event, storedAt_eq_none fun y hy hid =>
        hfresh y hy (eventItemId_injective hinj hid)]
      simp
    · have htip : (partitionKey, item) ≠ (partitionKey, tipId) :=
        fun heq => hitem (congrArg Prod.snd heq)
      have hother : (partitionKey, item) ≠ (partitionKey, eventItemId sha256 x.event.eventId) :=
        fun heq => hevent (congrArg Prod.snd heq).symm
      rw [lookup_extended_ne htip hother, h.events item hitem, if_neg hevent, Option.or_none]
  · intro key d hd
    have hwrites : (Cosmos.extended sha256 partitionKey c (xs.length + 1) x).writes =
        c.writes + 2 := rfl
    rw [hwrites]
    by_cases htip : key = (partitionKey, tipId)
    · subst htip
      rw [lookup_extended_tip] at hd
      obtain rfl := Option.some.inj hd
      exact ⟨c.writes + 1, by omega, rfl⟩
    · by_cases hevent : key = (partitionKey, eventItemId sha256 x.event.eventId)
      · subst hevent
        rw [lookup_extended_event] at hd
        obtain rfl := Option.some.inj hd
        exact ⟨c.writes, by omega, rfl⟩
      · rw [lookup_extended_ne htip hevent] at hd
        obtain ⟨n, hn, hetag⟩ := h.etags key d hd
        exact ⟨n, by omega, hetag⟩

/-- Every entry has its document. -/
theorem Stores.lookup_event (hinj : Function.Injective sha256) (h : Stores sha256 partitionKey c xs)
    {i : Nat} {y : ChainEntry} (hy : xs[i]? = some y) :
    ∃ d, c.documents.lookup (partitionKey, eventItemId sha256 y.event.eventId) = some d ∧
      d.body = y.body sha256 partitionKey (i + 1) := by
  have hstored := h.events _ (eventItemId_ne_tip sha256 y.event.eventId)
  rw [h.linked.storedAt hinj hy] at hstored
  exact Option.map_eq_some_iff.mp hstored

section Pending
variable {p : PreparedAppend} {ys : List ChainEntry} {x : ChainEntry}
  {tipOperation : CosmosBatchOperation}

/-- A batch that goes through was prepared from the chain as it is, and its id is new. -/
theorem Pending.batch (hinj : Function.Injective sha256) (h : Stores sha256 partitionKey c xs)
    (hp : Pending sha256 partitionKey c xs e p ys x tipOperation) {written : CosmosContainer}
    (hbatch : c.executeItemBatch p.operations partitionKey = some written) :
    written = extended sha256 partitionKey c (xs.length + 1) x ∧
      Stores sha256 partitionKey written (xs ++ [x]) := by
  have hitem : CosmosContainer.itemIdOf (x.body sha256 partitionKey (ys.length + 1)) =
      some (eventItemId sha256 x.event.eventId) := rfl
  have htipItem : CosmosContainer.itemIdOf (tipBody partitionKey (ys.length + 1) e.eventId
      x.eventHash) = some tipId := rfl
  rw [hp.operations, executeItemBatch_pair] at hbatch
  obtain ⟨between, hcreate, htip⟩ := hbatch
  obtain ⟨hfree, rfl⟩ := (runOperation_create hitem).mp hcreate
  have hother : (partitionKey, tipId) ≠ (partitionKey, eventItemId sha256 x.event.eventId) :=
    fun heq => eventItemId_ne_tip sha256 _ (congrArg Prod.snd heq).symm
  have hfresh : ∀ y ∈ xs, y.event.eventId ≠ x.event.eventId := by
    intro y hy hid
    obtain ⟨i, hi⟩ := List.mem_iff_getElem?.mp hy
    obtain ⟨d, hd, -⟩ := h.lookup_event hinj hi
    rw [hid, hfree] at hd
    cases hd
  have hcurrent : ys = xs ∧
      written = extended sha256 partitionKey c (ys.length + 1) x := by
    have hadvance := hp.tip
    cases tipOperation with
    | create created =>
      obtain ⟨rfl, rfl⟩ := hadvance
      obtain ⟨hnone, hwritten⟩ := (runOperation_create htipItem).mp htip
      rw [lookup_write_ne hother] at hnone
      have hempty := h.tip
      rw [hnone] at hempty
      refine ⟨?_, ?_⟩
      · have hlast : xs.getLast? = none := by simpa using hempty.symm
        exact (List.getLast?_eq_none_iff.mp hlast).symm
      · rw [← hwritten, ← hp.event]
        rfl
    | replace item replaced etag =>
      obtain ⟨rfl, rfl, -, hsame⟩ := hadvance
      obtain ⟨d, hd, hetag, hwritten⟩ := runOperation_replace.mp htip
      rw [lookup_write_ne hother] at hd
      refine ⟨hsame d hd hetag, ?_⟩
      rw [← hwritten, ← hp.event]
      rfl
  obtain ⟨rfl, rfl⟩ := hcurrent
  have hlinked : Linked sha256 (ys ++ [x]) :=
    h.linked.snoc hp.linked (by rw [hp.event]; exact hp.hashed) (by rw [hp.event]; exact hp.wire)
      (by rw [hp.event]; exact hp.restorable) hfresh
  exact ⟨rfl, h.extended hinj hlinked hfresh⟩

/-- A batch under an id that is stored is refused. -/
theorem Pending.refused (hinj : Function.Injective sha256) (h : Stores sha256 partitionKey c xs)
    (hp : Pending sha256 partitionKey c xs e p ys x tipOperation) {y : ChainEntry} (hy : y ∈ xs)
    (hid : y.event.eventId = e.eventId) :
    c.executeItemBatch p.operations partitionKey = none := by
  cases hbatch : c.executeItemBatch p.operations partitionKey with
  | none => rfl
  | some written =>
    have hitem : CosmosContainer.itemIdOf (x.body sha256 partitionKey (ys.length + 1)) =
        some (eventItemId sha256 x.event.eventId) := rfl
    rw [hp.operations, executeItemBatch_pair] at hbatch
    obtain ⟨between, hcreate, -⟩ := hbatch
    obtain ⟨hfree, -⟩ := (runOperation_create hitem).mp hcreate
    obtain ⟨i, hi⟩ := List.mem_iff_getElem?.mp hy
    obtain ⟨d, hd, -⟩ := h.lookup_event hinj hi
    rw [hid, ← hp.event, hfree] at hd
    cases hd

/-- Another append's entry takes the ground from under a pending batch. -/
theorem Pending.overtaken (hp : Pending sha256 partitionKey c xs e p ys x tipOperation) (y : ChainEntry)
    (sequence : Nat) : Pending sha256 partitionKey (extended sha256 partitionKey c sequence y)
      (xs ++ [y]) e p ys x tipOperation := by
  refine ⟨hp.restorable, hp.sendable, hp.event, hp.wire, hp.linked, hp.hashed, hp.previousHash,
    hp.eventHash, hp.operations, ?_⟩
  have htip := hp.tip
  cases tipOperation with
  | create created => exact htip
  | replace item replaced etag =>
    obtain ⟨hitem, hbody, ⟨n, hn, hetag⟩, -⟩ := htip
    have hwrites : (extended sha256 partitionKey c sequence y).writes = c.writes + 2 := rfl
    refine ⟨hitem, hbody, ⟨n, by rw [hwrites]; omega, hetag⟩, ?_⟩
    intro d hd hsame
    rw [lookup_extended_tip] at hd
    obtain rfl := Option.some.inj hd
    have hn' : c.writes + 1 = n := etagOf_injective (hsame.trans hetag)
    omega

end Pending

/-! ### Exchanges -/

theorem canonical_isSome (e : NewAuditEvent) (previousHash : Option String) :
    (e.canonical previousHash).isSome = (e.payload.document .hashing).isSome := by
  rw [NewAuditEvent.canonical, PyValue.dumps, NewAuditEvent.document_asdict]
  cases e.payload.document .hashing with
  | none => rfl
  | some d => rfl

theorem Stores.lookup_tip (h : Stores sha256 partitionKey c xs) {last : ChainEntry}
    (hlast : xs.getLast? = some last) : ∃ n < c.writes,
      c.documents.lookup (partitionKey, tipId) =
        some ⟨tipBody partitionKey xs.length last.event.eventId last.eventHash, etagOf n⟩ := by
  have htip := h.tip
  rw [hlast, Option.map_some, Option.map_eq_some_iff] at htip
  obtain ⟨⟨body, etag⟩, hd, rfl⟩ := htip
  obtain ⟨n, hn, rfl⟩ := h.etags _ _ hd
  exact ⟨n, hn, hd⟩

theorem Stores.lookup_tip_none (h : Stores sha256 partitionKey c xs) (hlast : xs.getLast? = none) :
    c.documents.lookup (partitionKey, tipId) = none := by
  have htip := h.tip
  rw [hlast] at htip
  simpa using htip

/-- What an attempt prepares, by the chain whose tip it reads. -/
theorem Stores.prepareAppend (hdigest : ∀ text, sha256 text ≠ "")
    (h : Stores sha256 partitionKey c xs) : ∃ tipOperation : CosmosItem → CosmosBatchOperation,
      (∀ body, HoldsOn partitionKey c xs xs body (tipOperation body)) ∧
      prepareAppend sha256 partitionKey e (c.readItem tipId partitionKey) =
        match e.canonical (xs.getLast?.map (·.eventHash)), wirePayload e with
        | some text, some payload =>
          .ok ⟨xs.getLast?.map (·.eventHash), sha256 text,
            [.create (eventBody sha256 partitionKey e payload (xs.length + 1)
              (xs.getLast?.map (·.eventHash)) (sha256 text)),
            tipOperation (tipBody partitionKey (xs.length + 1) e.eventId (sha256 text))]⟩
        | _, _ => .error .unserialisable := by
  unfold Cosmos.prepareAppend CosmosContainer.readItem
  cases hlast : xs.getLast? with
  | none =>
    obtain rfl := List.getLast?_eq_none_iff.mp hlast
    refine ⟨.create, fun body => ⟨rfl, rfl⟩, ?_⟩
    rw [h.lookup_tip_none hlast]
    rfl
  | some last =>
    obtain ⟨n, hn, hd⟩ := h.lookup_tip hlast
    have hmem : last ∈ xs := List.mem_of_getLast? hlast
    have hlength : ¬ ((xs.length : Int) < 1) := by
      have := List.length_pos_of_mem hmem
      omega
    refine ⟨fun body => .replace tipId body (etagOf n), ?_, ?_⟩
    · intro body
      exact ⟨rfl, rfl, ⟨n, hn, rfl⟩, fun d hd' _ => rfl⟩
    · rw [hd, Option.map_some]
      have hprevious : auditTextField (tipBody partitionKey xs.length last.event.eventId
          last.eventHash ++ [("_etag", .str (etagOf n))]) "event_hash" = .ok last.eventHash :=
        auditTextField_of_get _ rfl (h.linked.hash_ne_blank hdigest hmem)
      have hsequence : auditIntegerField (tipBody partitionKey xs.length last.event.eventId
          last.eventHash ++ [("_etag", .str (etagOf n))]) "sequence" 1 = .ok xs.length :=
        if_neg hlength
      have hetag : auditTextField (tipBody partitionKey xs.length last.event.eventId
          last.eventHash ++ [("_etag", .str (etagOf n))]) "_etag" = .ok (etagOf n) :=
        auditTextField_of_get _ rfl (etagOf_ne_blank n)
      simp only [hprevious, hsequence, hetag, Except.map, bind, Except.bind, Option.map_some]
      cases e.canonical (some last.eventHash) with
      | none => rfl
      | some text =>
        cases wirePayload e with
        | none => rfl
        | some payload => rfl

theorem Stores.prepareAppend_pending (hdigest : ∀ text, sha256 text ≠ "")
    (h : Stores sha256 partitionKey c xs) (he : Restorable e) (hs : Sendable e) :
    ∃ p x tipOperation,
      Cosmos.prepareAppend sha256 partitionKey e (c.readItem tipId partitionKey) = .ok p ∧
        Pending sha256 partitionKey c xs e p xs x tipOperation := by
  obtain ⟨tipOperation, htip, hprepare⟩ := h.prepareAppend hdigest
  obtain ⟨payload, hpayload⟩ := Option.isSome_iff_exists.mp hs.1
  have hcanonical := canonical_isSome e (xs.getLast?.map (·.eventHash))
  rw [hs.2] at hcanonical
  obtain ⟨text, htext⟩ := Option.isSome_iff_exists.mp hcanonical
  rw [htext, hpayload] at hprepare
  refine ⟨_, ⟨e, payload, xs.getLast?.map (·.eventHash), sha256 text⟩,
    tipOperation (tipBody partitionKey (xs.length + 1) e.eventId (sha256 text)), hprepare, ?_⟩
  exact ⟨he, hs, rfl, hpayload, rfl, by rw [htext]; rfl, rfl, rfl, rfl, htip _⟩

theorem Stores.prepareAppend_refused (hdigest : ∀ text, sha256 text ≠ "")
    (h : Stores sha256 partitionKey c xs) (hs : ¬ Sendable e) :
    Cosmos.prepareAppend sha256 partitionKey e (c.readItem tipId partitionKey) =
      .error .unserialisable := by
  obtain ⟨tipOperation, -, hprepare⟩ := h.prepareAppend hdigest
  rw [hprepare]
  cases htext : e.canonical (xs.getLast?.map (·.eventHash)) with
  | none => rfl
  | some text =>
    cases hpayload : wirePayload e with
    | none => rfl
    | some payload =>
      refine absurd ⟨by rw [hpayload]; rfl, ?_⟩ hs
      rw [← canonical_isSome e (xs.getLast?.map (·.eventHash)), htext]
      rfl

/-- A refused batch is answered from the entry under its id, if there is one. -/
theorem Stores.reread (hinj : Function.Injective sha256) (hdigest : ∀ text, sha256 text ≠ "")
    (h : Stores sha256 partitionKey c xs) (he : Restorable e) (hs : Sendable e) {x : ChainEntry}
    (hx : x ∈ xs) (hid : x.event.eventId = e.eventId) :
    ∃ stored, c.readItem (eventItemId sha256 e.eventId) partitionKey = some stored ∧
      answerFrom e x (replayedAudit e stored) := by
  obtain ⟨i, hi⟩ := List.mem_iff_getElem?.mp hx
  obtain ⟨d, hd, hbody⟩ := h.lookup_event hinj hi
  refine ⟨d.body ++ [("_etag", .str d.etag)], by rw [CosmosContainer.readItem, ← hid, hd]; rfl, ?_⟩
  rw [hbody]
  exact h.linked.replayedAudit hdigest hx he hs (i + 1) d.etag

theorem Stores.of_readItem (h : Stores sha256 partitionKey c xs) {eventId : String}
    {stored : CosmosItem} (hread : c.readItem (eventItemId sha256 eventId) partitionKey = some stored)
    (hinj : Function.Injective sha256) : ∃ x ∈ xs, x.event.eventId = eventId := by
  obtain ⟨d, hd, -⟩ := Option.map_eq_some_iff.mp hread
  have hstored := h.events _ (eventItemId_ne_tip sha256 eventId)
  rw [hd] at hstored
  by_contra hnone
  rw [storedAt_eq_none fun x hx hid => hnone ⟨x, hx, eventItemId_injective hinj hid⟩] at hstored
  cases hstored

/-! ### Steps -/

theorem Answered.snoc {r : Except CosmosAuditError AppendedEvent} (h : Answered xs e r)
    (y : ChainEntry) : Answered (xs ++ [y]) e r := by
  cases h with
  | finalized hx hevent => exact .finalized (List.mem_append_left _ hx) hevent
  | stored hx hid hanswer => exact .stored (List.mem_append_left _ hx) hid hanswer
  | refused hs => exact .refused hs
  | exhausted message => exact .exhausted message

theorem PhaseOk.overtaken {phase : AppendPhase} (h : PhaseOk sha256 partitionKey c xs phase)
    (y : ChainEntry) (sequence : Nat) :
    PhaseOk sha256 partitionKey (extended sha256 partitionKey c sequence y) (xs ++ [y]) phase := by
  cases phase with
  | idle => trivial
  | reading e attempts => exact h
  | batching e attempts p =>
    obtain ⟨ys, x, tipOperation, hp⟩ := h
    exact ⟨ys, x, tipOperation, hp.overtaken y sequence⟩
  | rereading e attempts => exact h
  | returned e r => exact Answered.snoc h y

section Next
variable {attempts : Nat} {p : PreparedAppend}

theorem next_reading_refused {x : CosmosAuditError}
    (h : prepareAppend sha256 partitionKey e (c.readItem tipId partitionKey) = .error x) :
    (AppendPhase.reading e attempts).next sha256 partitionKey c = (c, .returned e (.error x)) := by
  simp only [AppendPhase.next, h]

theorem next_batching_written {written : CosmosContainer}
    (h : c.executeItemBatch p.operations partitionKey = some written) :
    (AppendPhase.batching e attempts p).next sha256 partitionKey c =
      (written, .returned e (.ok (.finalized e p.previousHash p.eventHash))) := by
  simp only [AppendPhase.next, h]

theorem next_batching_refused (h : c.executeItemBatch p.operations partitionKey = none) :
    (AppendPhase.batching e attempts p).next sha256 partitionKey c = (c, .rereading e attempts) := by
  simp only [AppendPhase.next, h]

theorem next_rereading_stored {stored : CosmosItem}
    (h : c.readItem (eventItemId sha256 e.eventId) partitionKey = some stored) :
    (AppendPhase.rereading e attempts).next sha256 partitionKey c =
      (c, .returned e (replayedAudit e stored)) := by
  simp only [AppendPhase.next, h]

end Next

/-- An exchange leaves the chain as it is, or adds one entry to it. -/
theorem next_cases (hinj : Function.Injective sha256) (hdigest : ∀ text, sha256 text ≠ "")
    (h : Stores sha256 partitionKey c xs) {phase : AppendPhase}
    (hphase : PhaseOk sha256 partitionKey c xs phase) :
    (∃ after, phase.next sha256 partitionKey c = (c, after) ∧
      PhaseOk sha256 partitionKey c xs after) ∨
    ∃ x after, phase.next sha256 partitionKey c =
        (extended sha256 partitionKey c (xs.length + 1) x, after) ∧
      Stores sha256 partitionKey (extended sha256 partitionKey c (xs.length + 1) x) (xs ++ [x]) ∧
      PhaseOk sha256 partitionKey (extended sha256 partitionKey c (xs.length + 1) x) (xs ++ [x])
        after := by
  cases phase with
  | idle => exact Or.inl ⟨_, rfl, hphase⟩
  | returned e r => exact Or.inl ⟨_, rfl, hphase⟩
  | reading e attempts =>
    left
    by_cases hs : Sendable e
    · have he : Restorable e := hphase.resolve_right (not_not_intro hs)
      obtain ⟨p, x, tipOperation, hprepare, hp⟩ := h.prepareAppend_pending hdigest he hs
      exact ⟨_, next_reading_prepared hprepare, xs, x, tipOperation, hp⟩
    · exact ⟨_, next_reading_refused (h.prepareAppend_refused hdigest hs), .refused hs⟩
  | batching e attempts p =>
    obtain ⟨ys, x, tipOperation, hp⟩ := hphase
    cases hbatch : c.executeItemBatch p.operations partitionKey with
    | none => exact Or.inl ⟨_, next_batching_refused hbatch, hp.restorable, hp.sendable⟩
    | some written =>
      obtain ⟨rfl, hstores⟩ := hp.batch hinj h hbatch
      refine Or.inr ⟨x, _, next_batching_written hbatch, hstores, ?_⟩
      have hmem : x ∈ xs ++ [x] := by simp
      rw [hp.previousHash, hp.eventHash]
      exact Answered.finalized hmem hp.event
  | rereading e attempts =>
    left
    obtain ⟨he, hs⟩ := hphase
    cases hread : c.readItem (eventItemId sha256 e.eventId) partitionKey with
    | some stored =>
      obtain ⟨x, hx, hid⟩ := h.of_readItem hread hinj
      obtain ⟨stored', hread', hanswer⟩ := h.reread hinj hdigest he hs hx hid
      obtain rfl := Option.some.inj (hread.symm.trans hread')
      exact ⟨_, next_rereading_stored hread, .stored hx hid hanswer⟩
    | none =>
      cases attempts with
      | zero =>
        have hnext : (AppendPhase.rereading e 0).next sha256 partitionKey c =
            (c, .returned e (.error (.exhausted ("audit chain tip could not be advanced; " ++
              "refusing to append without a linked predecessor")))) := by
          simp only [AppendPhase.next, hread]
          rfl
        exact ⟨_, hnext, Answered.exhausted _⟩
      | succ attempts =>
        exact ⟨.reading e attempts, by simp only [AppendPhase.next, hread], Or.inl he⟩

/-- The event of a call that a move begins can be carried. -/
def AuditMove.Carried : AuditMove → Prop
  | .start _ event => Cosmos.Carried event
  | .proceed _ => True

theorem step_start_busy {s : AuditSystem} {caller : Nat} (h : (s.phases caller).free = false)
    (event : NewAuditEvent) : (s.step sha256 partitionKey (.start caller event)).1 = s := by
  simp [AuditSystem.step, h]

theorem step_start_free {s : AuditSystem} {caller : Nat} (h : (s.phases caller).free = true)
    (event : NewAuditEvent) : (s.step sha256 partitionKey (.start caller event)).1 =
      ⟨s.container, Function.update s.phases caller (.reading event (maxTipAttempts - 1))⟩ := by
  simp [AuditSystem.step, h]

theorem step_proceed {s : AuditSystem} {caller : Nat} {after : CosmosContainer} {phase : AppendPhase}
    (h : (s.phases caller).next sha256 partitionKey s.container = (after, phase)) :
    (s.step sha256 partitionKey (.proceed caller)).1 =
      ⟨after, Function.update s.phases caller phase⟩ := by
  simp [AuditSystem.step, h]

theorem AuditInvariant.initial : AuditInvariant sha256 partitionKey .initial [] :=
  ⟨stores_empty, fun _ => trivial⟩

theorem AuditInvariant.step (hinj : Function.Injective sha256) (hdigest : ∀ text, sha256 text ≠ "")
    {s : AuditSystem} (h : AuditInvariant sha256 partitionKey s xs) {m : AuditMove} (hm : m.Carried) :
    ∃ ys, AuditInvariant sha256 partitionKey (s.step sha256 partitionKey m).1 (xs ++ ys) := by
  cases m with
  | start caller event =>
    refine ⟨[], ?_⟩
    rw [List.append_nil]
    cases hfree : (s.phases caller).free with
    | false =>
      rw [step_start_busy hfree]
      exact h
    | true =>
      rw [step_start_free hfree]
      refine ⟨h.stores, ?_⟩
      intro other
      by_cases hother : other = caller
      · subst hother
        simpa [PhaseOk, AuditMove.Carried] using hm
      · simpa [hother] using h.phases other
  | proceed caller =>
    rcases next_cases hinj hdigest h.stores (h.phases caller) with
      ⟨after, hnext, hafter⟩ | ⟨x, after, hnext, hstores, hafter⟩
    · refine ⟨[], ?_⟩
      rw [List.append_nil, step_proceed hnext]
      refine ⟨h.stores, ?_⟩
      intro other
      by_cases hother : other = caller
      · subst hother
        simpa using hafter
      · simpa [hother] using h.phases other
    · refine ⟨[x], ?_⟩
      rw [step_proceed hnext]
      refine ⟨hstores, ?_⟩
      intro other
      by_cases hother : other = caller
      · subst hother
        simpa using hafter
      · simpa [hother] using (h.phases other).overtaken x (xs.length + 1)

theorem AuditInvariant.run (hinj : Function.Injective sha256) (hdigest : ∀ text, sha256 text ≠ "")
    {s : AuditSystem} (h : AuditInvariant sha256 partitionKey s xs) {moves : List AuditMove}
    (hmoves : ∀ m ∈ moves, m.Carried) :
    ∃ ys, AuditInvariant sha256 partitionKey (runState (AuditSystem.step sha256 partitionKey) s moves)
      (xs ++ ys) := by
  induction moves generalizing s xs with
  | nil => exact ⟨[], by simpa using h⟩
  | cons m moves ih =>
    obtain ⟨ys, hstep⟩ := h.step hinj hdigest (hmoves m (by simp))
    obtain ⟨zs, hrun⟩ := ih hstep fun m hm => hmoves m (List.mem_cons_of_mem _ hm)
    exact ⟨ys ++ zs, by rw [← List.append_assoc]; exact hrun⟩

/-! ### Appending under a stored id -/

/-- A call for an id that is stored, by the exchanges it still needs. -/
inductive CallAt (x : ChainEntry) (e : NewAuditEvent) : AppendPhase → Nat → Prop
  | reading (attempts : Nat) : CallAt x e (.reading e attempts) 3
  | batching (attempts : Nat) (p : PreparedAppend) : CallAt x e (.batching e attempts p) 2
  | rereading (attempts : Nat) : CallAt x e (.rereading e attempts) 1
  | returned {r : Except CosmosAuditError AppendedEvent} : answerFrom e x r →
      CallAt x e (.returned e r) 0

theorem CallAt.returned_of_zero {x : ChainEntry} {phase : AppendPhase} (h : CallAt x e phase 0) :
    ∃ r, phase = .returned e r ∧ answerFrom e x r := by
  cases h with
  | returned hanswer => exact ⟨_, rfl, hanswer⟩

/-- Every exchange brings the call nearer to its answer and writes nothing. -/
theorem CallAt.next (hinj : Function.Injective sha256) (hdigest : ∀ text, sha256 text ≠ "")
    (h : Stores sha256 partitionKey c xs) {x : ChainEntry} (hx : x ∈ xs)
    (hid : x.event.eventId = e.eventId) (he : Restorable e) (hs : Sendable e) {phase : AppendPhase}
    {n : Nat} (hcall : CallAt x e phase n) (hphase : PhaseOk sha256 partitionKey c xs phase) :
    ∃ after, phase.next sha256 partitionKey c = (c, after) ∧ CallAt x e after (n - 1) := by
  cases hcall with
  | reading attempts =>
    obtain ⟨p, y, tipOperation, hprepare, -⟩ := h.prepareAppend_pending hdigest he hs
    exact ⟨_, next_reading_prepared hprepare, .batching attempts p⟩
  | batching attempts p =>
    obtain ⟨ys, y, tipOperation, hp⟩ := hphase
    exact ⟨_, next_batching_refused (hp.refused hinj h hx hid), .rereading attempts⟩
  | rereading attempts =>
    obtain ⟨stored, hread, hanswer⟩ := h.reread hinj hdigest he hs hx hid
    exact ⟨_, next_rereading_stored hread, .returned hanswer⟩
  | returned hanswer => exact ⟨_, rfl, .returned hanswer⟩

/-- Moves of a caller's own call. -/
def AuditMove.proceeds (caller : Nat) : AuditMove → Bool
  | .start _ _ => false
  | .proceed other => other == caller

def AuditMove.starts (caller : Nat) : AuditMove → Bool
  | .start other _ => other == caller
  | .proceed _ => false

theorem phases_step_of_other {s : AuditSystem} {caller : Nat} {m : AuditMove}
    (hproceeds : m.proceeds caller = false) (hstarts : m.starts caller = false) :
    (s.step sha256 partitionKey m).1.phases caller = s.phases caller := by
  cases m with
  | start other event =>
    have hne : caller ≠ other := fun heq => by simp [AuditMove.starts, heq] at hstarts
    unfold AuditSystem.step
    dsimp only
    split
    · simp [hne]
    · rfl
  | proceed other =>
    have hne : caller ≠ other := fun heq => by simp [AuditMove.proceeds, heq] at hproceeds
    simp [AuditSystem.step, hne]

/-- A call for a stored id among any moves of other callers. -/
theorem CallAt.run (hinj : Function.Injective sha256) (hdigest : ∀ text, sha256 text ≠ "")
    {x : ChainEntry} (hid : x.event.eventId = e.eventId) (he : Restorable e) (hs : Sendable e)
    {caller : Nat} {moves : List AuditMove} (hmoves : ∀ m ∈ moves, m.Carried)
    (hstarts : ∀ m ∈ moves, m.starts caller = false) {s : AuditSystem}
    (h : AuditInvariant sha256 partitionKey s xs) (hx : x ∈ xs) {n : Nat}
    (hcall : CallAt x e (s.phases caller) n) :
    ∃ ys left, AuditInvariant sha256 partitionKey
        (runState (AuditSystem.step sha256 partitionKey) s moves) (xs ++ ys) ∧
      CallAt x e ((runState (AuditSystem.step sha256 partitionKey) s moves).phases caller) left ∧
      left ≤ n - moves.countP (AuditMove.proceeds caller) := by
  induction moves generalizing s xs n with
  | nil => exact ⟨[], n, by simpa using h, hcall, by simp⟩
  | cons m moves ih =>
    obtain ⟨ys, hstep⟩ := h.step hinj hdigest (hmoves m (by simp))
    have hmoves' : ∀ m ∈ moves, m.Carried := fun m hm => hmoves m (List.mem_cons_of_mem _ hm)
    have hstarts' : ∀ m ∈ moves, m.starts caller = false :=
      fun m hm => hstarts m (List.mem_cons_of_mem _ hm)
    have hx' : x ∈ xs ++ ys := List.mem_append_left _ hx
    cases hown : m.proceeds caller with
    | false =>
      have hphase : CallAt x e ((s.step sha256 partitionKey m).1.phases caller) n := by
        rw [phases_step_of_other hown (hstarts m (by simp))]
        exact hcall
      obtain ⟨zs, left, hrun, hleft, hle⟩ := ih hmoves' hstarts' hstep hx' hphase
      refine ⟨ys ++ zs, left, by rw [← List.append_assoc]; exact hrun, hleft, ?_⟩
      rw [List.countP_cons_of_neg (by simp [hown])]
      exact hle
    | true =>
      cases m with
      | start other event => cases hown
      | proceed other =>
        obtain rfl : other = caller := by simpa [AuditMove.proceeds] using hown
        obtain ⟨after, hnext, hafter⟩ :=
          hcall.next hinj hdigest h.stores hx hid he hs (h.phases other)
        have hphase : CallAt x e ((s.step sha256 partitionKey (.proceed other)).1.phases other)
            (n - 1) := by
          rw [step_proceed hnext]
          simpa using hafter
        obtain ⟨zs, left, hrun, hleft, hle⟩ := ih hmoves' hstarts' hstep hx' hphase
        refine ⟨ys ++ zs, left, by rw [← List.append_assoc]; exact hrun, hleft, ?_⟩
        rw [List.countP_cons_of_pos hown]
        omega

/-! ### The law of the log -/

/-- One linear chain: the entry at place `i` is stored under the sequence number `i + 1` and
reads back with its event's content, it is linked to the one before it, the tip names the
last, no id stands twice, and nothing else is stored. -/
structure ChainLaw (sha256 : String → String) (partitionKey : String) (s : AuditSystem)
    (xs : List ChainEntry) : Prop where
  stored : ∀ (i : Nat) (x : ChainEntry), xs[i]? = some x → ∃ d, d.body = x.body sha256 partitionKey (i + 1) ∧
    s.container.documents.lookup (partitionKey, eventItemId sha256 x.event.eventId) = some d
  reads : ∀ x ∈ xs, x.event.HasContent x.restored ∧
    auditEventFromPayload (auditEventPayload x.event x.payload x.previousHash x.eventHash) =
      .ok x.restored
  links : ∀ (i : Nat) (x : ChainEntry), xs[i]? = some x → x.previousHash = (xs.take i).getLast?.map (·.eventHash) ∧
    (x.event.canonical x.previousHash).map sha256 = some x.eventHash
  tip : (s.container.documents.lookup (partitionKey, tipId)).map (·.body) =
    xs.getLast?.map fun x => tipBody partitionKey xs.length x.event.eventId x.eventHash
  ids : (xs.map (·.event.eventId)).Nodup
  only : ∀ item d, s.container.documents.lookup (partitionKey, item) = some d →
    item = tipId ∨ ∃ x ∈ xs, item = eventItemId sha256 x.event.eventId
  answers : ∀ caller e r, s.phases caller = .returned e r → Answered xs e r

/-- Appending under a stored id, among any moves of other callers: no exchange of the call
writes, and after three of them it has its answer from the stored entry. -/
def AnswersFromStored (sha256 : String → String) (partitionKey : String) (s : AuditSystem)
    (xs : List ChainEntry) : Prop :=
  ∀ caller e x moves, (s.phases caller).free = true → x ∈ xs → x.event.eventId = e.eventId →
    Carried e → Sendable e → (∀ m ∈ moves, m.Carried) → (∀ m ∈ moves, m.starts caller = false) →
    let after := runState (AuditSystem.step sha256 partitionKey) s (.start caller e :: moves)
    (after.step sha256 partitionKey (.proceed caller)).1.container = after.container ∧
      (3 ≤ moves.countP (AuditMove.proceeds caller) →
        ∃ r, after.phases caller = .returned e r ∧ answerFrom e x r)

theorem Linked.links (h : Linked sha256 xs) {i : Nat} {x : ChainEntry} (hx : xs[i]? = some x) :
    x.previousHash = (xs.take i).getLast?.map (·.eventHash) ∧
      (x.event.canonical x.previousHash).map sha256 = some x.eventHash := by
  induction h with
  | nil => simp at hx
  | @snoc xs y hxs hprevious hhash hwire hrestorable hfresh ih =>
    rcases getElem?_snoc hx with ⟨hi, hx⟩ | ⟨rfl, rfl⟩
    · rw [List.take_append_of_le_length (by omega)]
      exact ih hx
    · rw [List.take_left]
      exact ⟨hprevious, hhash⟩

theorem Linked.ids (h : Linked sha256 xs) : (xs.map (·.event.eventId)).Nodup := by
  induction h with
  | nil => simp
  | @snoc xs y hxs hprevious hhash hwire hrestorable hfresh ih =>
    rw [List.map_append, List.nodup_append]
    refine ⟨ih, by simp, ?_⟩
    intro id hid id' hid'
    obtain ⟨z, hz, rfl⟩ := List.mem_map.mp hid
    have hlast : id' = y.event.eventId := by simpa using hid'
    rw [hlast]
    exact hfresh z hz

theorem AuditInvariant.chainLaw (hinj : Function.Injective sha256)
    (hdigest : ∀ text, sha256 text ≠ "") {s : AuditSystem}
    (h : AuditInvariant sha256 partitionKey s xs) : ChainLaw sha256 partitionKey s xs where
  stored i x hx := by
    obtain ⟨d, hd, hbody⟩ := h.stores.lookup_event hinj hx
    exact ⟨d, hbody, hd⟩
  reads x hx := ⟨h.stores.linked.hasContent hx, h.stores.linked.auditEventFromPayload hdigest hx⟩
  links i x hx := h.stores.linked.links hx
  tip := h.stores.tip
  ids := h.stores.linked.ids
  only item d hd := by
    by_cases htip : item = tipId
    · exact Or.inl htip
    · have hstored := h.stores.events item htip
      rw [hd, Option.map_some] at hstored
      by_contra hnone
      push Not at hnone
      rw [storedAt_eq_none fun x hx hid => hnone.2 x hx hid.symm] at hstored
      cases hstored
  answers caller e r hphase := by
    have hanswered := h.phases caller
    rw [hphase] at hanswered
    exact hanswered

theorem AuditInvariant.answersFromStored (hinj : Function.Injective sha256)
    (hdigest : ∀ text, sha256 text ≠ "") {s : AuditSystem}
    (h : AuditInvariant sha256 partitionKey s xs) : AnswersFromStored sha256 partitionKey s xs := by
  intro caller e x moves hfree hx hid hcarried hs hmoves hstarts after
  have he : Restorable e := hcarried.resolve_right (not_not_intro hs)
  obtain ⟨ys, hstart⟩ := h.step hinj hdigest (m := .start caller e) hcarried
  have hcall : CallAt x e ((s.step sha256 partitionKey (.start caller e)).1.phases caller) 3 := by
    rw [step_start_free hfree]
    simpa using CallAt.reading (maxTipAttempts - 1)
  obtain ⟨zs, left, hrun, hleft, hle⟩ :=
    CallAt.run hinj hdigest hid he hs hmoves hstarts hstart (List.mem_append_left _ hx) hcall
  refine ⟨?_, ?_⟩
  · obtain ⟨phase, hnext, -⟩ := hleft.next hinj hdigest hrun.stores
      (List.mem_append_left _ (List.mem_append_left _ hx)) hid he hs (hrun.phases caller)
    have hafter := congrArg AuditSystem.container (step_proceed hnext)
    exact hafter
  · intro hthree
    obtain rfl : left = 0 := by omega
    exact hleft.returned_of_zero

/-- Whatever the interleaving of concurrent appends, they leave one chain, and every later
append under one of its ids is answered from it. -/
theorem concurrent_appends_chain (sha256 : String → String) (hinj : Function.Injective sha256)
    (hdigest : ∀ text, sha256 text ≠ "") (partitionKey : String) (moves : List AuditMove)
    (hmoves : ∀ m ∈ moves, m.Carried) :
    ∃ xs, ChainLaw sha256 partitionKey (auditSystemAfter sha256 partitionKey moves) xs ∧
      AnswersFromStored sha256 partitionKey (auditSystemAfter sha256 partitionKey moves) xs := by
  have hinitial : AuditInvariant sha256 partitionKey .initial [] := AuditInvariant.initial
  obtain ⟨xs, hrun⟩ := hinitial.run hinj hdigest hmoves
  rw [List.nil_append] at hrun
  exact ⟨xs, hrun.chainLaw hinj hdigest, hrun.answersFromStored hinj hdigest⟩

end

/-- SHA-256 on the two texts that are hashed for `plannedEvent`. -/
def plannedDigests : List (String × String) :=
  [("evt-1", "7b409f932d2c88e97f0c17676c8420d3ea0dab6edb150a89b5684a8ad6d6c4c7"),
    ((plannedEvent.canonical none).getD "",
      "7f1e8bc9c8198ee9d6f7c7419a2c9db7069f45abb440597f035e74a4b8001b25")]

/-- Two callers append the planning step, each reading the tip before the other writes. -/
def plannedTwice : List AuditMove :=
  [.start 0 plannedEvent, .start 1 plannedEvent, .proceed 0, .proceed 1, .proceed 1, .proceed 0,
    .proceed 0]

theorem planned_twice_chain :
    (auditSystemAfter (digestsAt plannedDigests) auditPartitionKey plannedTwice).container.writes = 2 ∧
      ∃ xs, ChainLaw (digestsAt plannedDigests) auditPartitionKey
          (auditSystemAfter (digestsAt plannedDigests) auditPartitionKey plannedTwice) xs ∧
        AnswersFromStored (digestsAt plannedDigests) auditPartitionKey
          (auditSystemAfter (digestsAt plannedDigests) auditPartitionKey plannedTwice) xs := by
  have hdigests : (plannedDigests.map (·.2)).Nodup := by decide
  have hhead : ∀ p ∈ plannedDigests, p.2.toList.head? ≠ some 'z' := by decide
  have hblank : ∀ p ∈ plannedDigests, p.2 ≠ "" := by decide
  refine ⟨by decide, concurrent_appends_chain _ (digestsAt_injective hdigests hhead)
    (digestsAt_ne_blank hblank) _ _ ?_⟩
  have hplanned : Restorable plannedEvent := ⟨by decide, by decide,
    by decide, by decide, by decide, by decide, plannedEvent_steady⟩
  intro m hm
  simp only [plannedTwice, List.mem_cons, List.not_mem_nil, or_false] at hm
  rcases hm with rfl | rfl | rfl | rfl | rfl | rfl | rfl
  · exact Or.inl hplanned
  · exact Or.inl hplanned
  all_goals trivial

/-- The planning step under a blank actor. -/
def blankActorEvent : NewAuditEvent := { plannedEvent with actor := "" }

def blankActorDigests : List (String × String) :=
  [("evt-1", "7b409f932d2c88e97f0c17676c8420d3ea0dab6edb150a89b5684a8ad6d6c4c7"),
    ((blankActorEvent.canonical none).getD "",
      "fe83612d55ee35d36c365fef9cbee47d2793a47395093b6e9f9611a39d81a3bb")]

/-- What a call has raised. -/
def AppendPhase.raised : AppendPhase → Option CosmosAuditError
  | returned _ (.error x) => some x
  | _ => none

/-- The first append stores the event; the second, of the same event, cannot read it back.
The reference log returns the stored event here. -/
theorem blank_actor_not_replayed :
    let first := auditSystemAfter (digestsAt blankActorDigests) auditPartitionKey
      [.start 0 blankActorEvent, .proceed 0, .proceed 0]
    let second := runState (AuditSystem.step (digestsAt blankActorDigests) auditPartitionKey) first
      [.start 0 blankActorEvent, .proceed 0, .proceed 0, .proceed 0]
    (first.phases 0).raised = none ∧ first.container.writes = 2 ∧
      (second.phases 0).raised =
        some (.storedAudit "Cosmos audit field 'actor' must be a non-blank string") ∧
      (auditAppend (digestsAt blankActorDigests)
        (auditAppend (digestsAt blankActorDigests) [] blankActorEvent "").1 blankActorEvent "").2.isOk =
          true := by
  decide +kernel

end EngineeringIntelligence.State.Cosmos
