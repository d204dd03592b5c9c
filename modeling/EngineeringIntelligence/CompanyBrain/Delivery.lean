import EngineeringIntelligence.CompanyBrain.Materialized

namespace EngineeringIntelligence.CompanyBrain

open EngineeringIntelligence.Framework EngineeringIntelligence.Ingestion

/-! Calls that may raise and that may be delivered again: what decides whether a call goes through, what one that raises
leaves, and what a second delivery does. -/

section
variable {q : MemoryProjector} {sha256 : String → String} {c : Call} {m : Memory}

/-- The item has something to write for its plan. -/
def Plan.pendingIn (p : Plan) (q : MemoryProjector) (i : Item) (s : Store) : Prop := i.pending p (s.rows q.tenantId)

/-- The store will refuse the item when its plan comes to it. -/
def Plan.refusedIn (p : Plan) (q : MemoryProjector) (i : Item) (s : Store) : Prop := p.refused (s.rows q.tenantId) i

/-- The intent can be carried out on the state: none of the writes that it has to make would be refused, and what it
is to record is valid. -/
def Intent.Allowed (q : MemoryProjector) (s : Store) : Intent → Prop
  | raises _ => False
  | keeps _ | notes _ => True
  | carries plan record => Permitted (plan.pendingIn q) (plan.refusedIn q) plan.items s ∧ ∃ p, record = .ok p

/-- Carrying the intent out leaves the store as it is: there is nothing to write, or the first write is refused. -/
def Intent.Idle (q : MemoryProjector) (s : Store) : Intent → Prop
  | raises _ | keeps _ | notes _ => True
  | carries plan _ => RefusedFirst (plan.pendingIn q) (plan.refusedIn q) plan.items s ∨
      ∀ i ∈ plan.items, ¬ plan.pendingIn q i s

theorem not_ok_of_error {ε α : Type} {x : ε} : ¬ ∃ r : α, Except.error x = .ok r := by
  rintro ⟨r, hr⟩
  cases hr

/-- Whatever has gone before, whether a call goes through is decided by what it finds, before it writes anything. -/
theorem goes_through_iff (q : MemoryProjector) (sha256 : String → String) (calls : List Call) (c : Call) :
    GoesThrough q sha256 (runState (q.step sha256) Memory.empty calls) c ↔
      (q.intent sha256 c (runState (q.step sha256) Memory.empty calls)).Allowed q
        (runState (q.step sha256) Memory.empty calls).store := by
  have hlawful : Lawful q (runState (q.step sha256) Memory.empty calls) :=
    run_invariant (q.step sha256) (fun _ _ h => h.step) (lawful_empty q) calls
  generalize runState (q.step sha256) Memory.empty calls = m at hlawful
  rw [GoesThrough, step_eq]
  generalize hintent : q.intent sha256 c m = intent
  cases intent with
  | raises x => exact iff_of_false not_ok_of_error id
  | keeps r => exact iff_of_true ⟨r, rfl⟩ trivial
  | notes p => exact iff_of_true ⟨_, rfl⟩ trivial
  | carries plan record =>
    obtain ⟨hfits, -, -⟩ := hlawful.carries hintent
    have hok := (hfits.law q c.clock (m.store.rows q.tenantId)).ok_iff (Rows.Agree.refl _ _)
    simp only [Intent.enact, Intent.Allowed]
    refine Iff.trans ?_ (and_congr_left' hok)
    rw [← Plan.carryOut]
    split
    · next s x hcarry =>
      refine iff_of_false not_ok_of_error ?_
      rintro ⟨⟨s', hs'⟩, -⟩
      cases (Prod.mk.inj (hcarry.symm.trans hs')).2
    · next s hcarry =>
      cases record with
      | error x => exact iff_of_false not_ok_of_error fun h => not_ok_of_error h.2
      | ok p => exact iff_of_true ⟨_, rfl⟩ ⟨⟨s, hcarry⟩, p, rfl⟩

/-- What a call that raises leaves: the journal, the rows of the store that its plan does not name, and all of the
store exactly when it had nothing to write or was refused its first write. -/
structure LeftByError (q : MemoryProjector) (sha256 : String → String) (m : Memory) (c : Call) : Prop where
  journal : (q.step sha256 m c).1.journal = m.journal
  store : (q.step sha256 m c).1.store = m.store ↔ (q.intent sha256 c m).Idle q m.store
  rest : ∀ plan record, q.intent sha256 c m = .carries plan record →
    Rows.Agree plan.places (m.store.rows q.tenantId) ((q.step sha256 m c).1.store.rows q.tenantId)

/-- Whatever has gone before, a call goes through or leaves what a refused one leaves. -/
theorem raising_call_leaves (q : MemoryProjector) (sha256 : String → String) (calls : List Call) (c : Call) :
    GoesThrough q sha256 (runState (q.step sha256) Memory.empty calls) c ∨
      LeftByError q sha256 (runState (q.step sha256) Memory.empty calls) c := by
  have hlawful : Lawful q (runState (q.step sha256) Memory.empty calls) :=
    run_invariant (q.step sha256) (fun _ _ h => h.step) (lawful_empty q) calls
  generalize runState (q.step sha256) Memory.empty calls = m at hlawful
  have hleft : (∀ r, (q.step sha256 m c).2 ≠ .ok r) → LeftByError q sha256 m c := by
    intro hraises
    suffices h : (q.step sha256 m c).1.journal = m.journal ∧
        ((q.step sha256 m c).1.store = m.store ↔ (q.intent sha256 c m).Idle q m.store) ∧
        ∀ plan record, q.intent sha256 c m = .carries plan record →
          Rows.Agree plan.places (m.store.rows q.tenantId) ((q.step sha256 m c).1.store.rows q.tenantId) from
      ⟨h.1, h.2.1, h.2.2⟩
    rw [step_eq] at hraises ⊢
    generalize hintent : q.intent sha256 c m = intent at hraises
    cases intent with
    | raises x =>
      refine ⟨rfl, iff_of_true rfl trivial, fun plan record h => ?_⟩
      cases h
    | keeps r => exact absurd rfl (hraises r)
    | notes p => exact absurd rfl (hraises _)
    | carries plan record =>
      obtain ⟨hfits, -, -⟩ := hlawful.carries hintent
      obtain ⟨hagree, hsame⟩ := (hfits.law q c.clock (m.store.rows q.tenantId)).unchanged_iff (Rows.Agree.refl _ _)
      rw [← Plan.carryOut] at hagree hsame
      have hrest : ∀ plan' record', Intent.carries plan record = .carries plan' record' →
          Rows.Agree plan'.places (m.store.rows q.tenantId)
            ((plan.carryOut q c.clock m.store).1.rows q.tenantId) := by
        rintro _ _ ⟨⟩
        exact hagree
      simp only [Intent.enact] at hraises ⊢
      generalize plan.carryOut q c.clock m.store = out at hraises hrest hsame
      obtain ⟨s, ⟨x⟩ | ⟨⟨⟩⟩⟩ := out
      · exact ⟨rfl, hsame, hrest⟩
      · cases record with
        | error x => exact ⟨rfl, hsame, hrest⟩
        | ok p => exact absurd rfl (hraises _)
  by_cases hgoes : GoesThrough q sha256 m c
  · exact .inl hgoes
  · exact .inr (hleft fun r hr => hgoes ⟨r, hr⟩)

/-! ### Redelivery -/

namespace Call

/-- The state a projection of the call's source is in when the call has gone through. -/
def state (c : Call) : ProjectionState :=
  match c.change.changeType with
  | .upsert => .active
  | .delete => .deleted

/-- The fingerprint the call records. -/
def mark (sha256 : String → String) (c : Call) : String :=
  match c.change.changeType with
  | .upsert => c.change.fingerprint sha256
  | .delete => "deleted:" ++ c.change.documentId

theorem provenance_at (c : Call) (clock : Clock) {v : BrainProvenance} (h : c.provenance = .ok v) :
    v.eventId = c.eventId ∧ ∃ w, ({ c with clock := clock } : Call).provenance = .ok w ∧ w.eventId = c.eventId := by
  unfold provenance BrainProvenance.make at h ⊢
  split at h
  · cases h
  · next hvalid =>
    cases h
    refine ⟨rfl, ?_⟩
    split
    · next hproblem => exact absurd (hvalid.symm.trans hproblem) (by simp)
    · exact ⟨_, rfl, rfl⟩

end Call

/-- The journal has what the call makes of its source. -/
structure Delivered (q : MemoryProjector) (sha256 : String → String) (c : Call) (j : Journal) : Prop where
  provenance : ∃ v, c.provenance = .ok v
  key : required 500 c.change.sourceKey = true
  found : ∃ p, j.get (q.tenantId, c.change.sourceKey) = some p ∧ p.state = c.state ∧
    (c.eventId.isSome = true → p.provenance.eventId = c.eventId → p.fingerprint = c.mark sha256) ∧
    (c.change.changeType = .upsert → p.fingerprint = c.mark sha256)

/-- A call that has nothing new to say is answered so, whenever it comes. -/
theorem Delivered.keeps (h : Delivered q sha256 c m.journal) (clock : Clock) :
    ∃ p, q.intent sha256 { c with clock := clock } m = .keeps (receipt p false true) := by
  obtain ⟨v, hv⟩ := h.provenance
  obtain ⟨-, w, hw, hevent⟩ := c.provenance_at clock hv
  obtain ⟨p, hp, hstate, hsame, hmark⟩ := h.found
  have hcheck : q.assertNotConflictingReplay m.journal c.change.sourceKey (c.mark sha256) c.state w = .ok (some p) := by
    refine assertNotConflictingReplay_ok_iff.mpr ⟨h.key, hp.symm, fun old hold hsome heq => ?_⟩
    rw [hp] at hold
    cases hold
    rw [hevent] at hsome heq
    exact ⟨hstate, hsame hsome heq⟩
  refine ⟨p, ?_⟩
  unfold MemoryProjector.intent
  rw [hw]
  dsimp only
  cases htype : c.change.changeType with
  | delete =>
    simp only [Call.state, Call.mark, htype] at hcheck hstate
    simp only [MemoryProjector.deleteIntent, hcheck, hstate, if_true]
  | upsert =>
    have hmarked := hmark htype
    simp only [Call.state, Call.mark, htype] at hcheck hstate hmarked
    simp only [MemoryProjector.upsertIntent, hcheck, Option.filter_some, hstate, hmarked, decide_true, Bool.and_self,
      if_true]

/-- The journal has what the call makes of its source once it has recorded that. -/
theorem delivered_put {v : BrainProvenance} {j : Journal} {sourceKind : String}
    {entityIds ownedEntityIds evidenceIds : List String} {relationships : List BrainRelationship} {updatedAt : Int}
    {p : BrainSourceProjection} (hv : c.provenance = .ok v) (hkey : required 500 c.change.sourceKey = true)
    (h : BrainSourceProjection.make q.tenantId c.change.sourceKey sourceKind c.state (c.mark sha256) v entityIds
      ownedEntityIds evidenceIds relationships updatedAt = .ok p) : Delivered q sha256 c (j.put p) := by
  obtain ⟨ht, hk, hs, hf, -⟩ := BrainSourceProjection.make_eq_ok h
  refine ⟨⟨v, hv⟩, hkey, p, ?_, hs, fun _ _ => hf, fun _ => hf⟩
  rw [Journal.get_put_projection _ ht, hk, if_pos rfl]

theorem delivered_deletion {v : BrainProvenance} {r : ProjectionReceipt} (hv : c.provenance = .ok v)
    (htype : c.change.changeType = .delete)
    (h : ((q.deleteIntent c.clock c.change.sourceKey c.change.sourceKind ("deleted:" ++ c.change.documentId) v
      m).enact q c.clock m).2 = .ok r) :
    Delivered q sha256 c ((q.deleteIntent c.clock c.change.sourceKey c.change.sourceKind
      ("deleted:" ++ c.change.documentId) v m).enact q c.clock m).1.journal := by
  have hstate : c.state = .deleted := by rw [Call.state, htype]
  have hmark : c.mark sha256 = "deleted:" ++ c.change.documentId := by rw [Call.mark, htype]
  have hevent := (c.provenance_at c.clock hv).1
  rw [← hmark] at h ⊢
  unfold MemoryProjector.deleteIntent at h ⊢
  rw [← hstate] at h ⊢
  split at h
  · cases h
  · next hcheck =>
    obtain ⟨hkey, -⟩ := assertNotConflictingReplay_ok_iff.mp hcheck
    split at h
    · cases h
    · next p hp => exact delivered_put hv hkey hp
  · next previous hcheck =>
    obtain ⟨hkey, hold, hsame⟩ := assertNotConflictingReplay_ok_iff.mp hcheck
    split at h
    · next hdeleted =>
      rw [if_pos hdeleted]
      refine ⟨⟨v, hv⟩, hkey, previous, hold.symm, hdeleted, fun hsome heq => ?_, fun hupsert => ?_⟩
      · rw [← hevent] at hsome heq
        exact (hsame previous hold.symm hsome heq).2
      · rw [htype] at hupsert
        cases hupsert
    · next hactive =>
      rw [if_neg hactive]
      simp only [Intent.enact] at h ⊢
      split at h
      · cases h
      · split at h
        · cases h
        · next p hp => exact delivered_put hv hkey hp

theorem delivered_upsert {v : BrainProvenance} {r : ProjectionReceipt} (hv : c.provenance = .ok v)
    (htype : c.change.changeType = .upsert)
    (h : ((q.upsertIntent c.clock c.change.sourceKey c.change.sourceKind (c.change.fingerprint sha256) v c.change.upsert
      m).enact q c.clock m).2 = .ok r) :
    Delivered q sha256 c ((q.upsertIntent c.clock c.change.sourceKey c.change.sourceKind (c.change.fingerprint sha256) v
      c.change.upsert m).enact q c.clock m).1.journal := by
  have hstate : c.state = .active := by rw [Call.state, htype]
  have hmark : c.mark sha256 = c.change.fingerprint sha256 := by rw [Call.mark, htype]
  rw [← hmark] at h ⊢
  unfold MemoryProjector.upsertIntent at h ⊢
  split at h
  · cases h
  next previous hcheck =>
  obtain ⟨hkey, rfl, -⟩ := assertNotConflictingReplay_ok_iff.mp hcheck
  split at h
  · next p hp =>
    obtain ⟨hold, hseen⟩ := Option.filter_eq_some_iff.mp hp
    simp only [Bool.and_eq_true, decide_eq_true_eq] at hseen
    exact ⟨⟨v, hv⟩, hkey, p, hold, hseen.1.trans hstate.symm, fun _ _ => hseen.2, fun _ => hseen.2⟩
  split at h
  · cases h
  split at h
  · cases h
  split at h
  · cases h
  next p hp =>
  simp only [Intent.enact] at h ⊢
  split at h
  · cases h
  · unfold MemoryProjector.projectionOf at hp
    dsimp only at hp
    split at hp
    · cases hp
    · rw [← hstate] at hp
      exact delivered_put hv hkey hp

/-- A call that goes through is delivered. -/
theorem GoesThrough.delivered (h : GoesThrough q sha256 m c) : Delivered q sha256 c (q.step sha256 m c).1.journal := by
  obtain ⟨r, hr⟩ := h
  rw [step_eq] at hr ⊢
  unfold MemoryProjector.intent at hr ⊢
  cases hv : c.provenance with
  | error x =>
    rw [hv] at hr
    cases hr
  | ok v =>
    simp only [hv] at hr ⊢
    cases htype : c.change.changeType with
    | delete =>
      simp only [htype] at hr ⊢
      exact delivered_deletion hv htype hr
    | upsert =>
      simp only [htype] at hr ⊢
      exact delivered_upsert hv htype hr

/-- Delivered again, however much later and whatever the clock says then, as long as no other call for its source has
come between: a call that went through changes nothing and is answered as a duplicate. -/
theorem redelivery_is_idle (q : MemoryProjector) (sha256 : String → String) (before between : List Call) (c : Call)
    (clock : Clock) (h : GoesThrough q sha256 (runState (q.step sha256) Memory.empty before) c)
    (hothers : ∀ d ∈ between, d.change.sourceKey ≠ c.change.sourceKey) :
    ∃ p, q.step sha256 (runState (q.step sha256) Memory.empty (before ++ c :: between)) { c with clock := clock } =
      (runState (q.step sha256) Memory.empty (before ++ c :: between), .ok (receipt p false true)) := by
  have hrun : Lawful q (runState (q.step sha256) Memory.empty (before ++ c :: between)) ∧
      Delivered q sha256 c (runState (q.step sha256) Memory.empty (before ++ c :: between)).journal := by
    have hlawful : Lawful q (runState (q.step sha256) Memory.empty before) :=
      run_invariant (q.step sha256) (fun _ _ h => h.step) (lawful_empty q) before
    have hadmissible : Admissible (q.step sha256) (fun _ d => d.change.sourceKey ≠ c.change.sourceKey)
        (q.step sha256 (runState (q.step sha256) Memory.empty before) c).1 between :=
      admissible_of_forall _ (fun d hd _ => hothers d hd) _
    rw [runState_append, runState_cons]
    refine run_guarded (P := fun m => Lawful q m ∧ Delivered q sha256 c m.journal) (q.step sha256)
      (fun m d hm hd => ⟨hm.1.step, ?_⟩) ⟨hlawful.step, h.delivered⟩ hadmissible
    obtain ⟨hm, hv, hkey, p, hp, hrest⟩ := hm
    exact ⟨hv, hkey, p, (hm.journal_other fun hkeys => hd (Prod.mk.inj hkeys).2.symm).trans hp, hrest⟩
  obtain ⟨p, hp⟩ := hrun.2.keeps clock
  exact ⟨p, by rw [step_eq, hp]; rfl⟩

end

theorem payments_redelivered :
    ∃ p, Sample.acme.step Sample.digest (runState (Sample.acme.step Sample.digest) Memory.empty
        [Sample.call (.file (Sample.payments "one" "payments"))])
        { Sample.call (.file (Sample.payments "one" "payments")) with clock := ⟨9, 9, fun n => n + 9⟩ } =
      (runState (Sample.acme.step Sample.digest) Memory.empty
        [Sample.call (.file (Sample.payments "one" "payments"))], .ok (receipt p false true)) :=
  redelivery_is_idle Sample.acme Sample.digest [] [] _ ⟨9, 9, fun n => n + 9⟩ Sample.payments_goes_through.1
    (fun _ hd => absurd hd List.not_mem_nil)

end EngineeringIntelligence.CompanyBrain
