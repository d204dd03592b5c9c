import EngineeringIntelligence.Framework.Run
import EngineeringIntelligence.Remediation.ConcurrencyLock

namespace EngineeringIntelligence.Remediation

open EngineeringIntelligence.Framework

/-! `InMemoryConcurrencyLockManager` under any sequence of calls and any clock. -/

/-- What a lease keeps others from: `active_scope`. -/
def LockLease.scope (l : LockLease) : List String := l.serviceId :: l.lockedServices

/-- Calls on the manager. `now` is the caller's or the clock's, `ttl` the time to live in
microseconds, `none` where the expiry is not a date any more, and `leaseId` the identifier that is
drawn if a lease is granted. -/
inductive LockOp where
  | acquire (serviceId : String) (impactedServices : List String) (ttl : Option Int) (now : Int)
      (leaseId : String)
  | release (lease : LockLease)
  | activeLeases (now : Int)

inductive LockAnswer where
  | granted (lease : LockLease)
  | refused (refusal : LockoutRefusal)
  | overflowed
  | released (found : Bool)
  | active (leases : List LockLease)
  deriving DecidableEq

/-- The clock reading of a call. -/
def LockOp.now : LockOp → Option Int
  | acquire _ _ _ now _ => some now
  | release _ => none
  | activeLeases now => some now

/-- The identifier a call may draw. -/
def LockOp.drawn : LockOp → Option String
  | acquire _ _ _ _ leaseId => some leaseId
  | _ => none

namespace LockTable

def empty : LockTable := ⟨[]⟩

/-- `acquire` with a time to live. Expired leases go even if the call is refused or raises. -/
def acquireFor (t : LockTable) (serviceId : String) (impactedServices : List String)
    (ttl : Option Int) (now : Int) (leaseId : String) : LockTable × LockAnswer :=
  let active := t.pruneExpired now
  let target := targetScope serviceId impactedServices
  match active.leases.findSome? (conflict target) with
  | some refusal => (active, .refused refusal)
  | none =>
    match ttl with
    | none => (active, .overflowed)
    | some ttl =>
      let lease : LockLease := ⟨leaseId, serviceId, target, now, now + ttl⟩
      (⟨active.leases.filter (·.leaseId ≠ leaseId) ++ [lease]⟩, .granted lease)

def step (t : LockTable) : LockOp → LockTable × LockAnswer
  | .acquire serviceId impactedServices ttl now leaseId =>
    t.acquireFor serviceId impactedServices ttl now leaseId
  | .release lease => (t.release lease, .released (t.leases.any (·.leaseId = lease.leaseId)))
  | .activeLeases now => (t.pruneExpired now, .active (t.pruneExpired now).leases)

/-- The control loop's `acquire` is the one with the default time to live. -/
theorem acquireFor_defaultTtl (t : LockTable) (serviceId : String) (impactedServices : List String)
    (now : Int) (leaseId : String) :
    t.acquireFor serviceId impactedServices (some defaultTtl) now leaseId =
      match t.acquire serviceId impactedServices now leaseId with
      | (t', .error refusal) => (t', .refused refusal)
      | (t', .ok lease) => (t', .granted lease) := by
  unfold acquireFor acquire
  dsimp only
  cases (t.pruneExpired now).leases.findSome?
    (conflict (targetScope serviceId impactedServices)) <;> rfl

/-- The table after a sequence of calls on a new manager. -/
def after (ops : List LockOp) : LockTable := runState step empty ops

/-- The calls with their answers. -/
def answers (ops : List LockOp) : List (LockOp × LockAnswer) := history step empty ops

end LockTable

/-! ### What was granted -/

/-- The leases granted in a history. -/
def grants (h : List (LockOp × LockAnswer)) : List LockLease :=
  h.filterMap fun x =>
    match x.2 with
    | .granted lease => some lease
    | _ => none

/-- A lease counts from when it is granted until it is released. -/
def outstandingAfter (held : List LockLease) : LockOp × LockAnswer → List LockLease
  | (.acquire .., .granted lease) => held ++ [lease]
  | (.release lease, _) => held.filter (·.leaseId ≠ lease.leaseId)
  | _ => held

/-- The leases that were granted and not released. -/
def outstanding (h : List (LockOp × LockAnswer)) : List LockLease := h.foldl outstandingAfter []

theorem outstanding_append (h : List (LockOp × LockAnswer)) (x : LockOp × LockAnswer) :
    outstanding (h ++ [x]) = outstandingAfter (outstanding h) x := by
  simp [outstanding]

theorem grants_append (h : List (LockOp × LockAnswer)) (x : LockOp × LockAnswer) :
    grants (h ++ [x]) = grants h ++ grants [x] := by
  simp [grants]

section
variable {t : LockTable} {serviceId : String} {impactedServices : List String} {ttl : Option Int}
  {now : Int} {leaseId : String}

theorem conflict_isSome {target : List String} {l : LockLease} :
    (LockTable.conflict target l).isSome = true ↔ ∃ s ∈ target, s ∈ l.scope := by
  rw [LockTable.conflict, Option.isSome_map, List.find?_isSome]
  simp only [List.contains_iff_mem, LockLease.scope]

theorem mem_pruneExpired {l : LockLease} :
    l ∈ (t.pruneExpired now).leases ↔ l ∈ t.leases ∧ l.isExpired now = false := by
  simp [LockTable.pruneExpired]

/-- Everything `acquire` can do. -/
inductive Acquired (t : LockTable) (serviceId : String) (impactedServices : List String)
    (ttl : Option Int) (now : Int) (leaseId : String) : LockTable → LockAnswer → Prop
  | refused {refusal l} (hl : l ∈ t.leases) (hlive : l.isExpired now = false)
      (hmeets : ∃ s ∈ serviceId :: impactedServices, s ∈ l.scope) :
      Acquired t serviceId impactedServices ttl now leaseId (t.pruneExpired now) (.refused refusal)
  | overflowed (hfree : ∀ l ∈ t.leases, l.isExpired now = false →
        ∀ s ∈ serviceId :: impactedServices, s ∉ l.scope) :
      Acquired t serviceId impactedServices ttl now leaseId (t.pruneExpired now) .overflowed
  | granted {lease} (hfree : ∀ l ∈ t.leases, l.isExpired now = false →
        ∀ s ∈ serviceId :: impactedServices, s ∉ l.scope)
      (hid : lease.leaseId = leaseId)
      (hscope : ∀ s, s ∈ lease.scope ↔ s ∈ serviceId :: impactedServices) :
      Acquired t serviceId impactedServices ttl now leaseId
        ⟨(t.pruneExpired now).leases.filter (·.leaseId ≠ leaseId) ++ [lease]⟩ (.granted lease)

theorem acquireFor_cases (t : LockTable) (serviceId : String) (impactedServices : List String)
    (ttl : Option Int) (now : Int) (leaseId : String) :
    Acquired t serviceId impactedServices ttl now leaseId
      (t.acquireFor serviceId impactedServices ttl now leaseId).1
      (t.acquireFor serviceId impactedServices ttl now leaseId).2 := by
  have hscope := LockTable.mem_targetScope serviceId impactedServices
  unfold LockTable.acquireFor
  dsimp only
  split
  · next refusal hsome =>
    obtain ⟨l, hl, hconflict⟩ := List.exists_of_findSome?_eq_some hsome
    obtain ⟨hmem, hlive⟩ := mem_pruneExpired.mp hl
    obtain ⟨s, hs, hheld⟩ := conflict_isSome.mp (Option.isSome_iff_exists.mpr ⟨_, hconflict⟩)
    exact .refused hmem hlive ⟨s, (hscope s).mp hs, hheld⟩
  · next hnone =>
    have hfree : ∀ l ∈ t.leases, l.isExpired now = false →
        ∀ s ∈ serviceId :: impactedServices, s ∉ l.scope := by
      intro l hl hlive s hs hheld
      have hclear := List.findSome?_eq_none_iff.mp hnone l (mem_pruneExpired.mpr ⟨hl, hlive⟩)
      have hconflict := conflict_isSome.mpr ⟨s, (hscope s).mpr hs, hheld⟩
      rw [hclear] at hconflict
      cases hconflict
    cases ttl with
    | none => exact .overflowed hfree
    | some ttl =>
      refine .granted hfree rfl ?_
      intro s
      change s ∈ serviceId :: LockTable.targetScope serviceId impactedServices ↔ _
      rw [List.mem_cons, hscope]
      simp

/-- `acquire` refuses exactly when a live lease of the table meets the request. -/
theorem acquireFor_refused_iff :
    (∃ refusal, (t.acquireFor serviceId impactedServices ttl now leaseId).2 = .refused refusal) ↔
      ∃ l ∈ t.leases, l.isExpired now = false ∧ ∃ s ∈ serviceId :: impactedServices, s ∈ l.scope := by
  have hcases := acquireFor_cases t serviceId impactedServices ttl now leaseId
  generalize (t.acquireFor serviceId impactedServices ttl now leaseId).1 = t' at hcases
  generalize (t.acquireFor serviceId impactedServices ttl now leaseId).2 = answer at hcases ⊢
  cases hcases with
  | refused hl hlive hmeets => exact ⟨fun _ => ⟨_, hl, hlive, hmeets⟩, fun _ => ⟨_, rfl⟩⟩
  | overflowed hfree =>
    constructor
    · rintro ⟨refusal, h⟩
      cases h
    · rintro ⟨l, hl, hlive, s, hs, hheld⟩
      exact absurd hheld (hfree l hl hlive s hs)
  | granted hfree hid hscope =>
    constructor
    · rintro ⟨refusal, h⟩
      cases h
    · rintro ⟨l, hl, hlive, s, hs, hheld⟩
      exact absurd hheld (hfree l hl hlive s hs)

end

/-! ### Leases never overlap -/

/-- No service is in the scope of two leases. -/
def LockTable.Exclusive (t : LockTable) : Prop :=
  t.leases.Pairwise fun a b => ∀ s ∈ a.scope, s ∉ b.scope

theorem exclusive_sublist {t t' : LockTable} (h : t.Exclusive) (hsub : t'.leases.Sublist t.leases) :
    t'.Exclusive :=
  List.Pairwise.sublist hsub h

theorem pruneExpired_sublist (t : LockTable) (now : Int) :
    (t.pruneExpired now).leases.Sublist t.leases :=
  List.filter_sublist

theorem exclusive_step (t : LockTable) (op : LockOp) (h : t.Exclusive) : (t.step op).1.Exclusive := by
  cases op with
  | release lease => exact exclusive_sublist h List.filter_sublist
  | activeLeases now => exact exclusive_sublist h (pruneExpired_sublist t now)
  | acquire serviceId impactedServices ttl now leaseId =>
    have hcases := acquireFor_cases t serviceId impactedServices ttl now leaseId
    change (t.acquireFor serviceId impactedServices ttl now leaseId).1.Exclusive
    generalize (t.acquireFor serviceId impactedServices ttl now leaseId).1 = t' at hcases ⊢
    generalize (t.acquireFor serviceId impactedServices ttl now leaseId).2 = answer at hcases
    cases hcases with
    | refused => exact exclusive_sublist h (pruneExpired_sublist t now)
    | overflowed => exact exclusive_sublist h (pruneExpired_sublist t now)
    | @granted lease hfree hid hscope =>
      have hkept : ((t.pruneExpired now).leases.filter (·.leaseId ≠ leaseId)).Sublist t.leases :=
        List.filter_sublist.trans (pruneExpired_sublist t now)
      refine List.pairwise_append.mpr ⟨List.Pairwise.sublist hkept h, List.pairwise_singleton _ _, ?_⟩
      intro a ha b hb s hs hheld
      obtain rfl := List.mem_singleton.mp hb
      obtain ⟨hmem, hlive⟩ := mem_pruneExpired.mp (List.mem_of_mem_filter ha)
      exact hfree a hmem hlive s ((hscope s).mp hheld) hs

/-! ### The table follows what was granted -/

/-- The clock readings of a history. -/
def readings (h : List (LockOp × LockAnswer)) : List Int := h.filterMap fun x => x.1.now

/-- The identifiers drawn in a history. -/
def drawnIds (h : List (LockOp × LockAnswer)) : List String := h.filterMap fun x => x.1.drawn

/-- The table holds outstanding leases, and a lease that is outstanding and no longer there was
expired at an earlier reading of the clock. -/
structure Tracks (h : List (LockOp × LockAnswer)) (t : LockTable) : Prop where
  held : ∀ l ∈ t.leases, l ∈ outstanding h
  pruned : ∀ l ∈ outstanding h, l ∉ t.leases → ∃ now ∈ readings h, l.isExpired now = true
  granted : ∀ l ∈ outstanding h, l ∈ grants h
  named : ((grants h).map (·.leaseId)).Sublist (drawnIds h)

theorem tracks_empty : Tracks [] .empty :=
  ⟨by simp [LockTable.empty], by simp [outstanding], by simp [outstanding], by simp [grants]⟩

section
variable {h : List (LockOp × LockAnswer)} {t : LockTable}

/-- A call that only drops expired leases. -/
theorem Tracks.prune (hold : Tracks h t) {op : LockOp} {answer : LockAnswer} {now : Int}
    (hnow : op.now = some now) (houtstanding : outstanding (h ++ [(op, answer)]) = outstanding h)
    (hgrants : grants (h ++ [(op, answer)]) = grants h) :
    Tracks (h ++ [(op, answer)]) (t.pruneExpired now) := by
  have hreadings : readings (h ++ [(op, answer)]) = readings h ++ [now] := by
    simp [readings, hnow]
  constructor
  · intro l hl
    rw [houtstanding]
    exact hold.held l (mem_pruneExpired.mp hl).1
  · intro l hl hgone
    rw [houtstanding] at hl
    rw [hreadings]
    by_cases hmem : l ∈ t.leases
    · refine ⟨now, by simp, ?_⟩
      by_contra hlive
      exact hgone (mem_pruneExpired.mpr ⟨hmem, by simpa using hlive⟩)
    · obtain ⟨earlier, hearlier, hexpired⟩ := hold.pruned l hl hmem
      exact ⟨earlier, List.mem_append_left _ hearlier, hexpired⟩
  · intro l hl
    rw [houtstanding] at hl
    rw [hgrants]
    exact hold.granted l hl
  · rw [hgrants]
    refine hold.named.trans ?_
    simp [drawnIds]

/-- A release takes the lease out of what is outstanding and out of the table. -/
theorem Tracks.release (hold : Tracks h t) (lease : LockLease) (answer : LockAnswer)
    (hanswer : ∀ l, answer ≠ .granted l) :
    Tracks (h ++ [(.release lease, answer)]) (t.release lease) := by
  have hgrants : grants (h ++ [(.release lease, answer)]) = grants h := by
    rw [grants_append]
    cases answer with
    | granted l => exact absurd rfl (hanswer l)
    | _ => simp [grants]
  have houtstanding : outstanding (h ++ [(.release lease, answer)]) =
      (outstanding h).filter (·.leaseId ≠ lease.leaseId) := by
    rw [outstanding_append]
    cases answer <;> rfl
  constructor
  · intro l hl
    rw [houtstanding]
    obtain ⟨hmem, hother⟩ := List.mem_filter.mp hl
    exact List.mem_filter.mpr ⟨hold.held l hmem, hother⟩
  · intro l hl hgone
    rw [houtstanding] at hl
    obtain ⟨hmem, hother⟩ := List.mem_filter.mp hl
    have hbefore : l ∉ t.leases := by
      intro hin
      exact hgone (List.mem_filter.mpr ⟨hin, hother⟩)
    simpa [readings, LockOp.now] using hold.pruned l hmem hbefore
  · intro l hl
    rw [houtstanding] at hl
    rw [hgrants]
    exact hold.granted l (List.mem_of_mem_filter hl)
  · rw [hgrants]
    simpa [drawnIds, LockOp.drawn] using hold.named

/-- A grant under an identifier that was not drawn before adds the lease to both. -/
theorem Tracks.grant (hold : Tracks h t) {serviceId : String} {impactedServices : List String}
    {ttl : Option Int} {now : Int} {leaseId : String} {lease : LockLease}
    (hid : lease.leaseId = leaseId) (hfresh : leaseId ∉ drawnIds h) :
    Tracks (h ++ [(.acquire serviceId impactedServices ttl now leaseId, .granted lease)])
      ⟨(t.pruneExpired now).leases.filter (·.leaseId ≠ leaseId) ++ [lease]⟩ := by
  have hgrants : grants (h ++ [(.acquire serviceId impactedServices ttl now leaseId,
      .granted lease)]) = grants h ++ [lease] := by
    simp [grants]
  have houtstanding : outstanding (h ++ [(.acquire serviceId impactedServices ttl now leaseId,
      .granted lease)]) = outstanding h ++ [lease] := by
    rw [outstanding_append]
    rfl
  have hreadings : readings (h ++ [(.acquire serviceId impactedServices ttl now leaseId,
      .granted lease)]) = readings h ++ [now] := by
    simp [readings, LockOp.now]
  constructor
  · intro l hl
    rw [houtstanding]
    rcases List.mem_append.mp hl with hkept | hnew
    · have hmem := (mem_pruneExpired.mp (List.mem_of_mem_filter hkept)).1
      exact List.mem_append_left _ (hold.held l hmem)
    · exact List.mem_append_right _ hnew
  · intro l hl hgone
    rw [houtstanding] at hl
    rw [hreadings]
    rcases List.mem_append.mp hl with hbefore | hnew
    · have hother : l.leaseId ≠ leaseId := by
        intro heq
        have hdrawn := hold.named.subset (List.mem_map_of_mem (hold.granted l hbefore))
        rw [heq] at hdrawn
        exact hfresh hdrawn
      by_cases hmem : l ∈ t.leases
      · refine ⟨now, by simp, ?_⟩
        by_contra hlive
        apply hgone
        refine List.mem_append_left _ (List.mem_filter.mpr ⟨?_, by simpa using hother⟩)
        exact mem_pruneExpired.mpr ⟨hmem, by simpa using hlive⟩
      · obtain ⟨earlier, hearlier, hexpired⟩ := hold.pruned l hbefore hmem
        exact ⟨earlier, List.mem_append_left _ hearlier, hexpired⟩
    · exact absurd (List.mem_append_right _ hnew) hgone
  · intro l hl
    rw [houtstanding] at hl
    rw [hgrants]
    rcases List.mem_append.mp hl with hbefore | hnew
    · exact List.mem_append_left _ (hold.granted l hbefore)
    · exact List.mem_append_right _ hnew
  · rw [hgrants, List.map_append]
    have hdrawn : drawnIds (h ++ [(.acquire serviceId impactedServices ttl now leaseId,
        .granted lease)]) = drawnIds h ++ [leaseId] := by
      simp [drawnIds, LockOp.drawn]
    rw [hdrawn]
    refine hold.named.append ?_
    simp [hid]

theorem tracks_step (hold : Tracks h t) (op : LockOp)
    (hfresh : ∀ leaseId ∈ op.drawn, leaseId ∉ drawnIds h) :
    Tracks (h ++ [(op, (t.step op).2)]) (t.step op).1 := by
  cases op with
  | release lease => exact hold.release lease _ nofun
  | activeLeases now =>
    exact hold.prune rfl (outstanding_append h _) (by simp [grants, LockTable.step])
  | acquire serviceId impactedServices ttl now leaseId =>
    have hcases := acquireFor_cases t serviceId impactedServices ttl now leaseId
    change Tracks (h ++ [(_, (t.acquireFor serviceId impactedServices ttl now leaseId).2)])
      (t.acquireFor serviceId impactedServices ttl now leaseId).1
    generalize (t.acquireFor serviceId impactedServices ttl now leaseId).1 = t' at hcases ⊢
    generalize (t.acquireFor serviceId impactedServices ttl now leaseId).2 = answer at hcases ⊢
    cases hcases with
    | refused => exact hold.prune rfl (outstanding_append h _) (by simp [grants])
    | overflowed => exact hold.prune rfl (outstanding_append h _) (by simp [grants])
    | granted hfree hid hscope => exact hold.grant hid (hfresh leaseId rfl)

end

theorem drawnIds_answers (ops : List LockOp) :
    drawnIds (LockTable.answers ops) = ops.filterMap LockOp.drawn := by
  have hops : (LockTable.answers ops).map Prod.fst = ops := history_map_fst _ _ _
  conv_rhs => rw [← hops, List.filterMap_map]
  rfl

theorem readings_answers (ops : List LockOp) :
    readings (LockTable.answers ops) = ops.filterMap LockOp.now := by
  have hops : (LockTable.answers ops).map Prod.fst = ops := history_map_fst _ _ _
  conv_rhs => rw [← hops, List.filterMap_map]
  rfl

/-- Under identifiers that are never drawn twice, the table follows what was granted. -/
theorem tracks_after {ops : List LockOp} (hfresh : (ops.filterMap LockOp.drawn).Nodup) :
    Tracks (LockTable.answers ops) (LockTable.after ops) := by
  have hrun := run_history_invariant LockTable.step
    (P := fun h t => (drawnIds h).Nodup → Tracks h t)
    (fun h t op hold hnodup => by
      have hsplit : drawnIds (h ++ [(op, (t.step op).2)]) = drawnIds h ++ op.drawn.toList := by
        cases hdrawn : op.drawn <;> simp [drawnIds, hdrawn]
      rw [hsplit] at hnodup
      obtain ⟨hbefore, -, hapart⟩ := List.nodup_append.mp hnodup
      refine tracks_step (hold hbefore) op ?_
      intro leaseId hid hmem
      exact hapart leaseId hmem leaseId (Option.mem_toList.mpr hid) rfl)
    (h := []) (s := .empty) (fun _ => tracks_empty) ops
  apply hrun
  exact (drawnIds_answers ops).symm ▸ hfresh

/-- What holds of a manager in every sequence of calls, whatever the clock does. -/
structure LockLaw (ops : List LockOp) : Prop where
  disjoint : ∀ done, done <+: ops → (LockTable.after done).Exclusive
  granted : ∀ before serviceId impactedServices ttl now leaseId lease,
    before ++ [.acquire serviceId impactedServices ttl now leaseId] <+: ops →
      ((LockTable.after before).step (.acquire serviceId impactedServices ttl now leaseId)).2 =
        .granted lease → ∀ s, s ∈ lease.scope ↔ s ∈ serviceId :: impactedServices
  /-- While the clock has not been ahead of `now`, a request is refused exactly when a granted
  lease that was not released and has not expired meets it. -/
  refused : (ops.filterMap LockOp.drawn).Nodup →
    ∀ before serviceId impactedServices ttl now leaseId,
      before ++ [.acquire serviceId impactedServices ttl now leaseId] <+: ops →
      (∀ earlier ∈ before.filterMap LockOp.now, earlier ≤ now) →
        ((∃ refusal, ((LockTable.after before).step
            (.acquire serviceId impactedServices ttl now leaseId)).2 = .refused refusal) ↔
          ∃ l ∈ outstanding (LockTable.answers before), l.isExpired now = false ∧
            ∃ s ∈ serviceId :: impactedServices, s ∈ l.scope)
  /-- Releasing a granted lease that is gone from the table changes nothing. -/
  stale : (ops.filterMap LockOp.drawn).Nodup → ∀ before lease,
    before ++ [.release lease] <+: ops → lease ∈ grants (LockTable.answers before) →
      lease ∉ (LockTable.after before).leases →
        (LockTable.after before).step (.release lease) = (LockTable.after before, .released false)

theorem fresh_before {before : List LockOp} {op : LockOp} {ops : List LockOp}
    (hdone : before ++ [op] <+: ops) (hfresh : (ops.filterMap LockOp.drawn).Nodup) :
    (before.filterMap LockOp.drawn).Nodup := by
  have hbefore : before <+: ops := (List.prefix_append before [op]).trans hdone
  exact hfresh.sublist (hbefore.filterMap LockOp.drawn).sublist

/-- A granted lease that is not in the table shares its identifier with none that is. -/
theorem Tracks.stale {h : List (LockOp × LockAnswer)} {t : LockTable} (hold : Tracks h t)
    (hfresh : (drawnIds h).Nodup) {lease : LockLease} (hgranted : lease ∈ grants h)
    (hgone : lease ∉ t.leases) : ∀ l ∈ t.leases, l.leaseId ≠ lease.leaseId := by
  intro l hl heq
  have hunique := List.inj_on_of_nodup_map (hfresh.sublist hold.named)
  obtain rfl := hunique (hold.granted l (hold.held l hl)) hgranted heq
  exact hgone hl

theorem lock_law (ops : List LockOp) : LockLaw ops := by
  constructor
  · intro done _
    exact run_invariant LockTable.step exclusive_step List.Pairwise.nil done
  · intro before serviceId impactedServices ttl now leaseId lease _ hgranted
    have hcases := acquireFor_cases (LockTable.after before) serviceId impactedServices ttl now leaseId
    change ((LockTable.after before).acquireFor serviceId impactedServices ttl now leaseId).2 = _
      at hgranted
    rw [hgranted] at hcases
    generalize ((LockTable.after before).acquireFor serviceId impactedServices ttl now leaseId).1 = t
      at hcases
    cases hcases with
    | granted hfree hid hscope => exact hscope
  · intro hfresh before serviceId impactedServices ttl now leaseId hdone hclock
    have hold := tracks_after (fresh_before hdone hfresh)
    refine acquireFor_refused_iff.trans ⟨?_, ?_⟩
    · rintro ⟨l, hl, hlive, hmeets⟩
      exact ⟨l, hold.held l hl, hlive, hmeets⟩
    · rintro ⟨l, hl, hlive, hmeets⟩
      refine ⟨l, ?_, hlive, hmeets⟩
      by_contra hgone
      obtain ⟨earlier, hearlier, hexpired⟩ := hold.pruned l hl hgone
      rw [readings_answers] at hearlier
      have hle := hclock earlier hearlier
      simp only [LockLease.isExpired, decide_eq_true_eq, decide_eq_false_iff_not] at hexpired hlive
      omega
  · intro hfresh before lease hdone hgranted hgone
    have hbefore := fresh_before hdone hfresh
    have hother := (tracks_after hbefore).stale ((drawnIds_answers before).symm ▸ hbefore) hgranted hgone
    have hkept : (LockTable.after before).release lease = LockTable.after before := by
      unfold LockTable.release
      rw [List.filter_eq_self.mpr]
      intro l hl
      simpa using hother l hl
    have hmissing : (LockTable.after before).leases.any (·.leaseId = lease.leaseId) = false := by
      simpa using hother
    change ((LockTable.after before).release lease,
      LockAnswer.released ((LockTable.after before).leases.any (·.leaseId = lease.leaseId))) = _
    rw [hkept, hmissing]

-- a request that meets a live lease is refused, and granted once the lease has run out
example : (LockTable.answers
    [.acquire "checkout" ["payments"] (some 60) 0 "lease-1",
      .acquire "payments" [] (some 60) 59 "lease-2", .acquire "payments" [] (some 60) 60 "lease-3",
      .release ⟨"lease-1", "checkout", ["checkout", "payments"], 0, 60⟩]).map
      (fun x => match x.2 with
        | .granted l => some l.leaseId
        | .refused r => some r.activeLeaseId
        | _ => none) = [some "lease-1", some "lease-1", some "lease-3", none] := by
  decide

end EngineeringIntelligence.Remediation
