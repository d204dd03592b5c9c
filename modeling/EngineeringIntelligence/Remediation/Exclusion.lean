import Mathlib.Data.List.Pairwise
import EngineeringIntelligence.Remediation.EvaluatedLoop
import EngineeringIntelligence.Remediation.LockRuns

namespace EngineeringIntelligence.Remediation

open EngineeringIntelligence.Framework

/-! Control loops that run at the same time over one lock manager. The manager takes no lock of its
own, so that another loop may act between the scan of `acquire` and its insertion, and adapter
calls take as long as they take. -/

namespace LockTable

/-- `acquire` up to its insertion: the refusal, or the lease that is going to be inserted. -/
def scan (t : LockTable) (serviceId : String) (impactedServices : List String) (now : Int)
    (leaseId : String) : LockTable × Except LockoutRefusal LockLease :=
  let active := t.pruneExpired now
  let target := targetScope serviceId impactedServices
  match active.leases.findSome? (conflict target) with
  | some refusal => (active, .error refusal)
  | none => (active, .ok ⟨leaseId, serviceId, target, now, now + defaultTtl⟩)

def insertLease (t : LockTable) (lease : LockLease) : LockTable :=
  ⟨t.leases.filter (·.leaseId ≠ lease.leaseId) ++ [lease]⟩

/-- The two halves make up `acquire`. -/
theorem acquire_eq_scan (t : LockTable) (serviceId : String) (impactedServices : List String)
    (now : Int) (leaseId : String) :
    t.acquire serviceId impactedServices now leaseId =
      match t.scan serviceId impactedServices now leaseId with
      | (t', .error refusal) => (t', .error refusal)
      | (t', .ok lease) => (t'.insertLease lease, .ok lease) := by
  unfold acquire scan
  dsimp only
  cases (t.pruneExpired now).leases.findSome?
    (conflict (targetScope serviceId impactedServices)) <;> rfl

end LockTable

/-- Where a control loop stands. -/
inductive LoopPhase where
  | idle
  /-- nothing was found to be in the way, and the lease is about to be inserted -/
  | cleared (lease : LockLease) (calls : List AdapterCall)
  /-- the lease is held; `calls` are those still to come, the first of them in progress -/
  | running (lease : LockLease) (calls : List AdapterCall)

structure SharedLoops where
  table : LockTable
  phase : Nat → LoopPhase

inductive SharedOp where
  /-- a loop passes its gates and the adapter's preflight and scans the leases -/
  | enter (loop : Nat) (evaluator : Option PolicyEvaluator) (call : ControlLoopCall)
  | insert (loop : Nat)
  /-- the adapter call in progress returns or raises -/
  | proceed (loop : Nat)
  /-- the `finally` of the loop -/
  | release (loop : Nat)

/-- The adapter calls of a loop after its preflight. -/
def executionCalls (c : ControlLoopCall) (a : Admission) : List AdapterCall :=
  let log := (preflight c.adapter a.runbook c.request [] []).2
  callsOf ((runExecutionAndVerify c.adapter a.runbook c.request [] a.decision c.canaryStrategy
    log).2.drop log.length)

namespace SharedLoops

def initial : SharedLoops := ⟨.empty, fun _ => .idle⟩

def setPhase (s : SharedLoops) (loop : Nat) (p : LoopPhase) : SharedLoops :=
  { s with phase := Function.update s.phase loop p }

theorem setPhase_phase (s : SharedLoops) (loop other : Nat) (p : LoopPhase) :
    (s.setPhase loop p).phase other = if other = loop then p else s.phase other := by
  simp [setPhase, Function.update_apply]

@[simp] theorem setPhase_table (s : SharedLoops) (loop : Nat) (p : LoopPhase) :
    (s.setPhase loop p).table = s.table := rfl

/-- The scan of a loop whose adapter calls would be `calls`. -/
def scan (s : SharedLoops) (loop : Nat) (c : ControlLoopCall) (calls : List AdapterCall) :
    SharedLoops :=
  match s.table.scan c.policy.service c.impactedServices c.now.instant c.leaseId with
  | (table, .error _) => { s with table := table }
  | (table, .ok lease) => { s with table := table }.setPhase loop (.cleared lease calls)

/-- A loop whose next step is not the one named stays where it is. -/
def next (sha256 : String → String) (s : SharedLoops) : SharedOp → SharedLoops
  | .enter loop evaluator c =>
    match s.phase loop, passGatesWith sha256 evaluator c with
    | .idle, .ok a =>
      if (preflight c.adapter a.runbook c.request [] []).1.1 then s.scan loop c (executionCalls c a)
      else s
    | _, _ => s
  | .insert loop =>
    match s.phase loop with
    | .cleared lease calls =>
      { s with table := s.table.insertLease lease }.setPhase loop (.running lease calls)
    | _ => s
  | .proceed loop =>
    match s.phase loop with
    | .running lease (_ :: calls) => s.setPhase loop (.running lease calls)
    | _ => s
  | .release loop =>
    match s.phase loop with
    | .running lease [] => { s with table := s.table.release lease }.setPhase loop .idle
    | _ => s

def step (sha256 : String → String) (s : SharedLoops) (op : SharedOp) : SharedLoops × Unit :=
  (s.next sha256 op, ())

end SharedLoops

/-- No two loops with a service in common are at their adapter calls at the same time. -/
def Excluded (s : SharedLoops) : Prop :=
  ∀ loop other lease lease' calls calls', loop ≠ other → s.phase loop = .running lease calls →
    s.phase other = .running lease' calls' → ∀ service ∈ lease.scope, service ∉ lease'.scope

/-- While a loop is at its adapter calls, nobody asks for a lease at a time when its own has run
out; and between a scan and its insertion nobody else has inserted a lease that meets this one, or
one of the same identifier. -/
def Timely (s : SharedLoops) : SharedOp → Prop
  | .enter _ _ c => ∀ loop lease calls, s.phase loop = .running lease calls →
      lease.isExpired c.now.instant = false
  | .insert loop => ∀ lease calls, s.phase loop = .cleared lease calls → ∀ l ∈ s.table.leases,
      l.leaseId ≠ lease.leaseId ∧ ∀ service ∈ l.scope, service ∉ lease.scope
  | _ => True

/-! ### The invariant -/

/-- Leases do not overlap, a loop at its adapter calls has its lease in the table, and no two
loops have the same one. -/
structure Leased (s : SharedLoops) : Prop where
  exclusive : s.table.Exclusive
  held : ∀ loop lease calls, s.phase loop = .running lease calls → lease ∈ s.table.leases
  own : ∀ loop other lease lease' calls calls', loop ≠ other →
    s.phase loop = .running lease calls → s.phase other = .running lease' calls' →
      lease.leaseId ≠ lease'.leaseId

theorem excluded_of_leased {s : SharedLoops} (h : Leased s) : Excluded s := by
  intro loop other lease lease' calls calls' hne hphase hphase'
  have hsymm : Std.Symm fun a b : LockLease => ∀ service ∈ a.scope, service ∉ b.scope := by
    constructor
    intro a b hab service hb ha
    exact hab service ha hb
  have hdistinct : lease ≠ lease' := by
    intro heq
    exact h.own loop other lease lease' calls calls' hne hphase hphase' (congrArg _ heq)
  exact List.Pairwise.forall h.exclusive (h.held loop lease calls hphase)
    (h.held other lease' calls' hphase') hdistinct

theorem leased_initial : Leased .initial :=
  ⟨List.Pairwise.nil, nofun, nofun⟩

section
variable {s : SharedLoops} {loop : Nat}

/-- Who is running after a loop has moved to a phase that is not. -/
theorem running_of_setPhase {p : LoopPhase} (hp : ∀ lease calls, p ≠ .running lease calls)
    {other : Nat} {lease : LockLease} {calls : List AdapterCall}
    (h : (s.setPhase loop p).phase other = .running lease calls) :
    other ≠ loop ∧ s.phase other = .running lease calls := by
  rw [SharedLoops.setPhase_phase] at h
  split at h
  · exact absurd h (hp lease calls)
  · next hne => exact ⟨hne, h⟩

/-- Leases go from the table, but none of a loop that is running afterwards. -/
theorem Leased.shrink (h : Leased s) {table : LockTable} {p : LoopPhase}
    (hp : ∀ lease calls, p ≠ .running lease calls) (hsub : table.leases.Sublist s.table.leases)
    (hkept : ∀ other lease calls, other ≠ loop → s.phase other = .running lease calls →
      lease ∈ table.leases) : Leased ({ s with table := table }.setPhase loop p) := by
  constructor
  · exact exclusive_sublist h.exclusive hsub
  · intro other lease calls hphase
    obtain ⟨hne, hbefore⟩ := running_of_setPhase hp hphase
    exact hkept other lease calls hne hbefore
  · intro first second lease lease' calls calls' hne hphase hphase'
    exact h.own first second lease lease' calls calls' hne (running_of_setPhase hp hphase).2
      (running_of_setPhase hp hphase').2

theorem scan_table (t : LockTable) (serviceId : String) (impactedServices : List String)
    (now : Int) (leaseId : String) :
    (t.scan serviceId impactedServices now leaseId).1 = t.pruneExpired now := by
  unfold LockTable.scan
  dsimp only
  split <;> rfl

theorem leased_scan (h : Leased s) {c : ControlLoopCall}
    (hlive : ∀ other lease calls, s.phase other = .running lease calls →
      lease.isExpired c.now.instant = false) (calls : List AdapterCall) :
    Leased (s.scan loop c calls) := by
  have htable := scan_table s.table c.policy.service c.impactedServices c.now.instant c.leaseId
  have hsub := pruneExpired_sublist s.table c.now.instant
  have hkept : ∀ other lease calls, s.phase other = .running lease calls →
      lease ∈ (s.table.pruneExpired c.now.instant).leases := by
    intro other lease calls hphase
    exact mem_pruneExpired.mpr ⟨h.held other lease calls hphase, hlive other lease calls hphase⟩
  unfold SharedLoops.scan
  split
  · next table refusal heq =>
    rw [heq] at htable
    obtain rfl : table = s.table.pruneExpired c.now.instant := htable
    exact ⟨exclusive_sublist h.exclusive hsub, hkept, h.own⟩
  · next table lease heq =>
    rw [heq] at htable
    obtain rfl : table = s.table.pruneExpired c.now.instant := htable
    exact h.shrink nofun hsub (fun other lease calls _ hphase => hkept other lease calls hphase)

theorem leased_insert (h : Leased s) {lease : LockLease} {calls : List AdapterCall}
    (hfree : ∀ l ∈ s.table.leases, l.leaseId ≠ lease.leaseId ∧ ∀ service ∈ l.scope,
      service ∉ lease.scope) :
    Leased ({ s with table := s.table.insertLease lease }.setPhase loop (.running lease calls)) := by
  have hkept : ∀ l ∈ s.table.leases, l ∈ (s.table.insertLease lease).leases := by
    intro l hl
    refine List.mem_append_left _ (List.mem_filter.mpr ⟨hl, ?_⟩)
    simpa using (hfree l hl).1
  have hcases : ∀ other lease' calls', ({ s with table := s.table.insertLease lease }.setPhase loop
      (.running lease calls)).phase other = .running lease' calls' →
      (other = loop ∧ lease' = lease) ∨ (s.phase other = .running lease' calls') := by
    intro other lease' calls' hphase
    rw [SharedLoops.setPhase_phase] at hphase
    split at hphase
    · next heq =>
      injection hphase with hlease
      exact Or.inl ⟨heq, hlease.symm⟩
    · exact Or.inr hphase
  constructor
  · refine List.pairwise_append.mpr
      ⟨List.Pairwise.sublist List.filter_sublist h.exclusive, List.pairwise_singleton _ _, ?_⟩
    intro a ha b hb
    obtain rfl := List.mem_singleton.mp hb
    exact (hfree a (List.mem_of_mem_filter ha)).2
  · intro other lease' calls' hphase
    rcases hcases other lease' calls' hphase with ⟨-, rfl⟩ | hbefore
    · exact List.mem_append_right _ List.mem_cons_self
    · exact hkept lease' (h.held other lease' calls' hbefore)
  · intro first second l l' calls₁ calls₂ hne hphase hphase'
    rcases hcases first l calls₁ hphase with ⟨rfl, rfl⟩ | hbefore
    · rcases hcases second l' calls₂ hphase' with ⟨rfl, -⟩ | hbefore'
      · exact absurd rfl hne
      · exact (hfree l' (h.held second l' calls₂ hbefore')).1.symm
    · rcases hcases second l' calls₂ hphase' with ⟨rfl, rfl⟩ | hbefore'
      · exact (hfree l (h.held first l calls₁ hbefore)).1
      · exact h.own first second l l' calls₁ calls₂ hne hbefore hbefore'

theorem leased_proceed (h : Leased s) {lease : LockLease} {call : AdapterCall}
    {calls : List AdapterCall} (hphase : s.phase loop = .running lease (call :: calls)) :
    Leased (s.setPhase loop (.running lease calls)) := by
  have hbefore : ∀ other lease' calls', (s.setPhase loop (.running lease calls)).phase other =
      .running lease' calls' → ∃ earlier, s.phase other = .running lease' earlier := by
    intro other lease' calls' hrunning
    rw [SharedLoops.setPhase_phase] at hrunning
    split at hrunning
    · next heq =>
      injection hrunning with hlease
      rw [heq, ← hlease]
      exact ⟨_, hphase⟩
    · exact ⟨_, hrunning⟩
  constructor
  · exact h.exclusive
  · intro other lease' calls' hrunning
    obtain ⟨earlier, hearlier⟩ := hbefore other lease' calls' hrunning
    exact h.held other lease' earlier hearlier
  · intro first second l l' calls₁ calls₂ hne hrunning hrunning'
    obtain ⟨earlier, hearlier⟩ := hbefore first l calls₁ hrunning
    obtain ⟨earlier', hearlier'⟩ := hbefore second l' calls₂ hrunning'
    exact h.own first second l l' earlier earlier' hne hearlier hearlier'

theorem leased_step (sha256 : String → String) (op : SharedOp) (h : Leased s) (hok : Timely s op) :
    Leased (s.step sha256 op).1 := by
  cases op with
  | enter loop evaluator c =>
    dsimp only [SharedLoops.step, SharedLoops.next]
    split
    · split
      · exact leased_scan h hok _
      · exact h
    · exact h
  | insert loop =>
    dsimp only [SharedLoops.step, SharedLoops.next]
    split
    · next lease calls hphase => exact leased_insert h (hok lease calls hphase)
    · exact h
  | proceed loop =>
    dsimp only [SharedLoops.step, SharedLoops.next]
    split
    · next lease call calls hphase => exact leased_proceed h hphase
    · exact h
  | release loop =>
    dsimp only [SharedLoops.step, SharedLoops.next]
    split
    · next lease hphase =>
      refine h.shrink nofun List.filter_sublist ?_
      intro other lease' calls' hne hrunning
      refine List.mem_filter.mpr ⟨h.held other lease' calls' hrunning, ?_⟩
      simpa using h.own other loop lease' lease calls' [] hne hrunning hphase
    · exact h

end

/-- In every interleaving in which leases outlast the adapter calls made under them, and nobody
slips in between a scan and its insertion, loops that share a service are never at their adapter
calls together. -/
theorem loops_exclude_each_other {sha256 : String → String} {ops : List SharedOp}
    (hok : Admissible (SharedLoops.step sha256) Timely .initial ops) (done : List SharedOp)
    (hdone : done <+: ops) : Excluded (runState (SharedLoops.step sha256) .initial done) := by
  obtain ⟨rest, rfl⟩ := hdone
  have hbefore := ((admissible_append _ _ _ _ _).mp hok).1
  exact excluded_of_leased (run_guarded _ (fun _ op h hop => leased_step sha256 op h hop)
    leased_initial hbefore)

/-! ### Two restarts -/

/-- `Timely`, read off the table of leases. -/
def TimelyTable (s : SharedLoops) : SharedOp → Bool
  | .enter _ _ c => s.table.leases.all fun l => !l.isExpired c.now.instant
  | .insert loop =>
    match s.phase loop with
    | .cleared lease _ => s.table.leases.all fun l =>
        l.leaseId ≠ lease.leaseId && l.scope.all fun service => !lease.scope.contains service
    | _ => true
  | _ => true

theorem timely_of_table {s : SharedLoops} (h : Leased s) {op : SharedOp}
    (hop : TimelyTable s op = true) : Timely s op := by
  cases op with
  | enter loop evaluator c =>
    intro other lease calls hphase
    simpa using List.all_eq_true.mp hop lease (h.held other lease calls hphase)
  | insert loop =>
    intro lease calls hphase l hl
    simp only [TimelyTable, hphase] at hop
    simpa using List.all_eq_true.mp hop l hl
  | proceed loop => trivial
  | release loop => trivial

theorem admissible_of_table {sha256 : String → String} {s : SharedLoops} (h : Leased s)
    {ops : List SharedOp}
    (hops : Admissible (SharedLoops.step sha256) (fun s op => TimelyTable s op = true) s ops) :
    Admissible (SharedLoops.step sha256) Timely s ops := by
  induction ops generalizing s with
  | nil => trivial
  | cons op ops ih =>
    have hop := timely_of_table h hops.1
    exact ⟨hop, ih (leased_step sha256 op h hop) hops.2⟩

/-- The restart of `restartCall`, begun at another time and under another lease. -/
def restartAt (time leaseId : String) : ControlLoopCall :=
  { restartCall .approveAndExecute true "off" with
    now := ⟨(parseInstant time).getD 0, time⟩
    leaseId := leaseId }

def firstRestart : ControlLoopCall := restartAt "2026-01-01T00:00:00+00:00" "lease-0123456789ab"

/-- Two services are locked by a restart, so that a second one a minute later is deferred; it gets
through when the first is over. -/
def restartsInTurn : List SharedOp :=
  [.enter 0 none firstRestart, .insert 0,
    .enter 1 none (restartAt "2026-01-01T00:01:00+00:00" "lease-ba9876543210"),
    .proceed 0, .proceed 0, .release 0,
    .enter 1 none (restartAt "2026-01-01T00:02:00+00:00" "lease-ba9876543210"), .insert 1]

def LoopPhase.isRunning : LoopPhase → Bool
  | running _ _ => true
  | _ => false

theorem restarts_in_turn :
    (((runState (SharedLoops.step restartScopeSha256) .initial restartsInTurn).phase 1).isRunning =
        true) ∧
    ∀ done, done <+: restartsInTurn →
      Excluded (runState (SharedLoops.step restartScopeSha256) .initial done) := by
  have hok : Admissible (SharedLoops.step restartScopeSha256) Timely .initial restartsInTurn := by
    apply admissible_of_table leased_initial
    decide
  exact ⟨by decide, loops_exclude_each_other hok⟩

/-- Both loops are in `execute` and have a service in common. -/
def LoopPhase.collides : LoopPhase → LoopPhase → Bool
  | running lease (call :: _), running lease' (call' :: _) =>
    call.isExecute && call'.isExecute && lease.scope.any lease'.scope.contains
  | _, _ => false

theorem not_excluded {s : SharedLoops} (loop other : Nat) (hne : loop ≠ other)
    (h : (s.phase loop).collides (s.phase other) = true) : ¬ Excluded s := by
  intro hexcluded
  unfold LoopPhase.collides at h
  split at h
  · next lease call calls lease' call' calls' hphase hphase' =>
    simp only [Bool.and_eq_true, List.any_eq_true, List.contains_iff_mem] at h
    obtain ⟨-, service, hservice, hshared⟩ := h
    exact hexcluded loop other lease lease' _ _ hne hphase hphase' service hservice hshared
  · cases h

/-- A restart that takes five minutes loses its lease to the next one while it is still in
`execute`; and two that scan at the same time do not see each other. -/
theorem restarts_collide :
    ¬ Excluded (runState (SharedLoops.step restartScopeSha256) .initial
      [.enter 0 none firstRestart, .insert 0,
        .enter 1 none (restartAt "2026-01-01T00:05:00+00:00" "lease-ba9876543210"), .insert 1]) ∧
    ¬ Excluded (runState (SharedLoops.step restartScopeSha256) .initial
      [.enter 0 none firstRestart,
        .enter 1 none (restartAt "2026-01-01T00:00:00+00:00" "lease-ba9876543210"),
        .insert 0, .insert 1]) := by
  constructor
  · apply not_excluded 0 1 (by decide)
    decide
  · apply not_excluded 0 1 (by decide)
    decide

end EngineeringIntelligence.Remediation
