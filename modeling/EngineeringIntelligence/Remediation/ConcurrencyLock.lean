import Mathlib.Data.List.Dedup
import Mathlib.Data.List.Sort

namespace EngineeringIntelligence.Remediation

/-- A lease over a set of services; times are instants in microseconds. -/
structure LockLease where
  leaseId : String
  serviceId : String
  lockedServices : List String
  acquiredAt : Int
  expiresAt : Int
  deriving DecidableEq, Repr

def LockLease.isExpired (l : LockLease) (now : Int) : Bool := l.expiresAt ≤ now

structure LockoutRefusal where
  conflictingService : String
  activeLeaseId : String
  reason : String
  deriving DecidableEq, Repr

def defaultTtl : Int := 300 * 1000000

/-- The in-memory lock manager, as the table of its leases. -/
structure LockTable where
  leases : List LockLease

namespace LockTable

def pruneExpired (t : LockTable) (now : Int) : LockTable :=
  ⟨t.leases.filter (fun l => !l.isExpired now)⟩

/-- The set of services a remediation touches, sorted. -/
def targetScope (serviceId : String) (impactedServices : List String) : List String :=
  (serviceId :: impactedServices).dedup.insertionSort (· ≤ ·)

/-- The first service of the scope that an active lease holds. -/
def conflict (target : List String) (l : LockLease) : Option LockoutRefusal :=
  (target.find? (fun s => (l.serviceId :: l.lockedServices).contains s)).map (fun s =>
    ⟨s, l.leaseId, "concurrency-lockout: service '" ++ s ++ "' is under active remediation " ++
      "by lease '" ++ l.leaseId ++ "'"⟩)

/-- `acquire`; `leaseId` is the fresh identifier drawn for the lease. -/
def acquire (t : LockTable) (serviceId : String) (impactedServices : List String) (now : Int)
    (leaseId : String) : LockTable × Except LockoutRefusal LockLease :=
  let active := t.pruneExpired now
  let target := targetScope serviceId impactedServices
  match active.leases.findSome? (conflict target) with
  | some refusal => (active, .error refusal)
  | none =>
    let lease : LockLease := ⟨leaseId, serviceId, target, now, now + defaultTtl⟩
    (⟨active.leases.filter (·.leaseId ≠ leaseId) ++ [lease]⟩, .ok lease)

def release (t : LockTable) (lease : LockLease) : LockTable :=
  ⟨t.leases.filter (·.leaseId ≠ lease.leaseId)⟩

theorem mem_targetScope (serviceId : String) (impactedServices : List String) (s : String) :
    s ∈ targetScope serviceId impactedServices ↔ s ∈ serviceId :: impactedServices := by
  rw [targetScope, List.mem_insertionSort, List.mem_dedup]

/-- An acquired lease is in the table, unexpired, and covers what was asked for. -/
theorem acquire_ok {t t' : LockTable} {serviceId : String} {impactedServices : List String}
    {now : Int} {leaseId : String} {lease : LockLease}
    (h : t.acquire serviceId impactedServices now leaseId = (t', .ok lease)) :
    lease ∈ t'.leases ∧ lease.isExpired now = false ∧
      ∀ s ∈ serviceId :: impactedServices, s ∈ lease.lockedServices := by
  unfold acquire at h
  dsimp only at h
  split at h
  · simp at h
  · simp only [Prod.mk.injEq, Except.ok.injEq] at h
    obtain ⟨rfl, rfl⟩ := h
    refine ⟨by simp, ?_, ?_⟩
    · rw [LockLease.isExpired, decide_eq_false_iff_not]
      change ¬now + 300 * 1000000 ≤ now
      omega
    · intro s hs
      exact (mem_targetScope serviceId impactedServices s).mpr hs

end LockTable

end EngineeringIntelligence.Remediation
