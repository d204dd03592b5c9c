import EngineeringIntelligence.Framework.Run
import Mathlib.Data.Rat.Defs
import Mathlib.Algebra.Order.Ring.Rat

namespace EngineeringIntelligence.Resilience

inductive DependencyState where
  | closed | open | halfOpen
  deriving DecidableEq, Repr

/-- A resilience policy for one adapter, with the checks of its `__post_init__`. -/
structure DependencyLimits where
  maxInFlight : Nat
  failureThreshold : Nat
  recoverySeconds : ℚ
  inFlight_pos : 1 ≤ maxInFlight
  threshold_pos : 1 ≤ failureThreshold
  recovery_pos : 0 < recoverySeconds

/-- The breaker generation admitted to one operation in flight. -/
structure Admission where
  generation : Nat
  halfOpenProbe : Bool
  deriving DecidableEq, Repr

/-- The mutable state of a boundary; `inFlight` is what is taken of `_capacity`. -/
structure DependencyBoundary where
  inFlight : Nat
  consecutiveTransientFailures : Nat
  openUntil : Option ℚ
  halfOpenProbeActive : Bool
  generation : Nat
  deriving DecidableEq

namespace DependencyBoundary

def initial : DependencyBoundary := ⟨0, 0, none, false, 0⟩

/-- The state and the waiting time that `health` reports. -/
def health (b : DependencyBoundary) (now : ℚ) : DependencyState × ℚ :=
  match b.openUntil with
  | none => (.closed, 0)
  | some until_ => if now < until_ then (.open, until_ - now) else (.halfOpen, 0)

variable (limits : DependencyLimits)

/-- `self._capacity.acquire(blocking=False)`; the error is the reason of the refusal. -/
def acquire (b : DependencyBoundary) : Except String DependencyBoundary :=
  if b.inFlight < limits.maxInFlight then .ok { b with inFlight := b.inFlight + 1 }
  else .error "in-flight capacity is exhausted"

/-- `self._capacity.release()`. -/
def release (b : DependencyBoundary) : DependencyBoundary := { b with inFlight := b.inFlight - 1 }

/-- `_admit`. -/
def tryAdmit (b : DependencyBoundary) (now : ℚ) : Except String (Admission × DependencyBoundary) :=
  match b.openUntil with
  | none => .ok (⟨b.generation, false⟩, b)
  | some until_ =>
    if now < until_ then .error "circuit is open"
    else if b.halfOpenProbeActive then .error "recovery probe is already in flight"
    else .ok (⟨b.generation, true⟩, { b with halfOpenProbeActive := true })

/-- `_record_success`. -/
def recordSuccess (b : DependencyBoundary) (admission : Admission) : DependencyBoundary :=
  if admission.generation ≠ b.generation then b
  else if b.openUntil.isSome && !admission.halfOpenProbe then b
  else { b with consecutiveTransientFailures := 0, openUntil := none, halfOpenProbeActive := false }

/-- `_record_transient_failure`. -/
def recordTransientFailure (b : DependencyBoundary) (admission : Admission) (now : ℚ) :
    DependencyBoundary :=
  if admission.generation ≠ b.generation then b
  else
    let failures := b.consecutiveTransientFailures + 1
    if admission.halfOpenProbe || limits.failureThreshold ≤ failures then
      { b with
        consecutiveTransientFailures := failures
        openUntil := some (now + limits.recoverySeconds)
        generation := b.generation + 1
        halfOpenProbeActive := false }
    else { b with consecutiveTransientFailures := failures, halfOpenProbeActive := false }

/-- How an operation ends. An exception is classified by `is_transient`, which may itself raise;
a `BaseException` that is not an `Exception` is not classified. -/
inductive Outcome where
  | returned
  | raised (transient : Bool)
  | classifierRaised
  | aborted
  deriving DecidableEq, Repr

/-- The rest of `call` after the operation, up to the release. -/
def conclude (b : DependencyBoundary) (admission : Admission) (outcome : Outcome) (now : ℚ) :
    DependencyBoundary :=
  match outcome with
  | .returned => b.recordSuccess admission
  | .raised true => b.recordTransientFailure limits admission now
  | .raised false => if admission.halfOpenProbe then b.recordSuccess admission else b
  | .classifierRaised => b
  | .aborted => b

/-- No result is recorded. -/
def Outcome.unrecorded : Outcome → Bool
  | .classifierRaised | .aborted => true
  | _ => false

end DependencyBoundary

/-- Where one `call` stands. A running call carries, for the statements below, the number of
state changes the breaker had made when it was admitted. -/
inductive CallPhase where
  | acquired
  | running (admission : Admission) (admittedAt : Nat)
  | leaving
  | ended
  deriving DecidableEq

/-- The call holds a permit. -/
def CallPhase.holds : CallPhase → Bool
  | .ended => false
  | _ => true

/-- The call is a probe of the given generation, with its operation under way. -/
def CallPhase.probing (generation : Nat) : CallPhase → Bool
  | .running admission _ => admission.halfOpenProbe && admission.generation = generation
  | _ => false

/-- A boundary, the calls made through it, and how often it was opened or closed. -/
structure BoundaryRun where
  boundary : DependencyBoundary
  calls : List CallPhase
  changes : Nat
  deriving DecidableEq

/-- One atomic step: a critical section or a semaphore operation of some call, at some time. -/
inductive CallStep where
  | call
  | tryAdmit (call : Nat) (now : ℚ)
  | finish (call : Nat) (outcome : DependencyBoundary.Outcome) (now : ℚ)
  | release (call : Nat)
  deriving DecidableEq

namespace BoundaryRun

def initial : BoundaryRun := ⟨DependencyBoundary.initial, [], 0⟩

/-- The breaker went from one state to another. -/
def changed (b b' : DependencyBoundary) : Bool :=
  b.openUntil ≠ b'.openUntil || b.generation ≠ b'.generation

/-- The run with a new boundary and a call in a new phase. -/
def moved (s : BoundaryRun) (i : Nat) (b : DependencyBoundary) (phase : CallPhase) : BoundaryRun :=
  ⟨b, s.calls.set i phase, if changed s.boundary b then s.changes + 1 else s.changes⟩

/-- The reason of a refusal is the answer; a step that its call is not ready for does nothing. -/
def step (limits : DependencyLimits) (s : BoundaryRun) : CallStep → BoundaryRun × Option String
  | .call =>
    match s.boundary.acquire limits with
    | .error reason => (s, some reason)
    | .ok b => (⟨b, s.calls ++ [.acquired], s.changes⟩, none)
  | .tryAdmit i now =>
    match s.calls[i]? with
    | some .acquired =>
      match s.boundary.tryAdmit now with
      | .error reason => (s.moved i s.boundary .leaving, some reason)
      | .ok (admission, b) => (s.moved i b (.running admission s.changes), none)
    | _ => (s, none)
  | .finish i outcome now =>
    match s.calls[i]? with
    | some (.running admission _) =>
      (s.moved i (s.boundary.conclude limits admission outcome now) .leaving, none)
    | _ => (s, none)
  | .release i =>
    match s.calls[i]? with
    | some .leaving => (s.moved i s.boundary.release .ended, none)
    | _ => (s, none)

end BoundaryRun

end EngineeringIntelligence.Resilience
