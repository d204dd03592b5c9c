import EngineeringIntelligence.Resilience.Dependencies
import Mathlib.Data.List.Count
import Mathlib.Tactic.NormNum

namespace EngineeringIntelligence.Resilience

open EngineeringIntelligence.Framework

section
variable (limits : DependencyLimits)

namespace DependencyBoundary

/-- All that the end of an operation can do to the breaker: nothing, close it, count a failure,
or open it. -/
theorem conclude_cases (b : DependencyBoundary) (a : Admission) (outcome : Outcome) (now : ℚ) :
    b.conclude limits a outcome now = b ∨
    (a.generation = b.generation ∧ (b.openUntil = none ∨ a.halfOpenProbe = true) ∧
      b.conclude limits a outcome now = { b with
        consecutiveTransientFailures := 0, openUntil := none, halfOpenProbeActive := false }) ∨
    (a.generation = b.generation ∧ a.halfOpenProbe = false ∧
      b.consecutiveTransientFailures + 1 < limits.failureThreshold ∧
      b.conclude limits a outcome now = { b with
        consecutiveTransientFailures := b.consecutiveTransientFailures + 1
        halfOpenProbeActive := false }) ∨
    (a.generation = b.generation ∧
      b.conclude limits a outcome now = { b with
        consecutiveTransientFailures := b.consecutiveTransientFailures + 1
        openUntil := some (now + limits.recoverySeconds)
        generation := b.generation + 1
        halfOpenProbeActive := false }) := by
  have hsuccess : b.recordSuccess a = b ∨
      (a.generation = b.generation ∧ (b.openUntil = none ∨ a.halfOpenProbe = true) ∧
        b.recordSuccess a = { b with
          consecutiveTransientFailures := 0, openUntil := none, halfOpenProbeActive := false }) := by
    unfold recordSuccess
    by_cases hgen : a.generation = b.generation
    · cases hopen : b.openUntil <;> cases hprobe : a.halfOpenProbe <;> simp [hgen]
    · simp [hgen]
  cases outcome with
  | returned =>
    rcases hsuccess with h | h
    · exact Or.inl h
    · exact Or.inr (Or.inl h)
  | raised transient =>
    cases transient with
    | true =>
      simp only [conclude, recordTransientFailure]
      by_cases hgen : a.generation = b.generation
      · by_cases hopens : a.halfOpenProbe = true ∨
          limits.failureThreshold ≤ b.consecutiveTransientFailures + 1
        · simp [hgen, hopens]
        · obtain ⟨hprobe, hbelow⟩ := not_or.mp hopens
          simp [hgen, hprobe, Nat.lt_of_not_le hbelow, hbelow]
      · simp [hgen]
    | false =>
      simp only [conclude]
      cases hprobe : a.halfOpenProbe with
      | false => simp
      | true =>
        rw [hprobe] at hsuccess
        rcases hsuccess with h | h
        · exact Or.inl h
        · exact Or.inr (Or.inl h)
  | classifierRaised => exact Or.inl rfl
  | aborted => exact Or.inl rfl

/-- A result of another generation is dropped. -/
theorem conclude_of_ne {b : DependencyBoundary} {a : Admission} (h : a.generation ≠ b.generation)
    (outcome : Outcome) (now : ℚ) : b.conclude limits a outcome now = b := by
  rcases b.conclude_cases limits a outcome now with hsame | ⟨hgen, -⟩ | ⟨hgen, -⟩ | ⟨hgen, -⟩
  · exact hsame
  · exact absurd hgen h
  · exact absurd hgen h
  · exact absurd hgen h

/-- A recorded result of the current probe ends the probing. -/
theorem conclude_probe {b : DependencyBoundary} {a : Admission} (hgen : a.generation = b.generation)
    (hprobe : a.halfOpenProbe = true) {outcome : Outcome} (hrecorded : outcome.unrecorded = false)
    (now : ℚ) : (b.conclude limits a outcome now).halfOpenProbeActive = false := by
  cases outcome with
  | returned => simp [conclude, recordSuccess, hgen, hprobe]
  | raised transient =>
    cases transient <;> simp [conclude, recordSuccess, recordTransientFailure, hgen, hprobe]
  | classifierRaised => simp [Outcome.unrecorded] at hrecorded
  | aborted => simp [Outcome.unrecorded] at hrecorded

end DependencyBoundary

namespace BoundaryRun

/-- How many probes of the current generation are in flight. -/
def probes (s : BoundaryRun) : Nat := s.calls.countP (·.probing s.boundary.generation)

/-- What every step keeps. -/
structure Kept (s : BoundaryRun) : Prop where
  permits : s.boundary.inFlight = s.calls.countP (·.holds)
  bulkhead : s.boundary.inFlight ≤ limits.maxInFlight
  earlier : ∀ a n, .running a n ∈ s.calls → a.generation ≤ s.boundary.generation
  probes : s.probes ≤ s.boundary.halfOpenProbeActive.toNat
  opened : s.boundary.openUntil ≠ none → ∀ a n, .running a n ∈ s.calls →
    a.generation = s.boundary.generation → a.halfOpenProbe = true
  closed : s.boundary.openUntil = none → s.boundary.halfOpenProbeActive = false ∧
    s.boundary.consecutiveTransientFailures < limits.failureThreshold
  current : ∀ a n, .running a n ∈ s.calls → a.generation = s.boundary.generation → n = s.changes

theorem kept_initial : initial.Kept limits where
  permits := rfl
  bulkhead := Nat.zero_le _
  earlier := by simp [initial]
  probes := Nat.le_refl 0
  opened := by simp [initial]
  closed := fun _ => ⟨rfl, limits.threshold_pos⟩
  current := by simp [initial]

section
variable {limits} {s : BoundaryRun} {i : Nat} {phase : CallPhase} {b : DependencyBoundary}

theorem countP_calls_set {p : CallPhase → Bool} (h : s.calls[i]? = some phase) (new : CallPhase) :
    (s.calls.set i new).countP p + (p phase).toNat = s.calls.countP p + (p new).toNat := by
  obtain ⟨hi, hphase⟩ := List.getElem?_eq_some_iff.mp h
  have hpos : p phase = true → 0 < s.calls.countP p := by
    intro hp
    exact List.countP_pos_iff.mpr ⟨phase, hphase ▸ List.getElem_mem hi, hp⟩
  rw [List.countP_set hi, hphase]
  cases hp : p phase <;> cases hn : p new <;> simp_all

theorem running_of_set {new : CallPhase} (hnew : ∀ a n, new ≠ .running a n) {a : Admission}
    {n : Nat} (h : .running a n ∈ s.calls.set i new) : .running a n ∈ s.calls := by
  rcases List.mem_or_eq_of_mem_set h with hmem | heq
  · exact hmem
  · exact absurd heq.symm (hnew a n)

theorem Kept.not_probing_of_closed (hs : s.Kept limits) (hclosed : s.boundary.openUntil = none) :
    s.probes = 0 := by
  have h := hs.probes
  rw [(hs.closed hclosed).1] at h
  exact Nat.le_zero.mp h

theorem moved_of_unchanged (h : changed s.boundary b = false) :
    s.moved i b phase = ⟨b, s.calls.set i phase, s.changes⟩ := by
  rw [moved, h]
  rfl

/-- A call that takes another place and leaves the breaker alone, apart from the permits and
the probe flag. -/
theorem Kept.replaced (hs : s.Kept limits) {old : CallPhase} (h : s.calls[i]? = some old)
    (hopen : b.openUntil = s.boundary.openUntil) (hgen : b.generation = s.boundary.generation)
    (hfailures : b.consecutiveTransientFailures = s.boundary.consecutiveTransientFailures)
    (hpermits : b.inFlight + old.holds.toNat = s.boundary.inFlight + phase.holds.toNat)
    (hbulkhead : b.inFlight ≤ limits.maxInFlight)
    (hprobes : (s.calls.set i phase).countP (·.probing s.boundary.generation) ≤
      b.halfOpenProbeActive.toNat)
    (hflag : b.openUntil = none → b.halfOpenProbeActive = false)
    (hnew : ∀ a n, phase = .running a n → a.generation = s.boundary.generation ∧ n = s.changes ∧
      (b.openUntil ≠ none → a.halfOpenProbe = true)) :
    (s.moved i b phase).Kept limits := by
  have hmem : ∀ a n, .running a n ∈ s.calls.set i phase → .running a n ∈ s.calls ∨
      (a.generation = s.boundary.generation ∧ n = s.changes ∧
        (b.openUntil ≠ none → a.halfOpenProbe = true)) := by
    intro a n hrunning
    rcases List.mem_or_eq_of_mem_set hrunning with hold | heq
    · exact Or.inl hold
    · exact Or.inr (hnew a n heq.symm)
  rw [moved_of_unchanged (by simp [changed, hopen, hgen])]
  refine ⟨?_, hbulkhead, ?_, ?_, ?_, ?_, ?_⟩
  · have hcount := countP_calls_set (p := fun c => c.holds) h phase
    have hkept := hs.permits
    dsimp only
    omega
  · intro a n hrunning
    dsimp only
    rw [hgen]
    rcases hmem a n hrunning with hold | ⟨heq, -⟩
    · exact hs.earlier a n hold
    · exact Nat.le_of_eq heq
  · dsimp only [BoundaryRun.probes]
    rw [hgen]
    exact hprobes
  · intro hopened a n hrunning hcurrent
    rcases hmem a n hrunning with hold | ⟨-, -, hprobe⟩
    · exact hs.opened (hopen ▸ hopened) a n hold (hcurrent.trans hgen)
    · exact hprobe hopened
  · intro hclosed
    refine ⟨hflag hclosed, ?_⟩
    rw [hfailures]
    exact (hs.closed (hopen ▸ hclosed)).2
  · intro a n hrunning hcurrent
    rcases hmem a n hrunning with hold | ⟨-, hn, -⟩
    · exact hs.current a n hold (hcurrent.trans hgen)
    · exact hn

/-- A running call that concludes in a breaker that is not open afterwards, or is open in a new
generation. -/
theorem Kept.concluded (hs : s.Kept limits) {a : Admission} {n : Nat}
    (h : s.calls[i]? = some (.running a n)) (outcome : DependencyBoundary.Outcome) (now : ℚ) :
    (s.moved i (s.boundary.conclude limits a outcome now) .leaving).Kept limits := by
  have hmem : CallPhase.running a n ∈ s.calls := List.mem_of_getElem? h
  have hother : ∀ a' n', .running a' n' ∈ s.calls.set i .leaving → .running a' n' ∈ s.calls :=
    fun a' n' => running_of_set (by simp)
  have hholds : (s.calls.set i .leaving).countP (·.holds) = s.calls.countP (·.holds) := by
    have hcount := countP_calls_set (p := fun c => c.holds) h .leaving
    simpa [CallPhase.holds] using hcount
  have hprobing := countP_calls_set (p := (·.probing s.boundary.generation)) h .leaving
  have hkept := hs.probes
  rw [BoundaryRun.probes] at hkept
  rcases s.boundary.conclude_cases limits a outcome now with
    hsame | ⟨hgen, hmay, hcloses⟩ | ⟨hgen, hprobe, hbelow, hcounts⟩ | ⟨hgen, hopens⟩
  · rw [hsame]
    refine hs.replaced h rfl rfl rfl rfl hs.bulkhead ?_ (fun hc => (hs.closed hc).1) (by simp)
    have hleaving : (CallPhase.leaving.probing s.boundary.generation).toNat = 0 := rfl
    omega
  · -- The breaker closes: the probe that closes it was the only one.
    have hnone : (s.calls.set i .leaving).countP (·.probing s.boundary.generation) = 0 := by
      have hleaving : (CallPhase.leaving.probing s.boundary.generation).toNat = 0 := rfl
      rcases hmay with hclosed | hprobe
      · have hzero := hs.not_probing_of_closed hclosed
        rw [BoundaryRun.probes] at hzero
        omega
      · have hrunning : ((CallPhase.running a n).probing s.boundary.generation).toNat = 1 := by
          simp [CallPhase.probing, hprobe, hgen]
        have hflag := Bool.toNat_le s.boundary.halfOpenProbeActive
        omega
    rw [hcloses]
    refine ⟨?_, hs.bulkhead, ?_, ?_, ?_, ?_, ?_⟩
    · exact hs.permits.trans hholds.symm
    · exact fun a' n' hrunning => hs.earlier a' n' (hother a' n' hrunning)
    · exact Nat.le_of_eq hnone
    · exact fun hopened => absurd rfl hopened
    · exact fun _ => ⟨rfl, limits.threshold_pos⟩
    · intro a' n' hrunning hcurrent
      rcases hmay with hclosed | hprobe
      · have hn := hs.current a' n' (hother a' n' hrunning) hcurrent
        simpa [moved, changed, hclosed] using hn
      · by_cases hclosed : s.boundary.openUntil = none
        · have hn := hs.current a' n' (hother a' n' hrunning) hcurrent
          simpa [moved, changed, hclosed] using hn
        · have hprobe' := hs.opened hclosed a' n' (hother a' n' hrunning) hcurrent
          have hcounted := List.countP_eq_zero.mp hnone _ hrunning
          have hcurrent' : a'.generation = s.boundary.generation := hcurrent
          exact absurd (by simp [CallPhase.probing, hprobe', hcurrent']) hcounted
  · -- A failure below the threshold: only a call of the closed breaker can report one.
    have hclosed : s.boundary.openUntil = none := by
      by_contra hopened
      have htrue := hs.opened hopened a n hmem hgen
      rw [hprobe] at htrue
      exact absurd htrue (by decide)
    have hzero := hs.not_probing_of_closed hclosed
    rw [BoundaryRun.probes] at hzero
    rw [hcounts]
    refine ⟨?_, hs.bulkhead, ?_, ?_, ?_, ?_, ?_⟩
    · exact hs.permits.trans hholds.symm
    · exact fun a' n' hrunning => hs.earlier a' n' (hother a' n' hrunning)
    · have hleaving : (CallPhase.leaving.probing s.boundary.generation).toNat = 0 := rfl
      change (s.calls.set i .leaving).countP (·.probing s.boundary.generation) ≤ 0
      omega
    · exact fun hopened => absurd hclosed hopened
    · exact fun _ => ⟨rfl, hbelow⟩
    · intro a' n' hrunning hcurrent
      have hn := hs.current a' n' (hother a' n' hrunning) hcurrent
      simpa [moved, changed] using hn
  · -- The breaker opens: every call in flight is of an older generation.
    have holder : ∀ a' n', .running a' n' ∈ s.calls.set i .leaving →
        a'.generation < s.boundary.generation + 1 :=
      fun a' n' hrunning => Nat.lt_succ_of_le (hs.earlier a' n' (hother a' n' hrunning))
    rw [hopens]
    refine ⟨?_, hs.bulkhead, ?_, ?_, ?_, ?_, ?_⟩
    · exact hs.permits.trans hholds.symm
    · exact fun a' n' hrunning => Nat.le_of_lt (holder a' n' hrunning)
    · apply Nat.le_of_eq
      apply List.countP_eq_zero.mpr
      intro c hc
      cases c with
      | running a' n' =>
        have hlt := holder a' n' hc
        have hne : a'.generation ≠ s.boundary.generation + 1 := by omega
        simp [CallPhase.probing, hne, moved]
      | _ => simp [CallPhase.probing]
    · intro _ a' n' hrunning hcurrent
      have hlt := holder a' n' hrunning
      change a'.generation = s.boundary.generation + 1 at hcurrent
      omega
    · intro hclosed
      simp [moved] at hclosed
    · intro a' n' hrunning hcurrent
      have hlt := holder a' n' hrunning
      change a'.generation = s.boundary.generation + 1 at hcurrent
      omega

theorem Kept.step (hs : s.Kept limits) (ev : CallStep) : (s.step limits ev).1.Kept limits := by
  cases ev with
  | call =>
    simp only [BoundaryRun.step, DependencyBoundary.acquire]
    by_cases hfree : s.boundary.inFlight < limits.maxInFlight
    · have hrunning : ∀ a n, CallPhase.running a n ∈ s.calls ++ [.acquired] →
          CallPhase.running a n ∈ s.calls := by
        intro a n h
        simpa using h
      rw [if_pos hfree]
      refine ⟨?_, hfree, ?_, ?_, ?_, hs.closed, ?_⟩
      · have hpermits := hs.permits
        simp [hpermits, CallPhase.holds]
      · exact fun a n h => hs.earlier a n (hrunning a n h)
      · have hprobes := hs.probes
        simpa [BoundaryRun.probes, CallPhase.probing] using hprobes
      · exact fun hopened a n h => hs.opened hopened a n (hrunning a n h)
      · exact fun a n h => hs.current a n (hrunning a n h)
    · rw [if_neg hfree]
      exact hs
  | tryAdmit i now =>
    simp only [BoundaryRun.step]
    split
    · next hphase =>
      have hcount := countP_calls_set (p := (·.probing s.boundary.generation)) hphase
      have hkept := hs.probes
      rw [BoundaryRun.probes] at hkept
      have hacquired : (CallPhase.acquired.probing s.boundary.generation).toNat = 0 := rfl
      have hstays : ∀ new : CallPhase, new.holds = true →
          new.probing s.boundary.generation = false →
          (∀ a n, new = .running a n → a.generation = s.boundary.generation ∧ n = s.changes ∧
            (s.boundary.openUntil ≠ none → a.halfOpenProbe = true)) →
          (s.moved i s.boundary new).Kept limits := by
        intro new hholds hnot hnew
        have hset := hcount new
        rw [hnot, hacquired] at hset
        refine hs.replaced hphase rfl rfl rfl ?_ hs.bulkhead ?_ (fun hc => (hs.closed hc).1) hnew
        · rw [hholds]
          rfl
        · simp only [Bool.toNat_false, Nat.add_zero] at hset
          exact hset ▸ hkept
      cases hopen : s.boundary.openUntil with
      | none =>
        have htry : s.boundary.tryAdmit now = .ok (⟨s.boundary.generation, false⟩, s.boundary) := by
          simp [DependencyBoundary.tryAdmit, hopen]
        simp only [htry]
        apply hstays _ rfl (by simp [CallPhase.probing])
        intro a n heq
        cases heq
        exact ⟨rfl, rfl, fun hne => absurd hopen hne⟩
      | some t =>
        by_cases hwait : now < t
        · have htry : s.boundary.tryAdmit now = .error "circuit is open" := by
            simp [DependencyBoundary.tryAdmit, hopen, hwait]
          simp only [htry]
          exact hstays .leaving rfl rfl (by simp)
        · cases hflag : s.boundary.halfOpenProbeActive with
          | true =>
            have htry : s.boundary.tryAdmit now = .error "recovery probe is already in flight" := by
              simp [DependencyBoundary.tryAdmit, hopen, hwait, hflag]
            simp only [htry]
            exact hstays .leaving rfl rfl (by simp)
          | false =>
            have htry : s.boundary.tryAdmit now = .ok (⟨s.boundary.generation, true⟩,
                { s.boundary with halfOpenProbeActive := true }) := by
              simp [DependencyBoundary.tryAdmit, hopen, hwait, hflag]
            have hset := hcount (.running ⟨s.boundary.generation, true⟩ s.changes)
            have hone : ((CallPhase.running ⟨s.boundary.generation, true⟩ s.changes).probing
                s.boundary.generation).toNat = 1 := by simp [CallPhase.probing]
            rw [hflag] at hkept
            simp only [htry]
            refine hs.replaced hphase rfl rfl rfl rfl hs.bulkhead ?_ ?_ ?_
            · simp only [Bool.toNat_false, Bool.toNat_true] at hkept ⊢
              omega
            · intro hclosed
              rw [hopen] at hclosed
              exact absurd hclosed (by simp)
            · intro a n heq
              cases heq
              exact ⟨rfl, rfl, fun _ => rfl⟩
    · exact hs
  | finish i outcome now =>
    simp only [BoundaryRun.step]
    split
    · next hphase => exact hs.concluded hphase outcome now
    · exact hs
  | release i =>
    simp only [BoundaryRun.step]
    split
    · next hphase =>
      have hpos : 0 < s.boundary.inFlight := by
        rw [hs.permits]
        exact List.countP_pos_iff.mpr ⟨_, List.mem_of_getElem? hphase, rfl⟩
      have hcount := countP_calls_set (p := (·.probing s.boundary.generation)) hphase .ended
      have hkept := hs.probes
      rw [BoundaryRun.probes] at hkept
      refine hs.replaced hphase rfl rfl rfl ?_ ?_ ?_ (fun hc => (hs.closed hc).1) (by simp)
      · change s.boundary.inFlight - 1 + 1 = s.boundary.inFlight + 0
        omega
      · exact (Nat.sub_le _ 1).trans hs.bulkhead
      · change _ ≤ s.boundary.halfOpenProbeActive.toNat
        have hended : (CallPhase.ended.probing s.boundary.generation).toNat = 0 := rfl
        omega
    · exact hs

/-- The probe flag is set exactly when a probe of the current generation is in flight. -/
def FlagExact (s : BoundaryRun) : Prop := s.boundary.halfOpenProbeActive = true ↔ s.probes = 1

theorem Kept.flagExact_iff (hs : s.Kept limits) :
    s.FlagExact ↔ s.probes = s.boundary.halfOpenProbeActive.toNat := by
  have hkept := hs.probes
  unfold FlagExact
  cases hflag : s.boundary.halfOpenProbeActive with
  | false =>
    rw [hflag, Bool.toNat_false] at hkept
    simp only [Bool.false_eq_true, false_iff, Bool.toNat_false]
    omega
  | true => simp

theorem Kept.flagExact_of_idle (hs : s.Kept limits)
    (hflag : s.boundary.halfOpenProbeActive = false) : s.FlagExact := by
  have hkept := hs.probes
  rw [hflag, Bool.toNat_false] at hkept
  rw [hs.flagExact_iff, hflag, Bool.toNat_false]
  omega

/-- The step is not the end of a current probe whose result is not recorded. -/
def ProbeRecorded (s : BoundaryRun) : CallStep → Prop
  | .finish i outcome _ => ∀ c ∈ s.calls[i]?, c.probing s.boundary.generation = true →
      outcome.unrecorded = false
  | _ => True

instance (s : BoundaryRun) (ev : CallStep) : Decidable (s.ProbeRecorded ev) := by
  unfold ProbeRecorded
  split
  · infer_instance
  · infer_instance

/-- A call whose move is none of a probe leaves an exact flag exact. -/
theorem FlagExact.moved (hexact : s.FlagExact) {old new : CallPhase} (h : s.calls[i]? = some old) (hold : old.probing s.boundary.generation = false)
    (hnew : new.probing s.boundary.generation = false) (hgen : b.generation = s.boundary.generation)
    (hflag : b.halfOpenProbeActive = s.boundary.halfOpenProbeActive) :
    (s.moved i b new).FlagExact := by
  have hcount := countP_calls_set (p := (·.probing s.boundary.generation)) h new
  rw [hold, hnew] at hcount
  have hprobes : (s.moved i b new).probes = s.probes := by
    change (s.calls.set i new).countP (·.probing b.generation) =
      s.calls.countP (·.probing s.boundary.generation)
    rw [hgen]
    simpa using hcount
  unfold FlagExact at hexact ⊢
  rw [hprobes, ← hexact]
  exact Eq.congr_left hflag

theorem Kept.flagExact_concluded (hs : s.Kept limits) (hexact : s.FlagExact) {a : Admission} {n : Nat}
    (h : s.calls[i]? = some (.running a n)) (outcome : DependencyBoundary.Outcome) (now : ℚ) :
    (s.moved i (s.boundary.conclude limits a outcome now) .leaving).FlagExact ↔
      ((CallPhase.running a n).probing s.boundary.generation = true →
        outcome.unrecorded = false) := by
  have hafter := hs.concluded h outcome now
  cases hprobing : (CallPhase.running a n).probing s.boundary.generation with
  | false =>
    refine iff_of_true ?_ (by simp)
    rcases s.boundary.conclude_cases limits a outcome now with
      hsame | ⟨-, -, hc⟩ | ⟨-, -, -, hc⟩ | ⟨-, hc⟩
    · rw [hsame]
      exact hexact.moved h hprobing rfl rfl rfl
    all_goals
      apply hafter.flagExact_of_idle
      rw [hc]
      rfl
  | true =>
    have hboth : a.halfOpenProbe = true ∧ a.generation = s.boundary.generation := by
      simpa [CallPhase.probing] using hprobing
    cases hrecorded : outcome.unrecorded with
    | false =>
      refine iff_of_true ?_ (fun _ => rfl)
      apply hafter.flagExact_of_idle
      exact DependencyBoundary.conclude_probe limits hboth.2 hboth.1 hrecorded now
    | true =>
      -- The probe leaves, its flag stays.
      have hsame : s.boundary.conclude limits a outcome now = s.boundary := by
        cases outcome <;> first | rfl | exact absurd hrecorded (by simp [DependencyBoundary.Outcome.unrecorded])
      refine iff_of_false ?_ (by simp)
      have hcount := countP_calls_set (p := (·.probing s.boundary.generation)) h .leaving
      have hpos : 0 < s.probes := List.countP_pos_iff.mpr ⟨_, List.mem_of_getElem? h, hprobing⟩
      have hkept := hs.probes
      have hle := Bool.toNat_le s.boundary.halfOpenProbeActive
      have hone : s.probes = 1 := by omega
      have hflag : s.boundary.halfOpenProbeActive = true := hexact.mpr hone
      rw [hsame]
      intro hnext
      have hstill : (s.calls.set i .leaving).countP (·.probing s.boundary.generation) = 1 :=
        hnext.mp hflag
      have hleaving : (CallPhase.leaving.probing s.boundary.generation).toNat = 0 := rfl
      rw [BoundaryRun.probes] at hone
      rw [hprobing, hleaving, hstill, hone] at hcount
      simp at hcount

/-- One step keeps the flag exact exactly when it is not the unrecorded end of a probe. -/
theorem Kept.flagExact_step (hs : s.Kept limits) (hexact : s.FlagExact) (ev : CallStep) :
    (s.step limits ev).1.FlagExact ↔ s.ProbeRecorded ev := by
  have hafter := hs.step ev
  cases ev with
  | call =>
    refine iff_of_true ?_ trivial
    simp only [BoundaryRun.step, DependencyBoundary.acquire]
    by_cases hfree : s.boundary.inFlight < limits.maxInFlight
    · rw [if_pos hfree]
      simpa [FlagExact, BoundaryRun.probes, CallPhase.probing] using hexact
    · rw [if_neg hfree]
      exact hexact
  | tryAdmit i now =>
    refine iff_of_true ?_ trivial
    revert hafter
    simp only [BoundaryRun.step]
    split
    · next hphase =>
      intro hafter
      cases hresult : s.boundary.tryAdmit now with
      | error reason =>
        simp only [hresult] at hafter ⊢
        exact hexact.moved hphase rfl rfl rfl rfl
      | ok p =>
        obtain ⟨a, b⟩ := p
        simp only [hresult] at hafter ⊢
        cases hopen : s.boundary.openUntil with
        | none =>
          simp only [DependencyBoundary.tryAdmit, hopen, Except.ok.injEq, Prod.mk.injEq] at hresult
          obtain ⟨rfl, rfl⟩ := hresult
          exact hexact.moved hphase rfl (by simp [CallPhase.probing]) rfl rfl
        | some t =>
          simp only [DependencyBoundary.tryAdmit, hopen] at hresult
          split at hresult
          · cases hresult
          · split at hresult
            · cases hresult
            · next hidle =>
              cases hresult
              have hcount := countP_calls_set (p := (·.probing s.boundary.generation)) hphase
                (.running ⟨s.boundary.generation, true⟩ s.changes)
              have hacquired : (CallPhase.acquired.probing s.boundary.generation).toNat = 0 := rfl
              have hone : ((CallPhase.running ⟨s.boundary.generation, true⟩ s.changes).probing
                  s.boundary.generation).toNat = 1 := by simp [CallPhase.probing]
              have hzero := hs.flagExact_iff.mp hexact
              have hfalse : s.boundary.halfOpenProbeActive = false := by simpa using hidle
              rw [hfalse] at hzero
              rw [BoundaryRun.probes, Bool.toNat_false] at hzero
              refine iff_of_true rfl ?_
              change (s.calls.set i _).countP (·.probing s.boundary.generation) = 1
              omega
    · exact fun _ => hexact
  | finish i outcome now =>
    simp only [BoundaryRun.step, ProbeRecorded]
    split
    · next a n hphase =>
      rw [hphase, hs.flagExact_concluded hexact hphase]
      simp
    · next hphase =>
      refine iff_of_true hexact ?_
      intro c hc hprobing
      cases c with
      | running a n => exact absurd hc (hphase a n)
      | _ => simp [CallPhase.probing] at hprobing
  | release i =>
    refine iff_of_true ?_ trivial
    simp only [BoundaryRun.step]
    split
    · next hphase => exact hexact.moved hphase rfl rfl rfl rfl
    · exact hexact

end

/-- What the boundary promises in a state. -/
structure Sound (s : BoundaryRun) : Prop where
  bulkhead : s.calls.countP (·.holds) ≤ limits.maxInFlight
  permits : s.boundary.inFlight = s.calls.countP (·.holds)
  drained : (∀ c ∈ s.calls, c = CallPhase.ended) → s.boundary.inFlight = 0
  probe : s.FlagExact
  recovers : (∀ c ∈ s.calls, c = CallPhase.ended) → ∀ t, s.boundary.openUntil = some t → ∀ now, t ≤ now →
    (∃ b, s.boundary.acquire limits = .ok b) ∧
      ∃ a b, s.boundary.tryAdmit now = .ok (a, b) ∧ a.halfOpenProbe = true
  late : ∀ (i : Nat) a admittedAt, s.calls[i]? = some (CallPhase.running a admittedAt) → admittedAt < s.changes →
    ∀ outcome now, s.boundary.conclude limits a outcome now = s.boundary
  threshold : ∀ now, (s.boundary.health now).1 = .closed →
    s.boundary.consecutiveTransientFailures < limits.failureThreshold

variable {limits}

/-- An idle breaker has all its permits, and its flag, where exact, is down. -/
theorem Kept.idle {s : BoundaryRun} (hs : s.Kept limits) (hended : ∀ c ∈ s.calls, c = .ended) :
    s.boundary.inFlight = 0 ∧ (s.FlagExact → s.boundary.halfOpenProbeActive = false) := by
  have hnone : ∀ p : CallPhase → Bool, p .ended = false → s.calls.countP p = 0 := by
    intro p hp
    apply List.countP_eq_zero.mpr
    intro c hc
    rw [hended c hc, hp]
    decide
  constructor
  · rw [hs.permits]
    exact hnone _ rfl
  · intro hexact
    have hzero : s.probes = 0 := hnone _ rfl
    cases hflag : s.boundary.halfOpenProbeActive with
    | false => rfl
    | true =>
      have hone := hexact.mp hflag
      omega

/-- Everything but the probe flag holds in every state; the rest follows from the flag. -/
theorem Kept.sound_iff {s : BoundaryRun} (hs : s.Kept limits) : s.Sound limits ↔ s.FlagExact := by
  constructor
  · exact fun h => h.probe
  · intro hexact
    refine ⟨hs.permits ▸ hs.bulkhead, hs.permits, fun h => (hs.idle h).1, hexact, ?_, ?_, ?_⟩
    · intro hended t hopen now hnow
      obtain ⟨hfree, hdown⟩ := hs.idle hended
      have hpos : 0 < limits.maxInFlight := limits.inFlight_pos
      constructor
      · simp [DependencyBoundary.acquire, hfree, hpos]
      · simp [DependencyBoundary.tryAdmit, hopen, not_lt.mpr hnow, hdown hexact]
    · intro i a admittedAt hphase hlate outcome now
      apply DependencyBoundary.conclude_of_ne
      intro hgen
      have hcurrent := hs.current a admittedAt (List.mem_of_getElem? hphase) hgen
      omega
    · intro now hclosed
      cases hopen : s.boundary.openUntil with
      | none => exact (hs.closed hopen).2
      | some t =>
        simp only [DependencyBoundary.health, hopen] at hclosed
        split at hclosed <;> simp at hclosed

/-- For any interleaving of calls, the boundary keeps its promises throughout exactly when no
half-open probe ends without a recorded result. -/
theorem sound_throughout_iff (limits : DependencyLimits) (steps : List CallStep) :
    (∀ pre, pre <+: steps → (runState (step limits) initial pre).Sound limits) ↔
      Admissible (step limits) ProbeRecorded initial steps := by
  have hkept : ∀ pre, (runState (step limits) initial pre).Kept limits :=
    run_invariant (step limits) (fun _ ev h => h.step ev) (kept_initial limits)
  have hstep : ∀ s ev, s.Kept limits ∧ s.FlagExact →
      ((step limits s ev).1.Kept limits ∧ (step limits s ev).1.FlagExact ↔ s.ProbeRecorded ev) := by
    intro s ev h
    rw [← h.1.flagExact_step h.2 ev]
    exact and_iff_right (h.1.step ev)
  have hstart : initial.Kept limits ∧ initial.FlagExact :=
    ⟨kept_initial limits, by simp [FlagExact, probes, initial, DependencyBoundary.initial]⟩
  rw [admissible_iff_prefixes (step limits) (P := fun s => s.Kept limits ∧ s.FlagExact) hstep hstart]
  constructor
  · intro h pre hpre
    exact ⟨hkept pre, (h pre hpre).probe⟩
  · intro h pre hpre
    exact (hkept pre).sound_iff.mpr (h pre hpre).2

end BoundaryRun

end

/-- One failure opens the breaker; the probe that follows is interrupted. -/
def interruptedProbe : List CallStep :=
  [.call, .tryAdmit 0 100, .finish 0 (.raised true) 101, .release 0,
    .call, .tryAdmit 1 131, .finish 1 .aborted 132, .release 1]

def oneFailureLimits : DependencyLimits :=
  ⟨1, 1, 30, by decide, by decide, by norm_num⟩

/-- Nothing is in flight any more, the flag is up, and no probe is admitted. -/
theorem interrupted_probe_wedges :
    let s := runState (BoundaryRun.step oneFailureLimits) BoundaryRun.initial interruptedProbe
    s.calls = [.ended, .ended] ∧ s.boundary.halfOpenProbeActive = true ∧
      s.boundary.tryAdmit 1000 = .error "recovery probe is already in flight" := by
  decide +kernel

end EngineeringIntelligence.Resilience
