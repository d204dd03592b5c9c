import EngineeringIntelligence.Orchestration.Runner

namespace EngineeringIntelligence.Orchestration

open EngineeringIntelligence.Framework

/-! Who may report on a job. `complete` and `fail` name only the job, so the queue cannot
tell the worker of the current claim from one whose lease was taken over. -/

variable {ε χ : Type}

/-- The job is still leased under the claim that handed `job` out. -/
def Runners.HoldsClaim (s : Runners ε) (job : Job) : Prop :=
  ∃ row, s.queue.get job.jobId = some row ∧ row.status = .leased ∧ row.attempts = job.attempts

def RunnerOp.IsComplete : RunnerOp χ → Prop
  | .complete _ => True
  | _ => False

instance : (op : RunnerOp χ) → Decidable op.IsComplete
  | .complete _ => isTrue trivial
  | .enqueue _ | .claim .. | .handle .. | .failRead .. | .failWrite .. | .crash _ => isFalse id

/-- The reporting worker's job has not been claimed again since, or is completed once more. -/
def FromLatestClaim (s : Runners ε) (op : RunnerOp χ) : Prop :=
  ∀ job ∈ s.reported op, ∀ row ∈ s.queue.get job.jobId,
    row.attempts ≤ job.attempts ∨ (op.IsComplete ∧ row.status = .completed)

instance (s : Runners ε) (op : RunnerOp χ) : Decidable (FromLatestClaim s op) :=
  inferInstanceAs (Decidable (∀ job ∈ _, ∀ row ∈ _, _ ∨ _))

/-- A worker that has the latest claim of a job finds it leased, and no other worker has it. -/
structure Held (s : Runners ε) : Prop where
  row : ∀ w job, (s.phase w).job = some job → ∃ row, s.queue.get job.jobId = some row ∧
    job.attempts ≤ row.attempts ∧ (job.attempts = row.attempts → row.status = .leased)
  alone : ∀ w w' job job', (s.phase w).job = some job → (s.phase w').job = some job' →
    job.jobId = job'.jobId → job.attempts = job'.attempts → w = w'

section
variable (handler : Job → χ → Handling ε)

/-- The step is a report that changed the row of job `id`, which had been claimed `n` times. -/
def EffectiveReport (s : Runners ε) (op : RunnerOp χ) (id : String) (n : Nat) : Prop :=
  ∃ job row, s.reported op = some job ∧ job.jobId = id ∧ s.queue.get id = some row ∧
    row.attempts = n ∧ (s.next handler op).queue.get id ≠ some row

/-- The state after some steps from an empty queue. -/
def after (ops : List (RunnerOp χ)) : Runners ε := runState (Runners.step handler) .initial ops

/-- Reports are fenced by leases in a run from an empty queue. -/
structure Fenced (ops : List (RunnerOp χ)) : Prop where
  /-- a report by a worker whose job was claimed again leaves the queue as it is -/
  stale : ∀ pre op post, ops = pre ++ op :: post → ∀ job row,
    (after handler pre).reported op = some job →
    (after handler pre).queue.get job.jobId = some row → job.attempts < row.attempts →
    ((after handler pre).next handler op).queue = (after handler pre).queue
  /-- a completed or dead-lettered job keeps that status -/
  terminal : ∀ pre post, ops = pre ++ post → ∀ id row,
    (after handler pre).queue.get id = some row → row.status.Terminal →
    ∃ row', (after handler ops).queue.get id = some row' ∧ row'.status = row.status
  /-- no two reports take effect on one claim -/
  single : ∀ pre op₁ mid op₂ post, ops = pre ++ op₁ :: (mid ++ op₂ :: post) → ∀ id n,
    EffectiveReport handler (after handler pre) op₁ id n →
    ¬ EffectiveReport handler (after handler (pre ++ op₁ :: mid)) op₂ id n

end

section
variable {handler : Job → χ → Handling ε} {s : Runners ε} {op : RunnerOp χ}

/-- A completed row has no lease and no error left. -/
def Tidy (s : Runners ε) : Prop :=
  ∀ id row, s.queue.get id = some row → row.status = .completed → row.completed = row

theorem tidy_next (handler : Job → χ → Handling ε) (s : Runners ε) (op : RunnerOp χ)
    (h : Tidy s) : Tidy (s.next handler op) := by
  intro id row hrow
  refine rows_next h ?_ ?_ hrow
  · intro job _ hdone
    cases hdone
  · intro id row row' _ htidy hchange hdone
    cases hchange with
    | same => exact htidy hdone
    | lease hidle hnext => cases hdone
    | complete hphase hjob => rfl
    | fail hphase hjob =>
      rw [failed_status] at hdone
      split at hdone <;> cases hdone

/-- Completing a completed job changes nothing. -/
theorem complete_completed {id : String} {row : Job} (htidy : Tidy s)
    (hrow : s.queue.get id = some row) (hdone : row.status = .completed) :
    s.queue.complete id = s.queue := by
  apply Table.update_eq_self
  intro r hr
  obtain rfl : row = r := Option.some.inj (hrow.symm.trans hr)
  exact htidy id row hrow hdone

theorem complete_repeated {job row : Job} (htidy : Tidy s) (hop : op.IsComplete)
    (hreported : s.reported op = some job) (hrow : s.queue.get job.jobId = some row)
    (hdone : row.status = .completed) : (s.next handler op).queue = s.queue := by
  cases op with
  | complete w =>
    cases hphase : s.phase w <;> simp only [Runners.reported, hphase] at hreported
    case handled j outcome =>
      cases outcome with
      | error m => cases hreported
      | ok u =>
        cases hreported
        simp only [Runners.next, hphase, Runners.setPhase_queue]
        exact complete_completed htidy hrow hdone
    all_goals cases hreported
  | enqueue j => cases hop
  | claim w l t => cases hop
  | handle w x => cases hop
  | failRead w t => cases hop
  | failWrite w b => cases hop
  | crash w => cases hop

/-- Nobody still holds the latest claim of a job that was just reported on. -/
theorem attempts_lt_of_reported {w : Nat} {job job₀ row : Job} (h : Held s)
    (hok : FromLatestClaim s op) (hreported : s.reported op = some job₀)
    (hid : job₀.jobId = row.jobId) (hrow : s.queue.get job.jobId = some row)
    (hjob : (s.phase w).job = some job) (hstill : ((s.next handler op).phase w).job = some job) :
    job.attempts < row.attempts := by
  obtain ⟨r, hr, hle, hleased⟩ := h.row w job hjob
  obtain rfl : row = r := Option.some.inj (hrow.symm.trans hr)
  have hkey := Table.key_of_get hrow
  have hrow₀ : s.queue.get job₀.jobId = some row := by rw [hid, hkey, hrow]
  obtain ⟨w₀, hw₀, hnone⟩ := reported_idle handler hreported
  obtain ⟨r, hr, hle₀, -⟩ := h.row w₀ job₀ hw₀
  obtain rfl : row = r := Option.some.inj (hrow₀.symm.trans hr)
  refine lt_of_le_of_ne hle ?_
  intro heq
  rcases hok job₀ hreported row hrow₀ with hlatest | ⟨-, hdone⟩
  · have hsame : w = w₀ := h.alone w w₀ job job₀ hjob hw₀ (hkey.symm.trans hid.symm) (by omega)
    rw [hsame, hnone] at hstill
    cases hstill
  · rw [hleased heq] at hdone
    cases hdone

theorem new_claim_fresh {w : Nat} {job row : Job} {now t : Rat} (h : Held s)
    (hjob : (s.phase w).job = some job) (hnext : s.queue.nextJob now = some row)
    (hid : job.jobId = (row.lease t).jobId) : job.attempts ≠ (row.lease t).attempts := by
  intro hattempts
  obtain ⟨r, hr, hle, -⟩ := h.row w job hjob
  have hrow : s.queue.get job.jobId = some row := hid ▸ (nextJob_spec hnext).1
  obtain rfl : row = r := Option.some.inj (hrow.symm.trans hr)
  have hnew : (row.lease t).attempts = row.attempts + 1 := rfl
  omega

/-- With no stale report around, a report is made under the current claim. -/
theorem holdsClaim_of_latest {job : Job} (h : Held s) (hok : FromLatestClaim s op)
    (hreported : s.reported op = some job) : s.HoldsClaim job ∨
      (op.IsComplete ∧ ∃ row, s.queue.get job.jobId = some row ∧ row.status = .completed) := by
  obtain ⟨w, hw, -⟩ := reported_idle (fun _ _ => ⟨.ok (), []⟩) hreported
  obtain ⟨row, hrow, hle, hleased⟩ := h.row w job hw
  rcases hok job hreported row hrow with hlatest | ⟨hop, hdone⟩
  · have heq : job.attempts = row.attempts := by omega
    exact Or.inl ⟨row, hrow, hleased heq, heq.symm⟩
  · exact Or.inr ⟨hop, row, hrow, hdone⟩

theorem held_next (handler : Job → χ → Handling ε) (h : Held s) (hok : FromLatestClaim s op) :
    Held (s.next handler op) where
  row := by
    intro w job hstill
    rcases next_job hstill with hjob | ⟨l, now, row, -, -, rfl, hget⟩
    · obtain ⟨row, hrow, hle, hleased⟩ := h.row w job hjob
      obtain ⟨row', hrow', hchange⟩ := next_row handler hrow op
      refine ⟨row', hrow', ?_⟩
      cases hchange with
      | same => exact ⟨hle, hleased⟩
      | lease hidle hnext => exact ⟨Nat.le_succ_of_le hle, fun _ => rfl⟩
      | @complete w₀ job₀ hphase hid =>
        have hlt : job.attempts < row.attempts := attempts_lt_of_reported h hok
          (Runners.reported_complete hphase) hid hrow hjob hstill
        exact ⟨hle, fun heq => absurd heq (Nat.ne_of_lt hlt)⟩
      | @fail w₀ base job₀ seen message t hphase hid =>
        have hlt : job.attempts < row.attempts := attempts_lt_of_reported h hok
          (Runners.reported_failWrite hphase) hid hrow hjob hstill
        rw [failed_attempts]
        exact ⟨hle, fun heq => absurd heq (Nat.ne_of_lt hlt)⟩
    · exact ⟨_, hget, Nat.le_refl _, fun _ => rfl⟩
  alone := by
    intro w w' job job' hstill hstill' hid hattempts
    rcases next_job hstill with hjob | ⟨l, now, row, hop, hnext, rfl, -⟩
    · rcases next_job hstill' with hjob' | ⟨l, now, row, -, hnext, rfl, -⟩
      · exact h.alone w w' job job' hjob hjob' hid hattempts
      · exfalso
        exact new_claim_fresh h hjob hnext hid hattempts
    · rcases next_job hstill' with hjob' | ⟨l', now', row', hop', -⟩
      · exfalso
        exact new_claim_fresh h hjob' hnext hid.symm hattempts.symm
      · cases hop.symm.trans hop'
        rfl

theorem stale_next {job row : Job} (htidy : Tidy s) (hok : FromLatestClaim s op)
    (hreported : s.reported op = some job) (hrow : s.queue.get job.jobId = some row)
    (hstale : job.attempts < row.attempts) : (s.next handler op).queue = s.queue := by
  rcases hok job hreported row hrow with hlatest | ⟨hop, hdone⟩
  · omega
  · exact complete_repeated htidy hop hreported hrow hdone

theorem terminal_next {id : String} {row : Job} (hheld : Held s) (hok : FromLatestClaim s op)
    (hrow : s.queue.get id = some row) (hterminal : row.status.Terminal) :
    ∃ row', (s.next handler op).queue.get id = some row' ∧ row'.status = row.status := by
  have hnotLeased : row.status ≠ .leased := by
    intro hleased
    rw [hleased] at hterminal
    rcases hterminal with h | h <;> cases h
  have hid := Table.key_of_get hrow
  obtain ⟨row', hrow', hchange⟩ := next_row handler hrow op
  refine ⟨row', hrow', ?_⟩
  cases hchange with
  | same => rfl
  | lease hidle hnext =>
    exfalso
    rcases (nextJob_spec hnext).2 with h | h
    · rw [h] at hterminal
      rcases hterminal with h | h <;> cases h
    · exact hnotLeased h
  | @complete w job hphase hjob =>
    have hreported : s.reported (.complete w : RunnerOp χ) = some job :=
      Runners.reported_complete hphase
    have hget : s.queue.get job.jobId = some row := by rw [hjob, hid, hrow]
    rcases holdsClaim_of_latest hheld hok hreported with ⟨r, hr, hleased, -⟩ | ⟨-, r, hr, hdone⟩
    · obtain rfl : row = r := Option.some.inj (hget.symm.trans hr)
      exact absurd hleased hnotLeased
    · obtain rfl : row = r := Option.some.inj (hget.symm.trans hr)
      exact hdone.symm
  | @fail w base job seen message now hphase hjob =>
    exfalso
    have hreported : s.reported (.failWrite w base : RunnerOp χ) = some job :=
      Runners.reported_failWrite hphase
    have hget : s.queue.get job.jobId = some row := by rw [hjob, hid, hrow]
    rcases holdsClaim_of_latest hheld hok hreported with ⟨r, hr, hleased, -⟩ | ⟨hop, -⟩
    · obtain rfl : row = r := Option.some.inj (hget.symm.trans hr)
      exact hnotLeased hleased
    · exact hop

/-- The `n`-th claim of job `id` has been reported on, or there have been later ones. -/
def Settled (id : String) (n : Nat) (s : Runners ε) : Prop :=
  ∃ row, s.queue.get id = some row ∧
    (n < row.attempts ∨ (row.attempts = n ∧ row.status ≠ .leased))

theorem settled_next {id : String} {n : Nat} (handler : Job → χ → Handling ε) (s : Runners ε)
    (op : RunnerOp χ) (h : Settled id n s) : Settled id n (s.next handler op) := by
  obtain ⟨row, hrow, hsettled⟩ := h
  obtain ⟨row', hrow', hchange⟩ := next_row handler hrow op
  refine ⟨row', hrow', ?_⟩
  cases hchange with
  | same => exact hsettled
  | lease hidle hnext =>
    change n < row.attempts + 1 ∨ _
    omega
  | complete hphase hjob =>
    change n < row.attempts ∨ (row.attempts = n ∧ JobStatus.completed ≠ .leased)
    rcases hsettled with h | ⟨h, -⟩
    · exact Or.inl h
    · exact Or.inr ⟨h, nofun⟩
  | fail hphase hjob =>
    rw [failed_attempts]
    rcases hsettled with h | ⟨h, -⟩
    · exact Or.inl h
    · exact Or.inr ⟨h, failed_not_leased _ _ _ _ _⟩

theorem settled_of_effective {id : String} {n : Nat} (h : EffectiveReport handler s op id n) :
    Settled id n (s.next handler op) := by
  obtain ⟨job, row, hreported, -, hrow, hattempts, heffective⟩ := h
  obtain ⟨row', hrow', hchange⟩ := next_row handler hrow op
  refine ⟨row', hrow', ?_⟩
  cases hchange with
  | same => exact absurd hrow' heffective
  | lease hidle hnext => cases hreported
  | complete hphase hjob => exact Or.inr ⟨hattempts, nofun⟩
  | fail hphase hjob => exact Or.inr ⟨(failed_attempts ..).trans hattempts, failed_not_leased _ _ _ _ _⟩

theorem not_effective_of_settled {id : String} {n : Nat} (htidy : Tidy s) (hheld : Held s)
    (hok : FromLatestClaim s op) (h : Settled id n s) :
    ¬ EffectiveReport handler s op id n := by
  intro heff
  obtain ⟨job, row, hreported, rfl, hrow, hattempts, heffective⟩ := heff
  obtain ⟨row', hrow', hsettled⟩ := h
  obtain rfl : row = row' := Option.some.inj (hrow.symm.trans hrow')
  rcases holdsClaim_of_latest hheld hok hreported with ⟨r, hr, hleased, -⟩ | ⟨hop, r, hr, hdone⟩
  · obtain rfl : row = r := Option.some.inj (hrow.symm.trans hr)
    rcases hsettled with hlt | ⟨-, hstatus⟩
    · omega
    · exact hstatus hleased
  · rw [complete_repeated htidy hop hreported hr hdone] at heffective
    exact heffective hrow

end

section
variable {handler : Job → χ → Handling ε}

theorem tidy_after (ops : List (RunnerOp χ)) : Tidy (after handler ops) := by
  refine run_invariant (Runners.step handler) (fun s op h => tidy_next handler s op h) ?_ ops
  intro id row hrow
  cases hrow

theorem held_initial : Held (.initial : Runners ε) where
  row := by
    intro w job hjob
    cases hjob
  alone := by
    intro w w' job job' hjob
    cases hjob

theorem held_after {ops : List (RunnerOp χ)}
    (h : Admissible (Runners.step handler) FromLatestClaim .initial ops) :
    Held (after handler ops) :=
  run_guarded (Runners.step handler) (fun _ _ hs hok => held_next handler hs hok) held_initial h

/-- Where no worker reports on a job that was claimed again, reports are fenced. -/
theorem reports_fenced {ops : List (RunnerOp χ)}
    (h : Admissible (Runners.step handler) FromLatestClaim .initial ops) :
    Fenced handler ops where
  stale := by
    intro pre op post hops job row hreported hrow hstale
    rw [hops, admissible_append] at h
    exact stale_next (tidy_after pre) h.2.1 hreported hrow hstale
  terminal := by
    intro pre post hops id row hrow hterminal
    rw [hops, admissible_append] at h
    rw [hops, after, runState_append]
    have hrun := run_guarded (Runners.step handler) (P := fun s => Held s ∧
      ∃ row', s.queue.get id = some row' ∧ row'.status = row.status) ?_
      ⟨held_after h.1, row, hrow, rfl⟩ h.2
    · exact hrun.2
    intro s op hs hok
    obtain ⟨hheld, r, hr, hstatus⟩ := hs
    obtain ⟨r', hr', hstatus'⟩ := terminal_next hheld hok hr (hstatus ▸ hterminal)
    exact ⟨held_next handler hheld hok, r', hr', hstatus'.trans hstatus⟩
  single := by
    intro pre op₁ mid op₂ post hops id n hfirst
    rw [hops, ← List.cons_append, ← List.append_assoc, admissible_append] at h
    apply not_effective_of_settled (tidy_after _) (held_after h.1) h.2.1
    rw [after, runState_append, runState_cons]
    exact run_invariant (Runners.step handler) (fun s op hs => settled_next handler s op hs)
      (settled_of_effective hfirst) mid

end

def quietHandler : Job → Unit → Handling Unit := fun _ _ => ⟨.ok (), []⟩

def scanJob : NewJob :=
  { jobId := "scan-1", workflowId := "scan", kind := "scan", payload := [], notBefore := 0 }

/-- Worker 1 takes over a job that worker 0 is still busy with. -/
def takeover : List (RunnerOp Unit) :=
  [.enqueue scanJob, .claim 0 60 0, .claim 1 60 100, .handle 0 ()]

/-- Worker 1 completes the job, worker 0 repeats that. -/
theorem takeover_fenced :
    Fenced quietHandler (takeover ++ [.handle 1 (), .complete 1, .complete 0]) :=
  reports_fenced (by decide +kernel)

/-- The late worker's `complete` lands on the claim of worker 1. -/
theorem takeover_not_fenced : ¬ Fenced quietHandler (takeover ++ [.complete 0]) := by
  intro h
  have hqueue := h.stale takeover (.complete 0) [] rfl (scanJob.row.lease 60)
    ((scanJob.row.lease 60).lease 160) (by with_unfolding_all rfl) (by with_unfolding_all rfl)
    (by decide)
  have hstatus := congrArg (fun q => (q.get "scan-1").map Job.status) hqueue
  revert hstatus
  decide +kernel

end EngineeringIntelligence.Orchestration
