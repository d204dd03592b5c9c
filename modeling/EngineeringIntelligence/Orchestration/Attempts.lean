import EngineeringIntelligence.Framework.Run
import EngineeringIntelligence.Orchestration.Jobs

namespace EngineeringIntelligence.Orchestration

open EngineeringIntelligence.Framework

/-! How often a job is handed out. Any callers use the queue in any order; attempts are
counted by `claim`, and compared with their limit by `fail` alone. -/

/-- The queue, and for each caller inside `fail` the row it read. -/
structure QueueClients where
  queue : JobQueue
  failing : Nat → Option (Job × String × Rat)

inductive QueueOp where
  | enqueue (job : NewJob)
  | claim (leaseSeconds now : Rat)
  | complete (jobId : String)
  | failRead (caller : Nat) (jobId message : String) (now : Rat)
  | failWrite (caller : Nat) (base : Rat)

namespace QueueClients

def initial : QueueClients := ⟨Table.empty, fun _ => none⟩

/-- The new state, and the job a `claim` hands out. -/
def step (s : QueueClients) : QueueOp → QueueClients × Option Job
  | .enqueue job => ({ s with queue := s.queue.enqueue job }, none)
  | .claim leaseSeconds now =>
    let (queue, job) := s.queue.claim leaseSeconds now
    ({ s with queue := queue }, job)
  | .complete jobId => ({ s with queue := s.queue.complete jobId }, none)
  | .failRead c jobId message now =>
    match s.queue.get jobId with
    | none => (s, none)
    | some seen => ({ s with failing := Function.update s.failing c (some (seen, message, now)) }, none)
  | .failWrite c base =>
    match s.failing c with
    | none => (s, none)
    | some (seen, message, now) =>
      ({ queue := s.queue.writeFailure seen.jobId seen message base now
         failing := Function.update s.failing c none }, none)

end QueueClients

/-- The job has not had all its attempts. -/
def Job.AttemptsLeft (j : Job) : Prop := (j.attempts : Int) < j.maxAttempts

instance (j : Job) : Decidable j.AttemptsLeft := inferInstanceAs (Decidable (_ < _))

/-- Within a run from an empty queue, no job exceeds its attempts. -/
structure AttemptsBounded (ops : List QueueOp) : Prop where
  bounded : ∀ pre post, ops = pre ++ post → ∀ id row,
    (runState QueueClients.step .initial pre).queue.get id = some row →
    (row.attempts : Int) ≤ row.maxAttempts
  /-- a job with no attempts left is not handed out -/
  handedOut : ∀ pre leaseSeconds now post, ops = pre ++ .claim leaseSeconds now :: post →
    ∀ job, ((runState QueueClients.step .initial pre).step (.claim leaseSeconds now)).2 = some job →
    ∃ row, (runState QueueClients.step .initial pre).queue.get job.jobId = some row ∧
      row.AttemptsLeft

/-- Jobs are allowed one attempt at least, a lease that ran out is taken over only while
attempts are left, and `fail` does not put back a job that used up its attempts meanwhile. -/
def SparesExhausted (s : QueueClients) : QueueOp → Prop
  | .enqueue job => 0 < job.maxAttempts
  | .claim _ now => ∀ row ∈ s.queue.nextJob now, row.status = .leased → row.AttemptsLeft
  | .failWrite c _ => ∀ read ∈ s.failing c, ∀ row ∈ s.queue.get read.1.jobId,
      read.1.AttemptsLeft → row.AttemptsLeft
  | _ => True

instance (s : QueueClients) : (op : QueueOp) → Decidable (SparesExhausted s op)
  | .enqueue job => inferInstanceAs (Decidable (0 < job.maxAttempts))
  | .claim _ now => inferInstanceAs (Decidable (∀ row ∈ s.queue.nextJob now, _ → _))
  | .failWrite c _ => inferInstanceAs (Decidable (∀ read ∈ s.failing c, ∀ row ∈ _, _ → _))
  | .complete _ | .failRead .. => isTrue trivial

/-- A job on the queue has attempts left; one that is out may be on its last. -/
def Job.WithinAttempts (j : Job) : Prop :=
  (j.attempts : Int) ≤ j.maxAttempts ∧ (j.status = .queued → j.AttemptsLeft)

def RowsWithin (s : QueueClients) : Prop :=
  ∀ id row, s.queue.get id = some row → row.WithinAttempts

theorem attemptsLeft_of_next {s : QueueClients} {leaseSeconds now : Rat} {row : Job}
    (h : RowsWithin s) (hok : SparesExhausted s (.claim leaseSeconds now))
    (hnext : s.queue.nextJob now = some row) : row.AttemptsLeft := by
  obtain ⟨hrow, hstatus⟩ := nextJob_spec hnext
  rcases hstatus with hqueued | hleased
  · exact (h _ row hrow).2 hqueued
  · exact hok row hnext hleased

theorem within_lease {row : Job} (h : row.AttemptsLeft) (t : Rat) :
    (row.lease t).WithinAttempts := by
  have hattempts : ((row.lease t).attempts : Int) = row.attempts + 1 := rfl
  have hmax : (row.lease t).maxAttempts = row.maxAttempts := rfl
  unfold Job.AttemptsLeft at h
  refine ⟨by omega, ?_⟩
  intro hqueued
  cases hqueued

theorem within_failed {seen row : Job} (message : String) (base now : Rat)
    (h : row.WithinAttempts) (hok : seen.AttemptsLeft → row.AttemptsLeft) :
    (seen.failed message base now row).WithinAttempts := by
  unfold Job.failed
  split
  · refine ⟨h.1, ?_⟩
    intro hqueued
    cases hqueued
  · next hleft =>
    refine ⟨h.1, ?_⟩
    intro _
    exact hok (lt_of_not_ge hleft)

theorem within_step {s : QueueClients} {op : QueueOp} (h : RowsWithin s)
    (hok : SparesExhausted s op) : RowsWithin (s.step op).1 := by
  intro id row hrow
  cases op with
  | enqueue job =>
    refine Table.forall_insertOrIgnore h ?_ hrow
    refine ⟨Int.le_of_lt hok, ?_⟩
    intro _
    exact hok
  | claim leaseSeconds now =>
    cases hnext : s.queue.nextJob now with
    | none =>
      simp only [QueueClients.step, JobQueue.claim, hnext] at hrow
      exact h id row hrow
    | some job =>
      simp only [QueueClients.step, JobQueue.claim, hnext] at hrow
      have hleft := attemptsLeft_of_next h hok hnext
      refine Table.forall_update h ?_ hrow
      intro r hr _
      obtain rfl : job = r := Option.some.inj ((nextJob_spec hnext).1.symm.trans hr)
      exact within_lease hleft _
  | complete jobId =>
    change (s.queue.complete jobId).get id = some row at hrow
    refine Table.forall_update h ?_ hrow
    intro r _ hr
    refine ⟨hr.1, ?_⟩
    intro hqueued
    cases hqueued
  | failRead c jobId message now =>
    cases hget : s.queue.get jobId <;> simp only [QueueClients.step, hget] at hrow
    · exact h id row hrow
    · exact h id row hrow
  | failWrite c base =>
    cases hfailing : s.failing c with
    | none =>
      simp only [QueueClients.step, hfailing] at hrow
      exact h id row hrow
    | some read =>
      obtain ⟨seen, message, now⟩ := read
      simp only [QueueClients.step, hfailing] at hrow
      refine Table.forall_update h ?_ hrow
      intro r hr hwithin
      exact within_failed message base now hwithin (hok _ hfailing r hr)

theorem within_run {ops : List QueueOp}
    (h : Admissible QueueClients.step SparesExhausted .initial ops) :
    RowsWithin (runState QueueClients.step .initial ops) := by
  refine run_guarded QueueClients.step (fun _ _ hs hok => within_step hs hok) ?_ h
  intro id row hrow
  cases hrow

/-- Attempts stay within their limit where the limit is spared on the paths that skip it. -/
theorem attempts_bounded {ops : List QueueOp}
    (h : Admissible QueueClients.step SparesExhausted .initial ops) : AttemptsBounded ops where
  bounded := by
    intro pre post hops id row hrow
    rw [hops, admissible_append] at h
    exact (within_run h.1 id row hrow).1
  handedOut := by
    intro pre leaseSeconds now post hops job hjob
    rw [hops, admissible_append] at h
    cases hnext : (runState QueueClients.step .initial pre).queue.nextJob now with
    | none =>
      simp only [QueueClients.step, JobQueue.claim, hnext] at hjob
      cases hjob
    | some row =>
      simp only [QueueClients.step, JobQueue.claim, hnext] at hjob
      cases hjob
      exact ⟨row, (nextJob_spec hnext).1, attemptsLeft_of_next (within_run h.1) h.2.1 hnext⟩

def poisonJob : NewJob :=
  { jobId := "import-7", workflowId := "import", kind := "import", payload := [], maxAttempts := 2
    notBefore := 0 }

/-- The first worker dies, the second fails: the job is dead-lettered. -/
theorem poison_bounded : AttemptsBounded [.enqueue poisonJob, .claim 60 0, .claim 60 60,
    .failRead 0 "import-7" "ValueError: bad row" 61, .failWrite 0 5, .claim 60 1000] :=
  attempts_bounded (by decide +kernel)

/-- Workers that keep dying get the job for ever. -/
theorem poison_unbounded :
    ¬ AttemptsBounded [.enqueue poisonJob, .claim 60 0, .claim 60 60, .claim 60 120] := by
  intro h
  have hbound := h.bounded _ [] (List.append_nil _).symm "import-7"
    (((poisonJob.row.lease 60).lease 120).lease 180) (by with_unfolding_all rfl)
  revert hbound
  decide

end EngineeringIntelligence.Orchestration
