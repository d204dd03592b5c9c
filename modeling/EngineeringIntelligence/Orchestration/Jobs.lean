import Mathlib.Data.Rat.Defs
import EngineeringIntelligence.Framework.Json
import EngineeringIntelligence.Framework.Table

namespace EngineeringIntelligence.Orchestration

open EngineeringIntelligence.Framework

/-! `SqliteJobQueue`: every method is one transaction, except `fail`, which reads the row in
one and writes it in another. Clock readings are known by their exact values. -/

inductive JobStatus where
  | queued
  | leased
  | completed
  | deadLetter
  deriving DecidableEq, Repr

def JobStatus.Terminal (s : JobStatus) : Prop := s = completed ∨ s = deadLetter

instance (s : JobStatus) : Decidable s.Terminal := inferInstanceAs (Decidable (_ ∨ _))

structure Job where
  jobId : String
  workflowId : String
  kind : String
  payload : List (String × Json)
  status : JobStatus
  attempts : Nat
  maxAttempts : Int
  notBefore : Rat
  leaseUntil : Option Rat
  lastError : Option String

abbrev JobQueue := Table Job.jobId

/-- A job as it is put on the queue. -/
structure NewJob where
  jobId : String
  workflowId : String
  kind : String
  payload : List (String × Json)
  maxAttempts : Int := 5
  notBefore : Rat

def NewJob.row (j : NewJob) : Job :=
  { jobId := j.jobId, workflowId := j.workflowId, kind := j.kind, payload := j.payload
    status := .queued, attempts := 0, maxAttempts := j.maxAttempts, notBefore := j.notBefore
    leaseUntil := none, lastError := none }

/-- The row `claim` may take at `now`: queued, or leased with the lease run out. -/
def Job.claimable (now : Rat) (j : Job) : Bool :=
  (j.status = .queued || j.status = .leased) && j.notBefore ≤ now &&
    (j.status = .queued || (j.leaseUntil.map fun t => decide (t ≤ now)).getD true)

/-- `ORDER BY not_before, job_id`. -/
def Job.before (a b : Job) : Bool :=
  a.notBefore < b.notBefore || (a.notBefore = b.notBefore && a.jobId ≤ b.jobId)

def earliest : List Job → Option Job
  | [] => none
  | j :: js =>
    match earliest js with
    | none => some j
    | some k => if j.before k then some j else some k

def Job.lease (leaseUntil : Rat) (j : Job) : Job :=
  { j with status := .leased, attempts := j.attempts + 1, leaseUntil := some leaseUntil }

def Job.completed (j : Job) : Job :=
  { j with status := .completed, leaseUntil := none, lastError := none }

def backoff (base : Rat) (attempts : Nat) : Rat := base * 2 ^ (attempts - 1)

/-- What `fail` writes over a row, decided on the row `seen` it read before. -/
def Job.failed (seen : Job) (message : String) (base now : Rat) (j : Job) : Job :=
  if seen.maxAttempts ≤ seen.attempts then
    { j with status := .deadLetter, notBefore := now, leaseUntil := none
             lastError := some message }
  else
    { j with status := .queued, notBefore := now + backoff base seen.attempts, leaseUntil := none
             lastError := some message }

namespace JobQueue

def enqueue (q : JobQueue) (j : NewJob) : JobQueue := q.insertOrIgnore j.row

/-- The row the next `claim` takes. -/
def nextJob (q : JobQueue) (now : Rat) : Option Job := earliest (q.rows.filter (Job.claimable now))

def lease (q : JobQueue) (jobId : String) (leaseUntil : Rat) : JobQueue :=
  q.update jobId (Job.lease leaseUntil) (fun _ => rfl)

def claim (q : JobQueue) (leaseSeconds now : Rat) : JobQueue × Option Job :=
  match q.nextJob now with
  | none => (q, none)
  | some j => (q.lease j.jobId (now + leaseSeconds), some (j.lease (now + leaseSeconds)))

def complete (q : JobQueue) (jobId : String) : JobQueue :=
  q.update jobId Job.completed (fun _ => rfl)

theorem failed_jobId (seen : Job) (message : String) (base now : Rat) (j : Job) :
    (seen.failed message base now j).jobId = j.jobId := by
  unfold Job.failed
  split <;> rfl

/-- The writing half of `fail`. -/
def writeFailure (q : JobQueue) (jobId : String) (seen : Job) (message : String)
    (base now : Rat) : JobQueue :=
  q.update jobId (seen.failed message base now) (failed_jobId seen message base now)

theorem get_enqueue (q : JobQueue) (j : NewJob) (id : String) :
    (q.enqueue j).get id = if id = j.jobId then some ((q.get id).getD j.row) else q.get id :=
  Table.get_insertOrIgnore q j.row id

theorem get_lease (q : JobQueue) (jobId id : String) (leaseUntil : Rat) :
    (q.lease jobId leaseUntil).get id =
      if id = jobId then (q.get id).map (Job.lease leaseUntil) else q.get id :=
  Table.get_update q jobId id _ _

theorem get_complete (q : JobQueue) (jobId id : String) :
    (q.complete jobId).get id = if id = jobId then (q.get id).map Job.completed else q.get id :=
  Table.get_update q jobId id _ _

theorem get_writeFailure (q : JobQueue) (jobId id : String) (seen : Job) (message : String)
    (base now : Rat) :
    (q.writeFailure jobId seen message base now).get id =
      if id = jobId then (q.get id).map (seen.failed message base now) else q.get id :=
  Table.get_update q jobId id _ _

end JobQueue

theorem failed_status (seen : Job) (message : String) (base now : Rat) (row : Job) :
    (seen.failed message base now row).status =
      if seen.maxAttempts ≤ seen.attempts then .deadLetter else .queued := by
  unfold Job.failed
  split <;> rfl

theorem failed_attempts (seen : Job) (message : String) (base now : Rat) (row : Job) :
    (seen.failed message base now row).attempts = row.attempts := by
  unfold Job.failed
  split <;> rfl

theorem failed_not_leased (seen : Job) (message : String) (base now : Rat) (row : Job) :
    (seen.failed message base now row).status ≠ .leased := by
  rw [failed_status]
  split <;> exact nofun

theorem earliest_mem {js : List Job} {j : Job} (h : earliest js = some j) : j ∈ js := by
  induction js generalizing j with
  | nil => cases h
  | cons k ks ih =>
    unfold earliest at h
    cases hks : earliest ks with
    | none =>
      rw [hks] at h
      cases h
      exact List.mem_cons_self
    | some m =>
      simp only [hks] at h
      split at h
      · cases h
        exact List.mem_cons_self
      · cases h
        exact List.mem_cons_of_mem _ (ih hks)

/-- A job that is handed out is in the table and was queued or leased. -/
theorem nextJob_spec {q : JobQueue} {now : Rat} {j : Job} (h : q.nextJob now = some j) :
    q.get j.jobId = some j ∧ (j.status = .queued ∨ j.status = .leased) := by
  obtain ⟨hmem, hclaimable⟩ := List.mem_filter.mp (earliest_mem h)
  refine ⟨Table.get_of_mem hmem, ?_⟩
  simp only [Job.claimable, Bool.and_eq_true, Bool.or_eq_true, decide_eq_true_eq] at hclaimable
  exact hclaimable.1.1

end EngineeringIntelligence.Orchestration
