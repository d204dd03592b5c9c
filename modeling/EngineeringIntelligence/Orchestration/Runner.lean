import EngineeringIntelligence.Framework.Run
import EngineeringIntelligence.Orchestration.Jobs

namespace EngineeringIntelligence.Orchestration

open EngineeringIntelligence.Framework

/-! Any number of processes in `DurableRunner.run_once` over one queue. A worker claims,
handles, and reports; between any two of its transactions the others may act, its lease may
run out, or it may die. `claim` reads its row back after committing, which is left out: of
that row the runner and its handlers use only what never changes. -/

/-- One call of a job's handler: whether it raised, and what it did to the outside world. -/
structure Handling (ε : Type) where
  outcome : Except String Unit
  effects : List ε

/-- Where a worker stands in `run_once`. -/
inductive Phase where
  | idle
  | claimed (job : Job)
  | handled (job : Job) (outcome : Except String Unit)
  /-- inside `fail`, after reading the row -/
  | failing (job seen : Job) (message : String) (now : Rat)

/-- The job a worker has in its hands. -/
def Phase.job : Phase → Option Job
  | idle => none
  | claimed j => some j
  | handled j _ => some j
  | failing j _ _ _ => some j

structure Runners (ε : Type) where
  queue : JobQueue
  phase : Nat → Phase
  /-- what handlers did so far, with the job they did it for -/
  effects : List (String × ε)

/-- Steps of the system; `χ` is what the outside world answers to a handler. -/
inductive RunnerOp (χ : Type) where
  | enqueue (job : NewJob)
  | claim (worker : Nat) (leaseSeconds now : Rat)
  | handle (worker : Nat) (world : χ)
  | complete (worker : Nat)
  | failRead (worker : Nat) (now : Rat)
  | failWrite (worker : Nat) (base : Rat)
  | crash (worker : Nat)

namespace Runners

variable {ε χ : Type}

def initial : Runners ε := ⟨Table.empty, fun _ => .idle, []⟩

def setPhase (s : Runners ε) (w : Nat) (p : Phase) : Runners ε :=
  { s with phase := Function.update s.phase w p }

@[simp] theorem setPhase_queue (s : Runners ε) (w : Nat) (p : Phase) :
    (s.setPhase w p).queue = s.queue := rfl

@[simp] theorem setPhase_effects (s : Runners ε) (w : Nat) (p : Phase) :
    (s.setPhase w p).effects = s.effects := rfl

theorem setPhase_phase (s : Runners ε) (w w' : Nat) (p : Phase) :
    (s.setPhase w p).phase w' = if w' = w then p else s.phase w' := by
  simp [setPhase, Function.update_apply]

theorem setPhase_job {s : Runners ε} {w w' : Nat} {p : Phase} {job : Job}
    (h : ((s.setPhase w p).phase w').job = some job) :
    (w' = w ∧ p.job = some job) ∨ (s.phase w').job = some job := by
  rw [setPhase_phase] at h
  split at h
  · next hw => exact Or.inl ⟨hw, h⟩
  · exact Or.inr h

/-- A worker whose next transaction is not the one named stays where it is. -/
def next (handler : Job → χ → Handling ε) (s : Runners ε) : RunnerOp χ → Runners ε
  | .enqueue job => { s with queue := s.queue.enqueue job }
  | .claim w leaseSeconds now =>
    match s.phase w with
    | .idle =>
      match s.queue.claim leaseSeconds now with
      | (queue, some job) => { s with queue := queue }.setPhase w (.claimed job)
      | (_, none) => s
    | _ => s
  | .handle w world =>
    match s.phase w with
    | .claimed job =>
      let run := handler job world
      { s with effects := s.effects ++ run.effects.map (job.jobId, ·) }.setPhase w
        (.handled job run.outcome)
    | _ => s
  | .complete w =>
    match s.phase w with
    | .handled job (.ok _) =>
      { s with queue := s.queue.complete job.jobId }.setPhase w .idle
    | _ => s
  | .failRead w now =>
    match s.phase w with
    | .handled job (.error message) =>
      match s.queue.get job.jobId with
      | some seen => s.setPhase w (.failing job seen message now)
      | none => s.setPhase w .idle
    | _ => s
  | .failWrite w base =>
    match s.phase w with
    | .failing job seen message now =>
      { s with queue := s.queue.writeFailure job.jobId seen message base now }.setPhase w .idle
    | _ => s
  | .crash w => s.setPhase w .idle

def step (handler : Job → χ → Handling ε) (s : Runners ε) (op : RunnerOp χ) : Runners ε × Unit :=
  (s.next handler op, ())

/-- The job whose row a step reports on. -/
def reported (s : Runners ε) : RunnerOp χ → Option Job
  | .complete w =>
    match s.phase w with
    | .handled job (.ok _) => some job
    | _ => none
  | .failWrite w _ =>
    match s.phase w with
    | .failing job _ _ _ => some job
    | _ => none
  | _ => none

theorem reported_complete {s : Runners ε} {w : Nat} {job : Job}
    (h : s.phase w = .handled job (.ok ())) :
    s.reported (.complete w : RunnerOp χ) = some job := by
  simp only [reported, h]

theorem reported_failWrite {s : Runners ε} {w : Nat} {base now : Rat} {job seen : Job}
    {message : String} (h : s.phase w = .failing job seen message now) :
    s.reported (.failWrite w base : RunnerOp χ) = some job := by
  simp only [reported, h]

end Runners

/-! What a step can do to one row. -/

section
variable {ε χ : Type} {handler : Job → χ → Handling ε} {s : Runners ε}

/-- Every way a step changes the system. -/
inductive Change (handler : Job → χ → Handling ε) (s : Runners ε) :
    RunnerOp χ → Runners ε → Prop
  | stay {op} (h : s.reported op = none) : Change handler s op s
  | enqueue (job) : Change handler s (.enqueue job) { s with queue := s.queue.enqueue job }
  | claim {w leaseSeconds now job} (hidle : s.phase w = .idle)
      (hnext : s.queue.nextJob now = some job) :
      Change handler s (.claim w leaseSeconds now)
        ({ s with queue := s.queue.lease job.jobId (now + leaseSeconds) }.setPhase w
          (.claimed (job.lease (now + leaseSeconds))))
  | handle {w world job} (hphase : s.phase w = .claimed job) :
      Change handler s (.handle w world)
        ({ s with effects := s.effects ++ (handler job world).effects.map (job.jobId, ·) }.setPhase w
          (.handled job (handler job world).outcome))
  | complete {w job} (hphase : s.phase w = .handled job (.ok ())) :
      Change handler s (.complete w)
        ({ s with queue := s.queue.complete job.jobId }.setPhase w .idle)
  | failRead {w now job message seen} (hphase : s.phase w = .handled job (.error message))
      (hseen : s.queue.get job.jobId = some seen) :
      Change handler s (.failRead w now) (s.setPhase w (.failing job seen message now))
  | failWrite {w base job seen message now} (hphase : s.phase w = .failing job seen message now) :
      Change handler s (.failWrite w base)
        ({ s with queue := s.queue.writeFailure job.jobId seen message base now }.setPhase w .idle)
  | drop {op w} (h : s.reported op = none) : Change handler s op (s.setPhase w .idle)

theorem next_change (handler : Job → χ → Handling ε) (s : Runners ε) (op : RunnerOp χ) :
    Change handler s op (s.next handler op) := by
  cases op with
  | enqueue job => exact .enqueue job
  | claim w leaseSeconds now =>
    cases hphase : s.phase w <;> simp only [Runners.next, hphase]
    case idle =>
      cases hnext : s.queue.nextJob now with
      | none =>
        simp only [JobQueue.claim, hnext]
        exact .stay rfl
      | some job =>
        simp only [JobQueue.claim, hnext]
        exact .claim hphase hnext
    all_goals exact .stay rfl
  | handle w world =>
    cases hphase : s.phase w <;> simp only [Runners.next, hphase]
    case claimed j => exact .handle hphase
    all_goals exact .stay rfl
  | complete w =>
    cases hphase : s.phase w <;> simp only [Runners.next, hphase]
    case handled j outcome =>
      cases outcome with
      | ok u => exact .complete hphase
      | error m => exact .stay (by simp [Runners.reported, hphase])
    all_goals exact .stay (by simp [Runners.reported, hphase])
  | failRead w now =>
    cases hphase : s.phase w <;> simp only [Runners.next, hphase]
    case handled j outcome =>
      cases outcome with
      | ok u => exact .stay rfl
      | error m =>
        cases hseen : s.queue.get j.jobId with
        | none =>
          simp only [hseen]
          exact .drop rfl
        | some seen =>
          simp only [hseen]
          exact .failRead hphase hseen
    all_goals exact .stay rfl
  | failWrite w base =>
    cases hphase : s.phase w <;> simp only [Runners.next, hphase]
    case failing j seen m t => exact .failWrite hphase
    all_goals exact .stay (by simp [Runners.reported, hphase])
  | crash w => exact .drop rfl

/-- A worker got the job in its hands earlier, or claims it in this step. -/
theorem next_job {op : RunnerOp χ} {w : Nat} {job : Job}
    (h : ((s.next handler op).phase w).job = some job) :
    (s.phase w).job = some job ∨ ∃ leaseSeconds now row, op = .claim w leaseSeconds now ∧
      s.queue.nextJob now = some row ∧ job = row.lease (now + leaseSeconds) ∧
      (s.next handler op).queue.get job.jobId = some job := by
  generalize hnext : s.next handler op = s' at h ⊢
  have hchange := hnext ▸ next_change handler s op
  cases hchange with
  | stay hr => exact Or.inl h
  | enqueue j => exact Or.inl h
  | claim hidle hclaim =>
    rcases Runners.setPhase_job h with ⟨rfl, hjob⟩ | hold
    · cases hjob
      refine Or.inr ⟨_, _, _, rfl, hclaim, rfl, ?_⟩
      rw [Runners.setPhase_queue, JobQueue.get_lease]
      exact (if_pos rfl).trans (congrArg (Option.map _) (nextJob_spec hclaim).1)
    · exact Or.inl hold
  | handle hphase =>
    rcases Runners.setPhase_job h with ⟨rfl, hjob⟩ | hold
    · rw [hphase]
      exact Or.inl hjob
    · exact Or.inl hold
  | failRead hphase hseen =>
    rcases Runners.setPhase_job h with ⟨rfl, hjob⟩ | hold
    · rw [hphase]
      exact Or.inl hjob
    · exact Or.inl hold
  | complete hphase | failWrite hphase | drop hr =>
    rcases Runners.setPhase_job h with ⟨-, hjob⟩ | hold
    · cases hjob
    · exact Or.inl hold

/-- The worker that reports is left without a job. -/
theorem reported_idle (handler : Job → χ → Handling ε) {op : RunnerOp χ} {job : Job}
    (h : s.reported op = some job) :
    ∃ w, (s.phase w).job = some job ∧ ((s.next handler op).phase w).job = none := by
  cases op with
  | complete w =>
    refine ⟨w, ?_⟩
    cases hphase : s.phase w <;> simp only [Runners.reported, hphase] at h
    case handled j outcome =>
      cases outcome with
      | error m => cases h
      | ok u =>
        cases h
        refine ⟨rfl, ?_⟩
        simp [Runners.next, hphase, Runners.setPhase_phase, Phase.job]
    all_goals cases h
  | failWrite w base =>
    refine ⟨w, ?_⟩
    cases hphase : s.phase w <;> simp only [Runners.reported, hphase] at h
    case failing j seen m t =>
      cases h
      refine ⟨rfl, ?_⟩
      simp [Runners.next, hphase, Runners.setPhase_phase, Phase.job]
    all_goals cases h
  | enqueue j => cases h
  | claim w l t => cases h
  | handle w x => cases h
  | failRead w t => cases h
  | crash w => cases h

/-- Every way a step changes one row. -/
inductive RowChange (s : Runners ε) (row : Job) : RunnerOp χ → Job → Prop
  | same {op} : RowChange s row op row
  | lease {w leaseSeconds now} (hidle : s.phase w = .idle)
      (hnext : s.queue.nextJob now = some row) :
      RowChange s row (.claim w leaseSeconds now) (row.lease (now + leaseSeconds))
  | complete {w job} (hphase : s.phase w = .handled job (.ok ())) (hjob : job.jobId = row.jobId) :
      RowChange s row (.complete w) row.completed
  | fail {w base job seen message now} (hphase : s.phase w = .failing job seen message now)
      (hjob : job.jobId = row.jobId) :
      RowChange s row (.failWrite w base) (seen.failed message base now row)

theorem next_row (handler : Job → χ → Handling ε) {id : String} {row : Job}
    (h : s.queue.get id = some row) (op : RunnerOp χ) :
    ∃ row', (s.next handler op).queue.get id = some row' ∧ RowChange s row op row' := by
  have hid := Table.key_of_get h
  generalize hnext : s.next handler op = s'
  have hchange := hnext ▸ next_change handler s op
  cases hchange with
  | stay hr => exact ⟨row, h, .same⟩
  | enqueue job =>
    refine ⟨row, ?_, .same⟩
    rw [JobQueue.get_enqueue, h]
    split <;> rfl
  | @claim w leaseSeconds now job hidle hjob =>
    rw [Runners.setPhase_queue, JobQueue.get_lease, h]
    split
    · next hk =>
      subst hk
      obtain ⟨hget, -⟩ := nextJob_spec hjob
      obtain rfl : job = row := Option.some.inj (hget.symm.trans h)
      exact ⟨_, rfl, .lease hidle hjob⟩
    · exact ⟨row, rfl, .same⟩
  | handle hphase => exact ⟨row, h, .same⟩
  | @complete w job hphase =>
    rw [Runners.setPhase_queue, JobQueue.get_complete, h]
    split
    · next hk => exact ⟨_, rfl, .complete hphase (hk.symm.trans hid.symm)⟩
    · exact ⟨row, rfl, .same⟩
  | failRead hphase hseen => exact ⟨row, h, .same⟩
  | @failWrite w base job seen message now hphase =>
    rw [Runners.setPhase_queue, JobQueue.get_writeFailure, h]
    split
    · next hk => exact ⟨_, rfl, .fail hphase (hk.symm.trans hid.symm)⟩
    · exact ⟨row, rfl, .same⟩
  | drop hr => exact ⟨row, h, .same⟩

/-- A row that was not there before has just been put on the queue. -/
theorem next_new_row {id : String} {row : Job} {op : RunnerOp χ}
    (h : s.queue.get id = none) (hnew : (s.next handler op).queue.get id = some row) :
    ∃ job : NewJob, op = .enqueue job ∧ row = job.row := by
  generalize hnext : s.next handler op = s' at hnew
  have hchange := hnext ▸ next_change handler s op
  cases hchange with
  | stay hr => simp [h] at hnew
  | enqueue job =>
    rw [JobQueue.get_enqueue, h] at hnew
    split at hnew
    · cases hnew
      exact ⟨job, rfl, rfl⟩
    · cases hnew
  | claim hidle hjob =>
    rw [Runners.setPhase_queue, JobQueue.get_lease, h] at hnew
    split at hnew <;> cases hnew
  | handle hphase => simp [h] at hnew
  | complete hphase =>
    rw [Runners.setPhase_queue, JobQueue.get_complete, h] at hnew
    split at hnew <;> cases hnew
  | failRead hphase hseen => simp [h] at hnew
  | failWrite hphase =>
    rw [Runners.setPhase_queue, JobQueue.get_writeFailure, h] at hnew
    split at hnew <;> cases hnew
  | drop hr => simp [h] at hnew

/-- The invariant rule for facts about single rows. -/
theorem rows_next {P : Job → Prop} {op : RunnerOp χ}
    (h : ∀ id row, s.queue.get id = some row → P row)
    (hnew : ∀ job, op = .enqueue job → P job.row)
    (hold : ∀ id row row', s.queue.get id = some row → P row → RowChange s row op row' → P row')
    {id : String} {row : Job} (hrow : (s.next handler op).queue.get id = some row) : P row := by
  cases hget : s.queue.get id with
  | none =>
    obtain ⟨job, hop, rfl⟩ := next_new_row hget hrow
    exact hnew job hop
  | some old =>
    obtain ⟨row', hrow', hchange⟩ := next_row handler hget op
    obtain rfl : row' = row := Option.some.inj (hrow'.symm.trans hrow)
    exact hold id old row' hget (h id old hget) hchange

end

end EngineeringIntelligence.Orchestration
