import Mathlib.Algebra.Group.Nat.Defs
import EngineeringIntelligence.ControlPlane.Remediation
import EngineeringIntelligence.Framework.Fallible
import EngineeringIntelligence.Orchestration.OnceOnly
import EngineeringIntelligence.Remediation.ExecutionSafety

namespace EngineeringIntelligence.Product

open EngineeringIntelligence.Framework EngineeringIntelligence.Orchestration
open EngineeringIntelligence.Remediation
open EngineeringIntelligence.ControlPlane (RemediationTerminalStatus)

/-! `DurableSelfHealingCoordinator.handle_job` behind a `DurableRunner`. -/

/-- A call that handling a job made on one of the coordinator's adapters. -/
inductive RemediationEffect where
  | sandbox (call : AdapterCall)
  | production (call : AdapterCall)
  deriving DecidableEq, Repr

def RemediationEffect.isExecution : RemediationEffect → Bool
  | production call => call.isExecute
  | sandbox _ => false

/-- What stays the same over all jobs. -/
structure Coordinator where
  catalog : RunbookCatalog
  policy : ServiceAutonomy

/-- What one call of `handle_job` meets outside: the adapters as they behave during it, the
environment, the clock at its two control loops, and how `finish` answers. -/
structure JobWorld where
  sandboxAdapter : ActionAdapter
  adapter : ActionAdapter
  environ : String → Option String := fun _ => none
  simulatedAt : Moment
  executedAt : Moment
  finish : String → RemediationTerminalStatus → Option String → Option String →
    Except PyException Unit

def jobKind : String := "certified-remediation"

def fieldError (field expected : String) : PyException :=
  ⟨"ValueError", "durable remediation job field '" ++ field ++ "' must be a " ++ expected⟩

def requiredText (payload : List (String × Json)) (field : String) : Except PyException String :=
  match Json.get payload field with
  | .str s => if strip s = "" then .error (fieldError field "non-blank string") else .ok s
  | _ => .error (fieldError field "non-blank string")

def requiredPositiveInt (payload : List (String × Json)) (field : String) :
    Except PyException Int :=
  match Json.get payload field with
  | .int n => if n < 1 then .error (fieldError field "positive integer") else .ok n
  | _ => .error (fieldError field "positive integer")

/-- `float(n)`, which fails from the first integer that rounds past the largest float. -/
def floatOfInt (n : Int) : Except PyException PyFloat :=
  if n.natAbs < 2 ^ 1024 - 2 ^ 970 then .ok (.finite n)
  else .error ⟨"OverflowError", "int too large to convert to float"⟩

def nonNegativeFloat (value : Json) (field : String) : Except PyException PyFloat := do
  let result ← match value with
    | .int n => floatOfInt n
    | .float repr => .ok (.ofRepr repr)
    | _ => .error (fieldError field "non-negative number")
  match result with
  | .finite q => if q < 0 then .error (fieldError field "non-negative number") else .ok (.finite q)
  | _ => .error (fieldError field "non-negative number")

/-- The request a job stands for. -/
def jobRequest (job : Job) : Except PyException ActionRequest := do
  let service ← requiredText job.payload "service"
  let environment ← requiredText job.payload "environment"
  let runbookId ← requiredText job.payload "runbook_id"
  let blastRadius ← requiredPositiveInt job.payload "blast_radius"
  let errorBudgetRemaining ← nonNegativeFloat
    ((job.payload.lookup "error_budget_remaining").getD (.float "1.0")) "error_budget_remaining"
  .ok { service := service, environment := environment, runbookId := runbookId
        blastRadius := blastRadius, approvalToken := some ("verified:" ++ job.workflowId)
        errorBudgetRemaining := errorBudgetRemaining }

/-- `_terminal_status`. -/
def terminalStatus : ExecutionStatus → Except PyException RemediationTerminalStatus
  | .blocked => .ok .blocked
  | .denied => .ok .denied
  | .succeeded => .ok .succeeded
  | .rolledBack => .ok .rolledBack
  | .escalate => .ok .escalate
  | .deferred => .error ⟨"ValueError", "unknown remediation execution status: 'deferred'"⟩

/-- `safe_to_promote` of a simulation that ended with `result`. -/
def safeToPromote (result : ExecutionResult) : Bool :=
  result.status = .succeeded && result.verified

section
variable (sha256 repr : String → String) (coordinator : Coordinator)

/-- How both control loops of `handle_job` are called. -/
def loopCall (request : ActionRequest) (adapter : ActionAdapter) (now : Moment)
    (environ : String → Option String) : ControlLoopCall where
  catalog := coordinator.catalog
  policy := coordinator.policy
  request := request
  adapter := adapter
  approvalVerified := true
  now := now
  environ := environ

/-- What a control loop raises: the catalog's `KeyError`, whose text is quoted, or a
misconfigured control plane. -/
def loopException (request : ActionRequest) (message : String) : PyException :=
  if (coordinator.catalog.get request.runbookId).isNone then ⟨"KeyError", repr message⟩
  else ⟨"ControlPlaneConfigurationError", message⟩

/-- `handle_job` on a request that was read, with the calls it makes. -/
def handleRequest (job : Job) (request : ActionRequest) (world : JobWorld) :
    Except PyException ExecutionResult × List RemediationEffect :=
  let simulation := executeControlLoop sha256
    (loopCall coordinator request world.sandboxAdapter world.simulatedAt world.environ)
  let simulated := (callsOf simulation.log).map .sandbox
  match simulation.result with
  | .error m => (.error (loopException repr coordinator request m), simulated)
  | .ok dryRun =>
    if !safeToPromote dryRun then
      (.error ⟨"RuntimeError", "sandbox verification failed; production promotion blocked"⟩,
        simulated)
    else
      let execution := executeControlLoop sha256
        (loopCall coordinator request world.adapter world.executedAt world.environ)
      let calls := simulated ++ (callsOf execution.log).map .production
      match execution.result with
      | .error m => (.error (loopException repr coordinator request m), calls)
      | .ok result =>
        (do
          let status ← terminalStatus result.status
          world.finish job.workflowId status result.executionRef result.rollbackRef
          pure result,
         calls)

/-- `handle_job`. -/
def handleJob (job : Job) (world : JobWorld) :
    Except PyException ExecutionResult × List RemediationEffect :=
  if job.kind ≠ jobKind then (.error ⟨"ValueError", "unexpected remediation job kind"⟩, [])
  else
    match Json.get job.payload "approval_verified" with
    | .bool true =>
      match jobRequest job with
      | .error e => (.error e, [])
      | .ok request => handleRequest sha256 repr coordinator job request world
    | _ => (.error ⟨"PermissionError",
        "durable remediation job was not created from a verified approval"⟩, [])

/-- What `run_once` does with a job, where `handle_job` is the one handler registered. -/
def runHandler (job : Job) (world : JobWorld) : Handling RemediationEffect :=
  if job.kind = jobKind then
    let (result, calls) := handleJob sha256 repr coordinator job world
    ⟨match result with
      | .ok _ => .ok ()
      | .error e => .error e.describe, calls⟩
  else
    ⟨.error ("KeyError: " ++ repr ("no handler registered for job kind " ++ job.kind)), []⟩

/-- The adapter's `execute` is called at most once for each job, in every state of a run. -/
def ExecutesOnce (ops : List (RunnerOp JobWorld)) : Prop :=
  ∀ pre post, ops = pre ++ post → ∀ jobId,
    (runState (Runners.step (runHandler sha256 repr coordinator)) .initial pre).done
      RemediationEffect.isExecution jobId ≤ 1

end

section
variable (sha256 repr : String → String) (coordinator : Coordinator)

theorem countP_sandbox (calls : List AdapterCall) :
    (calls.map RemediationEffect.sandbox).countP RemediationEffect.isExecution = 0 := by
  rw [List.countP_map, List.countP_eq_zero]
  intro call _
  exact Bool.false_ne_true

theorem countP_production (calls : List AdapterCall) :
    (calls.map RemediationEffect.production).countP RemediationEffect.isExecution =
      calls.countP AdapterCall.isExecute := by
  rw [List.countP_map]
  rfl

/-- One handling of a job executes at most once. -/
theorem handleRequest_executions (job : Job) (request : ActionRequest) (world : JobWorld) :
    (handleRequest sha256 repr coordinator job request world).2.countP
      RemediationEffect.isExecution ≤ 1 := by
  have hexecuted : executions (executeControlLoop sha256
      (loopCall coordinator request world.adapter world.executedAt world.environ)).log ≤ 1 :=
    executions_loop sha256 rfl
  unfold handleRequest
  dsimp only
  split
  · rw [countP_sandbox]
    exact Nat.zero_le 1
  · split
    · rw [countP_sandbox]
      exact Nat.zero_le 1
    · split
      · rw [List.countP_append, countP_sandbox, countP_production, Nat.zero_add]
        exact hexecuted
      · rw [List.countP_append, countP_sandbox, countP_production, Nat.zero_add]
        exact hexecuted

theorem runHandler_executions (job : Job) (world : JobWorld) :
    (runHandler sha256 repr coordinator job world).effects.countP RemediationEffect.isExecution ≤
      1 := by
  unfold runHandler handleJob
  split
  · next hkind =>
    simp only [hkind, ne_eq, not_true_eq_false, if_false]
    split
    · split
      · exact Nat.zero_le 1
      · exact handleRequest_executions sha256 repr coordinator job _ world
    · exact Nat.zero_le 1
  · exact Nat.zero_le 1

end

section
variable {sha256 repr : String → String} {coordinator : Coordinator}

/-- A job executes once where it is never delivered again after it did. -/
theorem executes_once {ops : List (RunnerOp JobWorld)}
    (h : Admissible (Runners.step (runHandler sha256 repr coordinator))
      (SparesDone RemediationEffect.isExecution) .initial ops) :
    ExecutesOnce sha256 repr coordinator ops := by
  intro pre post hops jobId
  rw [hops, admissible_append] at h
  exact (once_run (runHandler_executions sha256 repr coordinator) h.1).once jobId

end

def restartCoordinator : Coordinator :=
  ⟨(restartCall .approveAndExecute true "off").catalog,
    (restartCall .approveAndExecute true "off").policy⟩

/-- Adapters whose every step goes well, and a `finish` that answers as given. -/
def calmWorld (finish : Except PyException Unit) : JobWorld where
  sandboxAdapter := (restartCall .approveAndExecute true "off").adapter
  adapter := (restartCall .approveAndExecute true "off").adapter
  simulatedAt := (restartCall .approveAndExecute true "off").now
  executedAt := (restartCall .approveAndExecute true "off").now
  finish := fun _ _ _ _ => finish

/-- `repr` of a text without quotes or escapes. -/
def plainRepr (text : String) : String := "'" ++ text ++ "'"

/-- The job of an approved restart. -/
def restartJob : NewJob where
  jobId := "remediation:INC-7:sha256:0c94ae2655acc7c20480f24c10a76c82ff24b7bdad1820aedf16351c2a0064a4"
  workflowId := "remediation:INC-7"
  kind := jobKind
  payload := [("approval_verified", .bool true), ("blast_radius", .int 1),
    ("environment", .str "prod"), ("error_budget_remaining", .float "1.0"),
    ("runbook_id", .str "aks.restart.workload"), ("service", .str "checkout")]
  notBefore := 0

def restartStep := Runners.step (runHandler restartScopeSha256 plainRepr restartCoordinator)

theorem restart_executes_once :
    (runState restartStep .initial
      [.enqueue restartJob, .claim 0 60 0, .handle 0 (calmWorld (.ok ())), .complete 0]).done
        RemediationEffect.isExecution restartJob.jobId = 1 ∧
      ExecutesOnce restartScopeSha256 plainRepr restartCoordinator
        [.enqueue restartJob, .claim 0 60 0, .handle 0 (calmWorld (.ok ())), .complete 0] := by
  refine ⟨by decide, executes_once ⟨trivial, ?_, trivial, trivial, trivial⟩⟩
  intro row hrow hleased
  exfalso
  have hqueued : ((restartStep .initial (.enqueue restartJob)).1.queue.nextJob 0).map Job.status =
      some .queued := by
    decide
  have hrow : (restartStep .initial (.enqueue restartJob)).1.queue.nextJob 0 = some row := hrow
  rw [hrow, Option.map_some, hleased] at hqueued
  cases hqueued

/-- A second worker executes again: after the first died before it could complete the job, and
after `finish` could not record the first execution. -/
theorem restart_executes_twice :
    ¬ ExecutesOnce restartScopeSha256 plainRepr restartCoordinator
      [.enqueue restartJob, .claim 0 60 0, .handle 0 (calmWorld (.ok ())), .crash 0,
        .claim 1 60 60, .handle 1 (calmWorld (.ok ()))] ∧
    ¬ ExecutesOnce restartScopeSha256 plainRepr restartCoordinator
      [.enqueue restartJob, .claim 0 60 0,
        .handle 0 (calmWorld (.error ⟨"OperationalError", "database is locked"⟩)),
        .failRead 0 1, .failWrite 0 5, .claim 1 60 6, .handle 1 (calmWorld (.ok ()))] := by
  refine And.imp (mt fun h => h _ [] (List.append_nil _).symm restartJob.jobId)
    (mt fun h => h _ [] (List.append_nil _).symm restartJob.jobId) ?_
  decide +kernel

end EngineeringIntelligence.Product
