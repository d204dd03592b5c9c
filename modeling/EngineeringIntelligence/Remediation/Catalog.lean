import Mathlib.Data.List.Basic
import Mathlib.Data.List.Nodup

namespace EngineeringIntelligence.Remediation

inductive AutonomyLevel where
  | observe
  | recommend
  | humanExecute
  | approveAndExecute
  | boundedAutonomous
  deriving DecidableEq, Repr

namespace AutonomyLevel

def value : AutonomyLevel → Int
  | observe => 0
  | recommend => 1
  | humanExecute => 2
  | approveAndExecute => 3
  | boundedAutonomous => 4

/-- `AutonomyLevel(n)`; `none` is its `ValueError`. -/
def ofValue (n : Int) : Option AutonomyLevel :=
  [observe, recommend, humanExecute, approveAndExecute, boundedAutonomous].find? (·.value = n)

end AutonomyLevel

structure Runbook where
  id : String
  description : String
  environments : List String
  maxBlastRadius : Int
  reversible : Bool
  requiredLevel : AutonomyLevel
  verifySignal : String
  rollbackId : Option String := none
  failureClass : String := "generic"
  preconditions : List String := []
  postconditions : List String := []
  idempotencyScope : String := "durable-workflow"
  deriving DecidableEq, Repr

/-- What `register` asks of a runbook that may run in production by itself. -/
def Runbook.registrationError (r : Runbook) : Option String :=
  if r.requiredLevel.value < AutonomyLevel.approveAndExecute.value then none
  else if !r.reversible then some "automated production runbooks must be reversible"
  else if r.preconditions.isEmpty then
    some "automated production runbooks must declare preconditions"
  else if r.postconditions.isEmpty then
    some "automated production runbooks must declare postconditions"
  else none

/-- The runbooks registered so far, under distinct ids. -/
structure RunbookCatalog where
  items : List Runbook
  ids_nodup : (items.map (·.id)).Nodup
  registered : ∀ r ∈ items, r.registrationError = none

namespace RunbookCatalog

def empty : RunbookCatalog := ⟨[], by simp, by simp⟩

def register (c : RunbookCatalog) (r : Runbook) : Except String RunbookCatalog :=
  if hid : r.id ∈ c.items.map (·.id) then .error ("duplicate runbook: " ++ r.id)
  else
    match hr : r.registrationError with
    | some m => .error m
    | none => .ok
        { items := r :: c.items
          ids_nodup := by
            rw [List.map_cons, List.nodup_cons]
            exact ⟨hid, c.ids_nodup⟩
          registered := by
            intro r' hr'
            rcases List.mem_cons.mp hr' with rfl | hr'
            · exact hr
            · exact c.registered r' hr' }

/-- `get`; `none` is the `KeyError`. -/
def get (c : RunbookCatalog) (runbookId : String) : Option Runbook :=
  c.items.find? (·.id = runbookId)

end RunbookCatalog

end EngineeringIntelligence.Remediation
